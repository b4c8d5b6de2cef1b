import LoanDesk.Proofs.Decimal.Text

/-
# Numerals

A numeral is a number as it may be spelled in the plain alphabet: perhaps a sign, digits
with perhaps a point among them, and perhaps a power of ten behind a mark. What reads as a
number is spelled by a numeral whose value it is, and every numeral reads as its value.

Key definitions: `Decimal.Power`, `Decimal.Numeral`, `Decimal.Numeral.value`.
Key theorems: `Decimal.readExponent_eq_some_iff`, `Decimal.readPlain_eq_finite_iff`.
-/

namespace LoanDesk
namespace Decimal

open LoanDesk.Text

/-- The number that a row of digits stands for. -/
def digitsValue (ds : List Char) : ℕ := ofDigits (ds.map digitOf)

/-- A plus, a minus or nothing. -/
def IsSign (cs : List Char) : Prop := cs = [] ∨ cs = ['+'] ∨ cs = ['-']

/-- A power of ten as it is spelled behind a number. -/
structure Power where
  mark : Char
  sign : List Char
  digits : List Char
  isMark : mark = 'e' ∨ mark = 'E'
  isSign : IsSign sign
  isDigits : IsDigits digits
  ne_nil : digits ≠ []

/-- A number as it is spelled in the plain alphabet. -/
structure Numeral where
  sign : List Char
  whole : List Char
  /-- The digits behind the point, if there is one. -/
  fraction : Option (List Char)
  power : Option Power
  isSign : IsSign sign
  isDigits_whole : IsDigits whole
  isDigits_fraction : ∀ ds ∈ fraction, IsDigits ds
  ne_nil : whole ++ fraction.getD [] ≠ []

namespace Power

def chars (p : Power) : List Char := p.mark :: (p.sign ++ p.digits)

/-- The exponent of the power. -/
def value (p : Power) : ℤ :=
  if p.sign = ['-'] then -(digitsValue p.digits : ℤ) else digitsValue p.digits

end Power

namespace Numeral

/-- The point and the digits behind it. -/
def pointed (fraction : Option (List Char)) : List Char :=
  fraction.elim [] ('.' :: ·)

/-- The characters in front of the power. -/
def front (n : Numeral) : List Char :=
  n.sign ++ (n.whole ++ pointed n.fraction)

def chars (n : Numeral) : List Char :=
  n.front ++ n.power.elim [] Power.chars

/-- The digits on both sides of the point. -/
def digits (n : Numeral) : List Char :=
  n.whole ++ n.fraction.getD []

/-- The number of places behind the point. -/
def places (n : Numeral) : ℕ :=
  (n.fraction.getD []).length

def value (n : Numeral) : Decimal :=
  ⟨decide (n.sign = ['-']), digitsValue n.digits, n.power.elim 0 Power.value - n.places⟩

end Numeral

/-! ### Digits and signs -/

section

variable {c : Char} {cs rest : List Char}

theorem IsSign.not_isDigit (h : IsSign cs) (hc : c ∈ cs) : c.isDigit = false := by
  rcases h with rfl | rfl | rfl
  · cases hc
  · rw [List.mem_singleton.mp hc]
    rfl
  · rw [List.mem_singleton.mp hc]
    rfl

theorem isDigit_of_asciiDigit {d : ℕ} (h : asciiDigit? c = some d) :
    c.isDigit = true ∧ digitOf c = d := by
  cases hc : c.isDigit with
  | false =>
    rw [asciiDigit_of_not_isDigit hc] at h
    cases h
  | true =>
    rw [asciiDigit_of_isDigit hc] at h
    exact ⟨rfl, Option.some.inj h⟩

/-- What is split off are digits, and what is left is the rest. -/
theorem splitDigits_spec (cs : List Char) : ∃ as, IsDigits as ∧
    (Extended.splitDigits cs).1 = as.map digitOf ∧ cs = as ++ (Extended.splitDigits cs).2 := by
  induction cs with
  | nil => exact ⟨[], by simp [IsDigits], rfl, rfl⟩
  | cons c cs ih =>
    rw [Extended.splitDigits]
    cases hc : asciiDigit? c with
    | none => exact ⟨[], by simp [IsDigits], rfl, rfl⟩
    | some d =>
      obtain ⟨hdigit, hvalue⟩ := isDigit_of_asciiDigit hc
      obtain ⟨as, has, hds, hrest⟩ := ih
      refine ⟨c :: as, ?_, ?_, ?_⟩
      · exact List.forall_mem_cons.mpr ⟨hdigit, has⟩
      · rw [List.map_cons, hvalue, ← hds]
      · rw [List.cons_append, ← hrest]

/-- A sign in front is split off, unless there is none. -/
theorem splitSign_spec (cs : List Char) : ∃ sign, IsSign sign ∧
    cs = sign ++ (Extended.splitSign cs).2 ∧
    (Extended.splitSign cs).1 = decide (sign = ['-']) := by
  unfold Extended.splitSign
  split
  · exact ⟨['-'], .inr (.inr rfl), rfl, rfl⟩
  · exact ⟨['+'], .inr (.inl rfl), rfl, rfl⟩
  · exact ⟨[], .inl rfl, rfl, rfl⟩

/-- Before what is no sign a sign is split off as it is. -/
theorem splitSign_append (h : IsSign cs) (hrest : ∀ c ∈ rest.head?, c ≠ '-' ∧ c ≠ '+') :
    Extended.splitSign (cs ++ rest) = (decide (cs = ['-']), rest) := by
  rcases h with rfl | rfl | rfl
  · rw [List.nil_append]
    unfold Extended.splitSign
    split
    · exact absurd rfl (hrest '-' rfl).1
    · exact absurd rfl (hrest '+' rfl).2
    · rfl
  · rfl
  · rfl

/-- The letter of a power of ten in either case. -/
theorem smallAscii_eq_e (h : Extended.smallAscii c = 'e') : c = 'e' ∨ c = 'E' := by
  unfold Extended.smallAscii at h
  split at h
  · next hrange =>
    have h1 : 65 ≤ c.toNat := hrange.1
    have h2 : c.toNat ≤ 90 := hrange.2
    have key : ∀ n < 26, Char.ofNat (65 + n + 32) = 'e' → 65 + n = 69 := by decide
    have hn := key (c.toNat - 65) (by omega) (by rwa [show 65 + (c.toNat - 65) = c.toNat by omega])
    right
    rw [← Char.ofNat_toNat c, show c.toNat = 69 by omega]
  · exact .inl h

theorem ne_sign_of_isDigit (h : c.isDigit = true) : c ≠ '-' ∧ c ≠ '+' := by
  constructor <;> rintro rfl <;> cases h

end

/-! ### Powers -/

section

variable {cs : List Char} {e : ℤ}

theorem Power.splitSign (p : Power) :
    Extended.splitSign (p.sign ++ p.digits) = (decide (p.sign = ['-']), p.digits) := by
  refine splitSign_append p.isSign fun c hc => ne_sign_of_isDigit (p.isDigits c ?_)
  exact List.mem_of_mem_head? hc

/-- An exponent is read from nothing, or from a power. -/
theorem readExponent_eq_some_iff : Extended.readExponent cs = some e ↔
    (cs = [] ∧ e = 0) ∨ ∃ p : Power, cs = p.chars ∧ e = p.value := by
  constructor
  · intro h
    cases cs with
    | nil => exact .inl ⟨rfl, (Option.some.inj h).symm⟩
    | cons c rest =>
      rw [Extended.readExponent] at h
      split at h
      · next hmark =>
        obtain ⟨sign, hsign, hrest, hnegative⟩ := splitSign_spec rest
        obtain ⟨as, has, hds, hall⟩ := splitDigits_spec (Extended.splitSign rest).2
        simp only at h
        cases hsplit : Extended.splitDigits (Extended.splitSign rest).2 with
        | mk ds left =>
          rw [hsplit] at h hds hall
          cases ds with
          | nil => cases h
          | cons d ds =>
            cases left with
            | cons _ _ => cases h
            | nil =>
              rw [List.append_nil] at hall
              refine .inr ⟨⟨c, sign, as, smallAscii_eq_e hmark, hsign, has, ?_⟩, ?_, ?_⟩
              · rintro rfl
                cases hds
              · exact congrArg (c :: ·) (hrest.trans (congrArg (sign ++ ·) hall))
              · have hvalue : digitsValue as = ofDigits (d :: ds) := congrArg ofDigits hds.symm
                rw [← Option.some.inj h, Power.value, hvalue, hnegative]
                simp only [decide_eq_true_eq]
      · cases h
  · rintro (⟨rfl, rfl⟩ | ⟨p, rfl, rfl⟩)
    · rfl
    · have hmark : Extended.smallAscii p.mark = 'e' := by
        rcases p.isMark with h | h <;> rw [h] <;> decide
      have hdigits : Extended.splitDigits (p.digits ++ []) = (p.digits.map digitOf, []) :=
        splitDigits_digits p.isDigits (by simp)
      rw [List.append_nil] at hdigits
      obtain ⟨d, ds, hds⟩ : ∃ d ds, p.digits.map digitOf = d :: ds :=
        List.exists_cons_of_ne_nil (by simp [p.ne_nil])
      rw [Power.chars, Extended.readExponent, if_pos hmark, p.splitSign]
      simp only [hdigits, hds]
      rw [Power.value, digitsValue, hds]
      simp only [decide_eq_true_eq]

theorem power_head {power : Option Power} {c : Char}
    (hc : c ∈ (power.elim [] Power.chars).head?) : c = 'e' ∨ c = 'E' := by
  cases power with
  | none => cases hc
  | some p =>
    obtain rfl : p.mark = c := by simpa [Power.chars] using hc
    exact p.isMark

theorem readExponent_power (power : Option Power) :
    Extended.readExponent (power.elim [] Power.chars) = some (power.elim 0 Power.value) := by
  cases power with
  | none => rfl
  | some p => exact readExponent_eq_some_iff.mpr (.inr ⟨p, rfl, rfl⟩)

end

/-! ### Numbers without a sign -/

section

variable {cs : List Char}

theorem readFraction_spec (cs : List Char) : ∃ fraction : Option (List Char),
    (∀ ds ∈ fraction, IsDigits ds) ∧
    (Extended.readFraction cs).1 = (fraction.getD []).map digitOf ∧
    cs = Numeral.pointed fraction ++ (Extended.readFraction cs).2 := by
  unfold Extended.readFraction
  split
  · next rest =>
    obtain ⟨as, has, hds, hrest⟩ := splitDigits_spec rest
    refine ⟨some as, by simpa using has, hds, ?_⟩
    exact congrArg ('.' :: ·) hrest
  · exact ⟨none, by simp, rfl, rfl⟩

/-- The digits and the power that a number without a sign is read from. -/
theorem readUnsigned_spec {negative : Bool} {x : Extended}
    (h : Extended.readUnsigned negative cs = some x) :
    ∃ (whole : List Char) (fraction : Option (List Char)) (power : Option Power),
      IsDigits whole ∧ (∀ ds ∈ fraction, IsDigits ds) ∧ whole ++ fraction.getD [] ≠ [] ∧
      cs = whole ++ (Numeral.pointed fraction ++ power.elim [] Power.chars) ∧
      x = .finite ⟨negative, digitsValue (whole ++ fraction.getD []),
        power.elim 0 Power.value - (fraction.getD []).length⟩ := by
  obtain ⟨whole, hwhole, hvalues, hrest⟩ := splitDigits_spec cs
  obtain ⟨fraction, hfraction, hplaces, hleft⟩ :=
    readFraction_spec (Extended.splitDigits cs).2
  unfold Extended.readUnsigned at h
  simp only [hvalues, hplaces, ← List.map_append, List.length_map] at h
  split at h
  · cases h
  · next hsome =>
    have hne : whole ++ fraction.getD [] ≠ [] := by
      rintro hnil
      obtain ⟨h1, h2⟩ := List.append_eq_nil_iff.mp hnil
      rw [h1, h2] at hsome
      exact hsome rfl
    obtain ⟨e, he, hx⟩ := Option.bind_eq_some_iff.mp h
    obtain ⟨power, hpower, hpowerValue⟩ : ∃ power : Option Power,
        (Extended.readFraction (Extended.splitDigits cs).2).2 = power.elim [] Power.chars ∧
        e = power.elim 0 Power.value := by
      rcases readExponent_eq_some_iff.mp he with ⟨hnil, rfl⟩ | ⟨p, hp, rfl⟩
      · exact ⟨none, hnil, rfl⟩
      · exact ⟨some p, hp, rfl⟩
    refine ⟨whole, fraction, power, hwhole, hfraction, hne, ?_, ?_⟩
    · rw [← hpower, ← hleft, ← hrest]
    · rw [← hpowerValue]
      exact (Option.some.inj hx).symm

/-- Digits and a power of any spelling are read as their number. -/
theorem readUnsigned_eq {whole : List Char} {fraction : Option (List Char)}
    (power : Option Power) (hwhole : IsDigits whole) (hfraction : ∀ ds ∈ fraction, IsDigits ds)
    (hne : whole ++ fraction.getD [] ≠ []) (negative : Bool) :
    Extended.readUnsigned negative
        (whole ++ (Numeral.pointed fraction ++ power.elim [] Power.chars)) =
      some (.finite ⟨negative, digitsValue (whole ++ fraction.getD []),
        power.elim 0 Power.value - (fraction.getD []).length⟩) := by
  have hmark : ∀ c ∈ (power.elim [] Power.chars).head?, c.isDigit = false := by
    intro c hc
    rcases power_head hc with rfl | rfl <;> rfl
  have hpoint : ∀ c ∈ (Numeral.pointed fraction ++ power.elim [] Power.chars).head?,
      c.isDigit = false := by
    cases fraction with
    | none => exact hmark
    | some ds =>
      intro c hc
      obtain rfl : '.' = c := by simpa [Numeral.pointed] using hc
      rfl
  have hread : Extended.readFraction (Numeral.pointed fraction ++ power.elim [] Power.chars) =
      ((fraction.getD []).map digitOf, power.elim [] Power.chars) := by
    cases fraction with
    | some ds => exact splitDigits_digits (hfraction ds rfl) hmark
    | none =>
      change Extended.readFraction (power.elim [] Power.chars) = _
      unfold Extended.readFraction
      split
      · next rest heq =>
        have hdot : '.' ∈ (power.elim [] Power.chars).head? := by rw [heq]; rfl
        have hdot := power_head hdot
        exact absurd hdot (by decide)
      · rfl
  have hdigits : ((whole.map digitOf).isEmpty && ((fraction.getD []).map digitOf).isEmpty) =
      false := by
    rw [← Bool.not_eq_true, Bool.and_eq_true, List.isEmpty_iff, List.isEmpty_iff,
      List.map_eq_nil_iff, List.map_eq_nil_iff, ← List.append_eq_nil_iff]
    exact hne
  unfold Extended.readUnsigned
  simp only [splitDigits_digits hwhole hpoint, hread, hdigits, Bool.false_eq_true, if_false,
    readExponent_power, ← List.map_append, List.length_map]
  rfl

end

/-! ### Numerals -/

/-- What begins like a number is no word. -/
theorem readPlain_unsigned {sign : List Char} (hsign : IsSign sign) {c : Char}
    (hc : c.isDigit = true ∨ c = '.') (cs : List Char) :
    Extended.readPlain (sign ++ c :: cs) =
      Extended.readUnsigned (decide (sign = ['-'])) (c :: cs) := by
  have hne (d : Char) (h : d.isDigit = false) (hdot : d ≠ '.') : c ≠ d := by
    rintro rfl
    rcases hc with hc | hc
    · rw [hc] at h
      cases h
    · exact hdot hc
  have hsmall : Extended.smallAscii c = c := by
    unfold Extended.smallAscii
    rw [if_neg]
    rintro ⟨h1, -⟩
    have h1' : 65 ≤ c.toNat := h1
    rcases hc with hc | rfl
    · have := isDigit_iff.mp hc
      omega
    · exact absurd h1' (by decide)
  have hsplit : Extended.splitSign (sign ++ c :: cs) = (decide (sign = ['-']), c :: cs) := by
    refine splitSign_append hsign fun d hd => ?_
    obtain rfl : c = d := by simpa using hd
    exact ⟨hne '-' rfl (by decide), hne '+' rfl (by decide)⟩
  unfold Extended.readPlain
  simp only [hsplit, List.map_cons, hsmall]
  rw [if_neg, if_neg, if_neg]
  · simp [hne 's' rfl (by decide)]
  · simp [hne 'n' rfl (by decide)]
  · simp [hne 'i' rfl (by decide)]

namespace Numeral

/-- Behind the sign a numeral begins with a digit or a point. -/
theorem exists_head (n : Numeral) (rest : List Char) : ∃ c cs,
    n.whole ++ (pointed n.fraction ++ rest) = c :: cs ∧ (c.isDigit = true ∨ c = '.') := by
  cases hw : n.whole with
  | cons c cs =>
    exact ⟨c, _, rfl, .inl (n.isDigits_whole c (hw ▸ List.mem_cons_self))⟩
  | nil =>
    have hne := n.ne_nil
    cases hf : n.fraction with
    | none =>
      rw [hw, hf] at hne
      exact absurd rfl hne
    | some ds => exact ⟨'.', _, rfl, .inr rfl⟩

/-- Every numeral reads as its value. -/
theorem readPlain_chars (n : Numeral) :
    Extended.readPlain n.chars = some (.finite n.value) := by
  obtain ⟨c, cs, heq, hc⟩ := n.exists_head (n.power.elim [] Power.chars)
  have hchars : n.chars = n.sign ++ c :: cs := by
    rw [← heq, chars, front, List.append_assoc, List.append_assoc]
  rw [hchars, readPlain_unsigned n.isSign hc, ← heq,
    readUnsigned_eq n.power n.isDigits_whole n.isDigits_fraction n.ne_nil]
  rfl

end Numeral

/-- What reads as a number is spelled by a numeral of its value. -/
theorem readPlain_eq_finite_iff {cs : List Char} {d : Decimal} :
    Extended.readPlain cs = some (.finite d) ↔ ∃ n : Numeral, cs = n.chars ∧ d = n.value := by
  constructor
  · intro h
    obtain ⟨sign, hsign, hrest, hnegative⟩ := splitSign_spec cs
    unfold Extended.readPlain at h
    simp only at h
    split at h
    · cases h
    split at h
    · obtain ⟨payload, -, hx⟩ := Option.map_eq_some_iff.mp h
      cases hx
    split at h
    · obtain ⟨payload, -, hx⟩ := Option.map_eq_some_iff.mp h
      cases hx
    obtain ⟨whole, fraction, power, hwhole, hfraction, hne, hall, hvalue⟩ := readUnsigned_spec h
    refine ⟨⟨sign, whole, fraction, power, hsign, hwhole, hfraction, hne⟩, ?_, ?_⟩
    · rw [hrest, hall]
      simp [Numeral.chars, Numeral.front]
    · rw [Extended.finite.inj hvalue, hnegative]
      rfl
  · rintro ⟨n, rfl, rfl⟩
    exact n.readPlain_chars

end Decimal
end LoanDesk
