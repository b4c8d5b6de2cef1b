import LoanDesk.Proofs.Decimal.Numeral
import LoanDesk.Proofs.Money.Shown

/-
# Numerals read as amounts

An amount is read from the digits, points and signs of a text, and everything else is
passed over. A text that is a number by itself has nothing else but blanks, underscores and
the mark of its power of ten. So a number without a power is read as itself, and one whose
power has a sign is no amount, since the sign comes to stand among digits. But the digits of
a power without a sign are read as the last digits of the number: that is the same number
only if the power is one and there is a point for its zeros to stand behind, or if the
number is zero and its power is one.

Key definitions: `Decimal.Numeral.IsSpelled`, `Decimal.Numeral.lengthened`.
Key theorems: `Money.plainAlphabet_filter`, `Decimal.Numeral.lengthened_rat_eq_iff`,
`Money.ofText_spelled`, `Money.ofValue_numeral`.
-/

namespace LoanDesk

open Text

namespace Decimal

/-- The text spells the numeral, but for blanks around it, underscores in it and the script of its
digits. -/
def Numeral.IsSpelled (s : String) (n : Numeral) : Prop :=
  Extended.plainAlphabet (trim s.toList) = some n.chars

/-! ### Digits put behind a number -/

section

variable {ds : List Char}

theorem digitsValue_append (as bs : List Char) :
    digitsValue (as ++ bs) = digitsValue as * 10 ^ bs.length + digitsValue bs := by
  rw [digitsValue, List.map_append, ofDigits_append, List.length_map]
  rfl

theorem digitsValue_lt (h : IsDigits ds) : digitsValue ds < 10 ^ ds.length := by
  induction ds using List.reverseRecOn with
  | nil => simp [digitsValue, ofDigits]
  | append_singleton ds c ih =>
    have hc : digitOf c < 10 := by
      have := isDigit_iff.mp (h c (by simp))
      unfold digitOf
      omega
    have hds := ih fun d hd => h d (List.mem_append_left _ hd)
    have hone : digitsValue [c] = digitOf c := by simp [digitsValue, ofDigits]
    rw [digitsValue_append, hone, List.length_append, List.length_singleton, pow_succ]
    omega

/-- The last digits of a number are no multiple of their place, unless they are zero. -/
theorem eq_zero_of_digits_behind {c l e k : ℕ} (he : e < 10 ^ l)
    (h : c * 10 ^ l + e = c * 10 ^ (k + l)) : e = 0 := by
  refine Nat.eq_zero_of_dvd_of_lt ?_ he
  have hdvd : 10 ^ l ∣ c * 10 ^ l + e := h ▸ ⟨c * 10 ^ k, by ring⟩
  exact (Nat.dvd_add_right (Dvd.intro_left c rfl)).mp hdvd

/-- A whole number with an exponent put behind it is its product with the power only if both are
zero. -/
theorem eq_zero_of_exponent_behind {c l e : ℕ} (hl : 1 ≤ l) (he : e < 10 ^ l)
    (h : c * 10 ^ l + e = c * 10 ^ e) : e = 0 ∧ c = 0 := by
  rcases Nat.eq_zero_or_pos c with rfl | hc
  · exact ⟨by simpa using h, rfl⟩
  · have hle : l ≤ e := by
      have : c * 10 ^ l ≤ c * 10 ^ e := by omega
      exact (Nat.pow_le_pow_iff_right (by norm_num)).mp (Nat.le_of_mul_le_mul_left this hc)
    have hzero : e = 0 := by
      refine eq_zero_of_digits_behind (c := c) (k := e - l) he ?_
      rwa [Nat.sub_add_cancel hle]
    omega

end

namespace Numeral

/-- The numeral with the digits of a power as its last digits. -/
def lengthened (n : Numeral) (p : Power) : Numeral where
  sign := n.sign
  whole := if n.fraction.isSome then n.whole else n.whole ++ p.digits
  fraction := n.fraction.map (· ++ p.digits)
  power := none
  isSign := n.isSign
  isDigits_whole := by
    split
    · exact n.isDigits_whole
    · exact n.isDigits_whole.append p.isDigits
  isDigits_fraction := by
    intro ds hds
    obtain ⟨fs, hfs, rfl⟩ := Option.mem_map.mp hds
    exact (n.isDigits_fraction fs hfs).append p.isDigits
  ne_nil := by
    have hne := p.ne_nil
    cases n.fraction <;> simp [hne]

variable (n : Numeral) (p : Power)

theorem lengthened_chars : (n.lengthened p).chars = n.front ++ p.digits := by
  have hdigits : (n.lengthened p).whole ++ pointed (n.lengthened p).fraction =
      n.whole ++ pointed n.fraction ++ p.digits := by
    simp only [lengthened]
    cases n.fraction <;> simp [pointed]
  rw [chars, front, hdigits, front]
  simp [lengthened]

theorem lengthened_digits : (n.lengthened p).digits = n.digits ++ p.digits := by
  simp only [digits, lengthened]
  cases n.fraction <;> simp

theorem lengthened_places : (n.lengthened p).places =
    n.places + if n.fraction.isSome then p.digits.length else 0 := by
  simp only [places, lengthened]
  cases n.fraction <;> simp

theorem lengthened_value : (n.lengthened p).value = ⟨n.value.negative,
    n.value.coefficient * 10 ^ p.digits.length + digitsValue p.digits,
    -((n.lengthened p).places : ℤ)⟩ := by
  have hvalue : digitsValue (n.lengthened p).digits =
      n.value.coefficient * 10 ^ p.digits.length + digitsValue p.digits := by
    rw [lengthened_digits, digitsValue_append]
    rfl
  rw [← hvalue]
  change (⟨_, _, 0 - ((n.lengthened p).places : ℤ)⟩ : Decimal) = _
  rw [zero_sub]
  rfl

end Numeral

/-- Numbers of one sign are equal if their magnitudes are. -/
theorem rat_eq_iff_of_negative_eq {a b : Decimal} (h : a.negative = b.negative) :
    a.rat = b.rat ↔ (a.coefficient : ℚ) * 10 ^ a.exponent = b.coefficient * 10 ^ b.exponent := by
  rw [← sub_eq_zero, ← abs_eq_zero, rat_sub_rat h, abs_eq_zero, sub_eq_zero]

/-- With the digits of its power behind it a number is the same number only if its power is one,
and there is a point or nothing in front of it. -/
theorem Numeral.lengthened_rat_eq_iff {n : Numeral} {p : Power} (hp : n.power = some p)
    (hsign : p.sign = []) : (n.lengthened p).value.rat = n.value.rat ↔
      p.value = 0 ∧ (n.fraction.isSome = true ∨ n.value.coefficient = 0) := by
  have hpower : p.value = digitsValue p.digits := by
    unfold Power.value
    rw [hsign]
    rfl
  have hlt := digitsValue_lt p.isDigits
  have hlength : 1 ≤ p.digits.length := List.length_pos_iff.mpr p.ne_nil
  have hexponent : n.value.exponent = digitsValue p.digits - n.places := by
    change n.power.elim 0 Power.value - (n.places : ℤ) = _
    rw [hp, ← hpower]
    rfl
  rw [rat_eq_iff_of_negative_eq (by rw [lengthened_value]), lengthened_value, hexponent, hpower,
    lengthened_places]
  generalize n.value.coefficient = c
  generalize digitsValue p.digits = e at hlt
  generalize p.digits.length = l at hlt hlength
  -- both sides in units of the last place of the lengthened number
  have hnat : ∀ k : ℕ, ((c * 10 ^ l + e : ℕ) : ℚ) * 10 ^ (-((n.places + k : ℕ) : ℤ)) =
      c * 10 ^ ((e : ℤ) - n.places) ↔ c * 10 ^ l + e = c * 10 ^ (e + k) := by
    intro k
    have hunit : (0 : ℚ) < 10 ^ ((n.places + k : ℕ) : ℤ) := zpow_pos (by norm_num) _
    rw [← mul_left_inj' hunit.ne', mul_assoc, mul_assoc, ← zpow_add₀ (by norm_num),
      ← zpow_add₀ (by norm_num), neg_add_cancel, zpow_zero, mul_one,
      show (e : ℤ) - n.places + (n.places + k : ℕ) = (e + k : ℕ) by push_cast; ring, zpow_natCast]
    exact_mod_cast Iff.rfl
  rw [hnat]
  cases n.fraction.isSome with
  | true =>
    simp only [if_true, true_or, and_true, Nat.cast_eq_zero]
    constructor
    · exact eq_zero_of_digits_behind hlt
    · rintro rfl
      rw [zero_add, add_zero]
  | false =>
    simp only [Bool.false_eq_true, if_false, false_or, add_zero, Nat.cast_eq_zero]
    constructor
    · exact eq_zero_of_exponent_behind hlength hlt
    · rintro ⟨rfl, rfl⟩
      rw [zero_mul, zero_mul, zero_add]

end Decimal

namespace Money

open Decimal

/-! ### What is passed over -/

section

variable {c : Char} {cs ps : List Char}

theorem isBlank_of_isAmountChar (h : isAmountChar c = true) : Text.isBlank c = false := by
  have hapart : ∀ z ∈ digitZeros, ∀ r ∈ blankRanges, z + 9 < r.1 ∨ r.2 < z := by decide
  simp only [isAmountChar, Bool.or_eq_true, beq_iff_eq] at h
  rcases h with (((hdigit | rfl) | rfl) | rfl) | rfl
  · obtain ⟨z, hz, -⟩ := Option.map_eq_some_iff.mp (Option.isSome_iff_exists.mp hdigit).choose_spec
    have hmem := List.mem_of_find?_eq_some hz
    have hrange := List.find?_some hz
    simp only [Bool.and_eq_true, decide_eq_true_eq] at hrange
    refine List.any_eq_false.mpr fun r hr => ?_
    have := hapart z hmem r hr
    simp only [Bool.and_eq_true, decide_eq_true_eq, not_and, not_le]
    omega
  all_goals decide

theorem isAmountChar_digitChar (d : ℕ) : isAmountChar (digitChar d) = true :=
  isAmountChar_of_isDigit (isDigit_digitChar d)

/-- Passing over characters and writing the rest in the plain alphabet can be done in either
order. -/
theorem plainAlphabet_filter (h : Extended.plainAlphabet cs = some ps) :
    Extended.plainAlphabet (cs.filter isAmountChar) = some (ps.filter isAmountChar) := by
  induction cs generalizing ps with
  | nil =>
    obtain rfl := Option.some.inj h
    rfl
  | cons c cs ih =>
    rw [Extended.plainAlphabet] at h
    split at h
    · next hc =>
      rw [List.filter_cons_of_neg (by rw [hc]; decide)]
      exact ih h
    · next hc =>
      split at h
      · next hascii =>
        obtain ⟨qs, hqs, rfl⟩ := Option.map_eq_some_iff.mp h
        by_cases hamount : isAmountChar c = true
        · rw [List.filter_cons_of_pos hamount, List.filter_cons_of_pos hamount,
            Extended.plainAlphabet, if_neg hc, if_pos hascii, ih hqs]
          rfl
        · rw [List.filter_cons_of_neg hamount, List.filter_cons_of_neg hamount]
          exact ih hqs
      · next hascii =>
        obtain ⟨d, hd, h⟩ := Option.bind_eq_some_iff.mp h
        obtain ⟨qs, hqs, rfl⟩ := Option.map_eq_some_iff.mp h
        have hamount : isAmountChar c = true := by
          simp [isAmountChar, Text.isDigit, hd]
        rw [List.filter_cons_of_pos hamount, List.filter_cons_of_pos (isAmountChar_digitChar d),
          Extended.plainAlphabet, if_neg hc, if_neg hascii, hd, ih hqs]
        rfl

/-- The characters of the first alphabet that are no underscores stay. -/
theorem mem_of_plainAlphabet (h : Extended.plainAlphabet cs = some ps) (hc : c ∈ cs)
    (hne : c ≠ '_') (hascii : c.toNat < 128) : c ∈ ps := by
  induction cs generalizing ps with
  | nil => cases hc
  | cons x cs ih =>
    rw [Extended.plainAlphabet] at h
    rcases List.mem_cons.mp hc with rfl | hc
    · rw [if_neg hne, if_pos hascii] at h
      obtain ⟨qs, -, rfl⟩ := Option.map_eq_some_iff.mp h
      exact List.mem_cons_self
    · split at h
      · exact ih h hc
      · split at h
        · obtain ⟨qs, hqs, rfl⟩ := Option.map_eq_some_iff.mp h
          exact List.mem_cons_of_mem _ (ih hqs hc)
        · obtain ⟨d, -, h⟩ := Option.bind_eq_some_iff.mp h
          obtain ⟨qs, hqs, rfl⟩ := Option.map_eq_some_iff.mp h
          exact List.mem_cons_of_mem _ (ih hqs hc)

end

/-! ### What is left of a numeral -/

/-- A digit, a point or a sign. -/
def IsNumeralChar (c : Char) : Prop := c.isDigit = true ∨ c = '.' ∨ c = '+' ∨ c = '-'

namespace IsNumeralChar

variable {c : Char}

theorem isAmountChar (h : IsNumeralChar c) : isAmountChar c = true := by
  rcases h with h | rfl | rfl | rfl
  · exact isAmountChar_of_isDigit h
  all_goals decide

end IsNumeralChar

theorem not_isNumeralChar_comma : ¬ IsNumeralChar ',' := by
  unfold IsNumeralChar
  decide

theorem not_isNumeralChar_mark {c : Char} (h : c = 'e' ∨ c = 'E') : ¬ IsNumeralChar c := by
  unfold IsNumeralChar
  rcases h with rfl | rfl <;> decide

theorem isNumeralChar_of_sign {cs : List Char} (h : IsSign cs) : ∀ c ∈ cs, IsNumeralChar c := by
  intro c hc
  rcases h with rfl | rfl | rfl
  · cases hc
  · exact .inr (.inr (.inl (List.mem_singleton.mp hc)))
  · exact .inr (.inr (.inr (List.mem_singleton.mp hc)))

/-- The characters of a numeral without the mark of its power. -/
def unmarked (n : Numeral) : List Char :=
  n.front ++ n.power.elim [] fun p => p.sign ++ p.digits

section

variable (n : Numeral)

/-- Behind its sign a numeral has digits and a point in front of its power. -/
theorem isDigit_or_point {c : Char} (hc : c ∈ n.whole ++ Numeral.pointed n.fraction) :
    c.isDigit = true ∨ c = '.' := by
  rcases List.mem_append.mp hc with hc | hc
  · exact .inl (n.isDigits_whole c hc)
  · have hfraction := n.isDigits_fraction
    cases hf : n.fraction with
    | none =>
      rw [hf] at hc
      cases hc
    | some ds =>
      rw [hf] at hc
      rcases List.mem_cons.mp hc with rfl | hc
      · exact .inr rfl
      · exact .inl (hfraction ds hf c hc)

theorem isNumeralChar_of_front : ∀ c ∈ n.front, IsNumeralChar c := by
  intro c hc
  rcases List.mem_append.mp hc with hc | hc
  · exact isNumeralChar_of_sign n.isSign c hc
  · rcases isDigit_or_point n hc with h | h
    · exact .inl h
    · exact .inr (.inl h)

theorem isNumeralChar_of_power (p : Power) : ∀ c ∈ p.sign ++ p.digits, IsNumeralChar c := by
  intro c hc
  rcases List.mem_append.mp hc with hc | hc
  · exact isNumeralChar_of_sign p.isSign c hc
  · exact .inl (p.isDigits c hc)

theorem isNumeralChar_of_unmarked : ∀ c ∈ unmarked n, IsNumeralChar c := by
  intro c hc
  rcases List.mem_append.mp hc with hc | hc
  · exact isNumeralChar_of_front n c hc
  · cases hp : n.power with
    | none =>
      rw [hp] at hc
      cases hc
    | some p =>
      rw [hp] at hc
      exact isNumeralChar_of_power p c hc

/-- Of a numeral only the mark is passed over. -/
theorem filter_chars : n.chars.filter isAmountChar = unmarked n := by
  have hkept : ∀ {cs : List Char}, (∀ c ∈ cs, IsNumeralChar c) → cs.filter isAmountChar = cs :=
    fun h => List.filter_eq_self.mpr fun c hc => (h c hc).isAmountChar
  rw [Numeral.chars, List.filter_append, hkept (isNumeralChar_of_front n), unmarked]
  congr 1
  cases n.power with
  | none => rfl
  | some p =>
    have hmark : ¬ isAmountChar p.mark = true := by
      rcases p.isMark with h | h <;> rw [h] <;> decide
    exact (List.filter_cons_of_neg hmark).trans (hkept (isNumeralChar_of_power p))

theorem comma_not_mem_chars : ',' ∉ n.chars := by
  intro hc
  have hkept : ',' ∈ n.chars.filter isAmountChar := List.mem_filter.mpr ⟨hc, by decide⟩
  rw [filter_chars] at hkept
  exact not_isNumeralChar_comma (isNumeralChar_of_unmarked n _ hkept)

theorem front_ne_nil : n.front ≠ [] := by
  obtain ⟨c, cs, heq, -⟩ := n.exists_head []
  intro hnil
  have hempty := (List.append_eq_nil_iff.mp hnil).2
  rw [← List.append_assoc, hempty] at heq
  cases heq

variable {n}

/-- Without a power a numeral has no sign behind its first character. -/
theorem not_sign_of_tail (hp : n.power = none) {c : Char} (hc : c ∈ n.chars.tail) :
    c.isDigit = true ∨ c = '.' := by
  have hchars : n.chars = n.sign ++ (n.whole ++ Numeral.pointed n.fraction) := by
    rw [Numeral.chars, hp, Option.elim_none, List.append_nil, Numeral.front]
  rw [hchars] at hc
  refine isDigit_or_point n ?_
  rcases n.isSign with h | h | h <;> rw [h] at hc
  · exact List.mem_of_mem_tail hc
  · exact hc
  · exact hc

/-- A sign among the digits is in no numeral without a mark. -/
theorem chars_ne_of_sign {p : Power} (hsign : p.sign ≠ []) (m : Numeral) :
    m.chars ≠ n.front ++ (p.sign ++ p.digits) := by
  intro heq
  have hall : ∀ c ∈ m.chars, IsNumeralChar c := by
    rw [heq]
    intro c hc
    rcases List.mem_append.mp hc with hc | hc
    · exact isNumeralChar_of_front n c hc
    · exact isNumeralChar_of_power p c hc
  have hnone : m.power = none := by
    cases hp : m.power with
    | none => rfl
    | some q =>
      have hmem : q.mark ∈ m.chars := by simp [Numeral.chars, hp, Power.chars]
      exact absurd (hall _ hmem) (not_isNumeralChar_mark q.isMark)
  obtain ⟨x, xs, hfront⟩ := List.exists_cons_of_ne_nil (front_ne_nil n)
  obtain ⟨s, ss, hs⟩ := List.exists_cons_of_ne_nil hsign
  have htail : s ∈ m.chars.tail := by
    rw [heq, hfront, hs]
    simp
  have hplain := p.isSign.not_isDigit (c := s) (hs ▸ List.mem_cons_self)
  rcases not_sign_of_tail hnone htail with h | rfl
  · rw [h] at hplain
    cases hplain
  · rcases p.isSign with h | h | h <;> rw [h] at hs <;> cases hs

end

/-! ### What is read -/

section

variable {s : String} {n : Numeral} {d : Decimal}

/-- What is read of a numeral is the number that it comes to without the mark of its power. -/
theorem ofText_spelled (h : n.IsSpelled s) : ofText s =
    match (Extended.readPlain (unmarked n)).filter Extended.isWithinReach with
    | some (.finite d) => .ok d
    | _ => .error (.unreadableAmount s) := by
  have hne : s ≠ "" := by
    rintro rfl
    have hnil : [] = n.chars := Option.some.inj h
    exact front_ne_nil n (List.append_eq_nil_iff.mp hnil.symm).1
  have hcomma : ',' ∉ (trim s.toList).filter isAmountChar := fun hc =>
    comma_not_mem_chars n
      (mem_of_plainAlphabet h (List.mem_of_mem_filter hc) (by decide) (by decide))
  have hbare : bare s.toList = (trim s.toList).filter isAmountChar := by
    unfold bare settleCommas
    rw [if_pos hcomma]
  have hblank : trim (bare s.toList) = bare s.toList := by
    refine trim_eq_self fun c hc => isBlank_of_isAmountChar ?_
    rw [hbare] at hc
    exact (List.mem_filter.mp hc).2
  have hplain : Extended.plainAlphabet (bare s.toList) = some (unmarked n) := by
    rw [hbare, plainAlphabet_filter h, filter_chars]
  unfold ofText
  rw [if_neg hne, Extended.ofText?, Extended.spelled?, String.toList_ofList, hblank, hplain]
  rfl

/-- A text that is a number spells a numeral of its value. -/
theorem exists_numeral (h : Extended.ofText? s = some (.finite d)) :
    d.withinReach = true ∧ ∃ n : Numeral, n.IsSpelled s ∧ n.value = d := by
  obtain ⟨hspelled, hreach⟩ := Option.filter_eq_some_iff.mp h
  obtain ⟨ps, hps, hread⟩ := Option.bind_eq_some_iff.mp hspelled
  obtain ⟨n, rfl, rfl⟩ := readPlain_eq_finite_iff.mp hread
  exact ⟨hreach, n, hps, rfl⟩

end

/-- A text that is a number by itself spells a numeral, and what is read of it depends on the power
of that: without one the text is read as the very same number; if the power has a sign the text is
no amount; and if it has none its digits are read as the last digits of the number, which is the
same number only if the exponent is zero, and there is a point or the number is zero. -/
theorem ofValue_numeral {s : String} {d : Decimal} (h : Extended.ofText? s = some (.finite d)) :
    ∃ n : Numeral, n.IsSpelled s ∧ n.value = d ∧ ofTextValue (.text s) = ofValue (.text s) ∧
      (n.power = none → ofValue (.text s) = .ok d) ∧
      (∀ p, n.power = some p → p.sign ≠ [] →
        ofValue (.text s) = .error (.unreadableAmount s)) ∧
      ∀ p, n.power = some p → p.sign = [] →
        (ofValue (.text s) =
          if (n.lengthened p).value.withinReach then .ok (n.lengthened p).value
          else .error (.unreadableAmount s)) ∧
        ((n.lengthened p).value.rat = d.rat ↔
          p.value = 0 ∧ (n.fraction.isSome = true ∨ d.coefficient = 0)) := by
  obtain ⟨hreach, n, hn, rfl⟩ := exists_numeral h
  have hread := ofText_spelled hn
  refine ⟨n, hn, rfl, rfl, fun hp => ?_, fun p hp hsign => ?_, fun p hp hsign =>
    ⟨?_, Numeral.lengthened_rat_eq_iff hp hsign⟩⟩
  · have hchars : unmarked n = n.chars := by rw [unmarked, Numeral.chars, hp]; rfl
    have hwithin : Extended.isWithinReach (.finite n.value) = true := hreach
    rw [hchars, n.readPlain_chars, Option.filter_some, if_pos hwithin] at hread
    exact hread
  · have hchars : unmarked n = n.front ++ (p.sign ++ p.digits) := by rw [unmarked, hp]; rfl
    change ofText s = _
    rw [hread]
    split
    · next d hd =>
      obtain ⟨hd, -⟩ := Option.filter_eq_some_iff.mp hd
      obtain ⟨m, hm, -⟩ := readPlain_eq_finite_iff.mp hd
      exact absurd (hm.symm.trans hchars) (chars_ne_of_sign hsign m)
    · rfl
  · have hchars : unmarked n = (n.lengthened p).chars := by
      rw [unmarked, hp, n.lengthened_chars, Option.elim_some, hsign, List.nil_append]
    rw [hchars, Numeral.readPlain_chars, Option.filter_some] at hread
    change ofText s = _
    rw [hread]
    by_cases hwithin : (n.lengthened p).value.withinReach = true
    · have hkept : Extended.isWithinReach (.finite (n.lengthened p).value) = true := hwithin
      rw [if_pos hkept, if_pos hwithin]
    · have hlost : ¬ Extended.isWithinReach (.finite (n.lengthened p).value) = true := hwithin
      rw [if_neg hlost, if_neg hwithin]

/-- A number without a power, written with blanks around it and an underscore in it. -/
theorem ofValue_numeral_plain :
    Extended.ofText? " 1_5.00 " = some (.finite ⟨false, 1500, -2⟩) ∧
      ofValue (.text " 1_5.00 ") = .ok ⟨false, 1500, -2⟩ := by
  have h : Extended.ofText? " 1_5.00 " = some (.finite ⟨false, 1500, -2⟩) := by decide +kernel
  obtain ⟨n, hn, -, -, hwhole, -, -⟩ := ofValue_numeral h
  have hchars : n.chars = "15.00".toList := Option.some.inj (hn.symm.trans (by decide +kernel))
  refine ⟨h, hwhole ?_⟩
  cases hp : n.power with
  | none => rfl
  | some q =>
    have hmark : q.mark ∈ "15.00".toList := by
      rw [← hchars, Numeral.chars, hp]
      exact List.mem_append_right _ List.mem_cons_self
    rcases q.isMark with h | h <;> rw [h] at hmark <;> exact absurd hmark (by decide)

/-- The digits of a power without a sign become digits of the number. -/
theorem ofValue_misread :
    Extended.ofText? "1e5" = some (.finite ⟨false, 1, 5⟩) ∧
      ofTextValue (.text "1e5") = .ok ⟨false, 15, 0⟩ ∧
      ofValue (.text "1e5") = .ok ⟨false, 15, 0⟩ ∧
      (⟨false, 15, 0⟩ : Decimal).rat ≠ (⟨false, 1, 5⟩ : Decimal).rat := by
  have hread : ofText "1e5" = .ok ⟨false, 15, 0⟩ := by
    have hbare : Extended.ofText? (String.ofList (bare "1e5".toList)) =
        some (.finite ⟨false, 15, 0⟩) := by decide +kernel
    rw [ofText, if_neg (by decide), hbare]
  refine ⟨by decide +kernel, hread, hread, ?_⟩
  norm_num [Decimal.rat, Decimal.signed]

end Money
end LoanDesk
