import LoanDesk.Decimal.Text
import LoanDesk.Proofs.Text.Digits

/-
# Written decimals read back

The text of a decimal keeps its sign, its coefficient and its exponent, wherever the
point falls and whether or not an exponent is shown; so it reads back as the same
decimal, and not only as an equal number. The same holds of the values that are no
numbers.

Key theorems: `Decimal.Extended.readUnsigned_withPoint`, `Decimal.Extended.spelled_text`,
`Decimal.Extended.ofText_text`.
-/

namespace LoanDesk
namespace Decimal

open LoanDesk.Text

/-! ### The alphabet -/

/-- A character that numbers are written with. -/
def IsWritten (c : Char) : Prop := c.isDigit = true ∨ c ∈ ".+-ENaNsInfinity".toList

theorem isWritten_of_isDigits {ds : List Char} (h : IsDigits ds) : ∀ c ∈ ds, IsWritten c :=
  fun c hc => .inl (h c hc)

theorem isDigit_iff {c : Char} : c.isDigit = true ↔ 48 ≤ c.toNat ∧ c.toNat ≤ 57 := by
  simp only [Char.isDigit, Bool.and_eq_true, decide_eq_true_eq, UInt32.le_iff_toNat_le]
  exact Iff.rfl

theorem IsWritten.lt {c : Char} (h : IsWritten c) : c.toNat < 128 := by
  rcases h with h | h
  · have := isDigit_iff.mp h
    omega
  · have hall : ".+-ENaNsInfinity".toList.all (fun c => c.toNat < 128) = true := by decide
    exact of_decide_eq_true (List.all_eq_true.mp hall c h)

theorem IsWritten.ne_underscore {c : Char} (h : IsWritten c) : c ≠ '_' := by
  rintro rfl
  revert h
  unfold IsWritten
  decide

theorem IsWritten.isBlank {c : Char} (h : IsWritten c) : isBlank c = false := by
  rcases h with h | h
  · have := isDigit_iff.mp h
    simp only [Text.isBlank, inRanges, blankRanges, List.any_cons, List.any_nil, Bool.or_false,
      Bool.or_eq_false_iff, Bool.and_eq_false_iff, decide_eq_false_iff_not]
    omega
  · have hall : ".+-ENaNsInfinity".toList.all (fun c => !Text.isBlank c) = true := by decide
    exact (Bool.not_eq_true' _).mp (List.all_eq_true.mp hall c h)

/-- What has no blanks is not trimmed. -/
theorem trim_eq_self {cs : List Char} (h : ∀ c ∈ cs, Text.isBlank c = false) : trim cs = cs := by
  have key : ∀ {cs : List Char}, (∀ c ∈ cs, Text.isBlank c = false) →
      cs.dropWhile Text.isBlank = cs := by
    intro cs h
    cases cs with
    | nil => rfl
    | cons c cs => simp [h c (List.mem_cons_self ..)]
  unfold trim trimBy
  rw [key h, key (by simpa using h), List.reverse_reverse]

theorem trim_written {cs : List Char} (h : ∀ c ∈ cs, IsWritten c) : trim cs = cs :=
  trim_eq_self fun c hc => (h c hc).isBlank

theorem plainAlphabet_written {cs : List Char} (h : ∀ c ∈ cs, IsWritten c) :
    Extended.plainAlphabet cs = some cs := by
  induction cs with
  | nil => rfl
  | cons c cs ih =>
    have hc := h c (List.mem_cons_self ..)
    rw [Extended.plainAlphabet, if_neg hc.ne_underscore, if_pos hc.lt,
      ih fun d hd => h d (List.mem_cons_of_mem c hd)]
    rfl

/-! ### Digits -/

theorem asciiDigit_of_isDigit {c : Char} (h : c.isDigit = true) :
    asciiDigit? c = some (digitOf c) := by
  have := isDigit_iff.mp h
  unfold asciiDigit? digitOf
  rw [if_pos]
  exact ⟨this.1, this.2⟩

theorem asciiDigit_of_not_isDigit {c : Char} (h : c.isDigit = false) : asciiDigit? c = none := by
  unfold asciiDigit?
  rw [if_neg]
  rintro ⟨h1, h2⟩
  rw [isDigit_iff.mpr ⟨h1, h2⟩] at h
  cases h

/-- Digits are split off up to what is none. -/
theorem splitDigits_digits {ds rest : List Char} (hd : IsDigits ds)
    (hr : ∀ c ∈ rest.head?, c.isDigit = false) :
    Extended.splitDigits (ds ++ rest) = (ds.map digitOf, rest) := by
  induction ds with
  | nil =>
    cases rest with
    | nil => rfl
    | cons c rest =>
      rw [List.nil_append, Extended.splitDigits, asciiDigit_of_not_isDigit (hr c rfl)]
      rfl
  | cons d ds ih =>
    rw [List.cons_append, Extended.splitDigits,
      asciiDigit_of_isDigit (hd d (List.mem_cons_self ..)),
      ih fun c hc => hd c (List.mem_cons_of_mem d hc)]
    rfl

/-! ### Exponents -/

/-- What stands behind the digits: nothing for zero, or the exponent with its mark. -/
def exponentPart (e : ℤ) : List Char := if e = 0 then [] else exponentChars e

theorem exponentPart_head (e : ℤ) : ∀ c ∈ (exponentPart e).head?, c = 'E' := by
  unfold exponentPart
  split
  · simp
  · simp [exponentChars, eq_comm]

theorem readExponent_part (e : ℤ) : Extended.readExponent (exponentPart e) = some e := by
  unfold exponentPart
  split
  · rename_i h
    rw [h]
    rfl
  · have hsplit : Extended.splitDigits (natDigits e.natAbs ++ []) = _ :=
      splitDigits_digits (isDigits_natDigits e.natAbs) (by simp)
    rw [List.append_nil] at hsplit
    have hvalue := ofDigits_natDigits e.natAbs
    obtain ⟨d, ds, hds⟩ : ∃ d ds, (natDigits e.natAbs).map digitOf = d :: ds :=
      List.exists_cons_of_ne_nil (by simp [natDigits_ne_nil])
    rw [hds] at hsplit hvalue
    unfold exponentChars
    rw [Extended.readExponent, if_pos (by decide)]
    by_cases hneg : e < 0
    · simp only [hneg, if_true, Extended.splitSign, hsplit, hvalue]
      congr 1
      omega
    · simp only [hneg, if_false, Extended.splitSign, hsplit, hvalue, Bool.false_eq_true]
      congr 1
      omega

theorem readFraction_part (e : ℤ) :
    Extended.readFraction (exponentPart e) = ([], exponentPart e) := by
  have h := exponentPart_head e
  cases hpart : exponentPart e with
  | nil => rfl
  | cons c cs =>
    rw [hpart] at h
    obtain rfl := h c rfl
    rfl

/-! ### Numbers without a sign -/

theorem withPoint_isWritten {ds : List Char} (h : IsDigits ds) (place : ℤ) :
    ∀ c ∈ withPoint ds place, IsWritten c := by
  have hdot : IsWritten '.' := .inr (by decide)
  have hzero : IsWritten '0' := .inl rfl
  have hd := isWritten_of_isDigits h
  intro c hc
  unfold withPoint at hc
  split at hc
  · simp only [List.mem_cons, List.mem_append, List.mem_replicate] at hc
    rcases hc with rfl | rfl | ⟨-, rfl⟩ | hc
    exacts [hzero, hdot, hzero, hd c hc]
  · split at hc
    · rcases List.mem_append.mp hc with hc | hc
      · exact hd c hc
      · rw [List.eq_of_mem_replicate hc]
        exact hzero
    · simp only [List.mem_append, List.mem_cons] at hc
      rcases hc with hc | rfl | hc
      exacts [hd c (List.mem_of_mem_take hc), hdot, hd c (List.mem_of_mem_drop hc)]

theorem exponentPart_isWritten (e : ℤ) : ∀ c ∈ exponentPart e, IsWritten c := by
  have hmark : IsWritten 'E' := .inr (by decide)
  have hminus : IsWritten '-' := .inr (by decide)
  have hplus : IsWritten '+' := .inr (by decide)
  intro c hc
  unfold exponentPart at hc
  split at hc
  · simp at hc
  · simp only [exponentChars, List.mem_cons] at hc
    rcases hc with rfl | rfl | hc
    · exact hmark
    · split <;> assumption
    · exact .inl (isDigits_natDigits _ c hc)

/-- A point between two rows of digits. -/
theorem withPoint_append {as bs : List Char} (ha : as ≠ []) (hb : bs ≠ []) :
    withPoint (as ++ bs) as.length = as ++ '.' :: bs := by
  have hlength := List.length_pos_iff.mpr ha
  have hlength' := List.length_pos_iff.mpr hb
  unfold withPoint
  rw [if_neg (by omega), if_neg (by rw [List.length_append]; omega), Int.toNat_natCast,
    List.take_left, List.drop_left]

theorem exponentPart_head_isDigit (e : ℤ) : ∀ c ∈ (exponentPart e).head?, c.isDigit = false := by
  intro c hc
  rw [exponentPart_head e c hc]
  rfl

/-- A row of digits without a point reads back. -/
theorem readUnsigned_plain (negative : Bool) {ds : List Char} (hd : IsDigits ds) (hne : ds ≠ [])
    (e : ℤ) : Extended.readUnsigned negative (ds ++ exponentPart e) =
      some (.finite ⟨negative, ofDigits (ds.map digitOf), e⟩) := by
  have hall := splitDigits_digits hd (exponentPart_head_isDigit e)
  have hsome : (ds.map digitOf).isEmpty = false := by simp [hne]
  unfold Extended.readUnsigned
  simp only [hall, readFraction_part, hsome, Bool.false_and, Bool.false_eq_true, if_false,
    readExponent_part, List.append_nil, bind, Option.bind, pure]
  congr 3
  simp

/-- Two rows of digits with a point between them read back as one, less the places behind the
point. -/
theorem readUnsigned_pointed (negative : Bool) {front back : List Char} (hfront : IsDigits front)
    (hback : IsDigits back) (hne : front ≠ []) (e : ℤ) :
    Extended.readUnsigned negative (front ++ '.' :: (back ++ exponentPart e)) =
      some (.finite ⟨negative, ofDigits ((front ++ back).map digitOf), e - back.length⟩) := by
  have hdot : ∀ c ∈ ('.' :: (back ++ exponentPart e)).head?, c.isDigit = false := by
    intro c hc
    obtain rfl : '.' = c := by simpa using hc
    rfl
  have hall := splitDigits_digits hfront hdot
  have hrest := splitDigits_digits hback (exponentPart_head_isDigit e)
  have hsome : (front.map digitOf).isEmpty = false := by simp [hne]
  unfold Extended.readUnsigned
  simp only [hall, Extended.readFraction, hrest, hsome, Bool.false_and, Bool.false_eq_true,
    if_false, readExponent_part, bind, Option.bind, pure, List.length_map, List.map_append]

theorem ofDigits_leading_zeros (k : ℕ) (ds : List Char) :
    ofDigits ((['0'] ++ (List.replicate k '0' ++ ds)).map digitOf) = ofDigits (ds.map digitOf) := by
  rw [List.map_append, ofDigits_append, List.map_append, ofDigits_append, ofDigits_zeros]
  simp [ofDigits, digitOf]

/-- A row of digits with a point in it or before it, or none at its very end, reads back with the
exponent less the places behind the point. -/
theorem readUnsigned_withPoint (negative : Bool) {ds : List Char} (hd : IsDigits ds) (hne : ds ≠ [])
    {place : ℤ} (hplace : place ≤ ds.length) (e : ℤ) :
    Extended.readUnsigned negative (withPoint ds place ++ exponentPart e) =
      some (.finite ⟨negative, ofDigits (ds.map digitOf), e - (ds.length - place)⟩) := by
  unfold withPoint
  by_cases h1 : place ≤ 0
  · have hzero : IsDigits ['0'] := by simp [IsDigits]
    have hread := readUnsigned_pointed negative hzero ((isDigits_zeros (-place).toNat).append hd)
      (by simp) e
    rw [ofDigits_leading_zeros] at hread
    rw [if_pos h1]
    refine hread.trans ?_
    congr 3
    rw [List.length_append, List.length_replicate]
    push_cast
    omega
  · by_cases h2 : (ds.length : ℤ) ≤ place
    · have hnil : List.replicate (place.toNat - ds.length) '0' = [] := by
        rw [show place.toNat - ds.length = 0 by omega]
        rfl
      rw [if_neg h1, if_pos h2, hnil, List.append_nil, readUnsigned_plain negative hd hne]
      congr 3
      omega
    · have hfront : IsDigits (ds.take place.toNat) := fun c hc => hd c (List.mem_of_mem_take hc)
      have hback : IsDigits (ds.drop place.toNat) := fun c hc => hd c (List.mem_of_mem_drop hc)
      have hsome : ds.take place.toNat ≠ [] := by
        simp [hne]
        omega
      rw [if_neg h1, if_neg h2, List.append_assoc, List.cons_append,
        readUnsigned_pointed negative hfront hback hsome, List.take_append_drop, List.length_drop]
      congr 3
      omega

/-! ### Whole values -/

/-- The first digits of a number: up to the point, where it has one. -/
def pointPlace (d : Decimal) : ℤ :=
  if d.exponent ≤ 0 ∧ -6 < d.exponent + (natDigits d.coefficient).length then
    d.exponent + (natDigits d.coefficient).length
  else 1

theorem pointPlace_le (d : Decimal) : d.pointPlace ≤ (natDigits d.coefficient).length := by
  have hpos : 1 ≤ (natDigits d.coefficient).length :=
    List.length_pos_iff.mpr (natDigits_ne_nil d.coefficient)
  unfold pointPlace
  split <;> omega

theorem chars_eq (d : Decimal) : d.chars = signChars d.negative ++
    (withPoint (natDigits d.coefficient) d.pointPlace ++
      exponentPart (d.exponent + (natDigits d.coefficient).length - d.pointPlace)) := by
  unfold chars exponentPart
  simp only [List.append_assoc, sub_eq_zero]
  rfl

theorem withPoint_head {ds : List Char} (hd : IsDigits ds) (hne : ds ≠ []) (place : ℤ) :
    ∃ c cs, withPoint ds place = c :: cs ∧ c.isDigit = true := by
  unfold withPoint
  split
  · exact ⟨'0', _, rfl, rfl⟩
  · cases ds with
    | nil => exact absurd rfl hne
    | cons d ds =>
      have hdig := hd d (List.mem_cons_self ..)
      split
      · exact ⟨d, _, rfl, hdig⟩
      · obtain ⟨k, hk⟩ : ∃ k, place.toNat = k + 1 := ⟨place.toNat - 1, by omega⟩
        rw [hk]
        exact ⟨d, _, rfl, hdig⟩

namespace Extended

theorem splitSign_signChars (negative : Bool) {c : Char} (h1 : c ≠ '-') (h2 : c ≠ '+')
    (cs : List Char) : splitSign (signChars negative ++ c :: cs) = (negative, c :: cs) := by
  cases negative with
  | true => rfl
  | false =>
    change splitSign (c :: cs) = (false, c :: cs)
    unfold splitSign
    split
    · rename_i heq
      injection heq with h _
      exact absurd h h1
    · rename_i heq
      injection heq with h _
      exact absurd h h2
    · rfl

/-- What begins with a digit is no word. -/
theorem readPlain_digit (negative : Bool) {c : Char} (hc : c.isDigit = true) (cs : List Char) :
    readPlain (signChars negative ++ c :: cs) = readUnsigned negative (c :: cs) := by
  have hne (d : Char) (h : d.isDigit = false) : c ≠ d := by
    rintro rfl
    rw [hc] at h
    cases h
  have hsmall : smallAscii c = c := by
    have := isDigit_iff.mp hc
    unfold smallAscii
    rw [if_neg]
    rintro ⟨h1, -⟩
    have h1' : 65 ≤ c.toNat := h1
    omega
  unfold readPlain
  simp only [splitSign_signChars negative (hne '-' rfl) (hne '+' rfl), List.map_cons, hsmall]
  rw [if_neg, if_neg, if_neg]
  · simp [hne 's' rfl]
  · simp [hne 'n' rfl]
  · simp [hne 'i' rfl]

/-- So does such a row with a sign in front. -/
theorem readPlain_withPoint (negative : Bool) {ds : List Char} (hd : IsDigits ds) (hne : ds ≠ [])
    {place : ℤ} (hplace : place ≤ ds.length) (e : ℤ) :
    readPlain (signChars negative ++ (withPoint ds place ++ exponentPart e)) =
      some (.finite ⟨negative, ofDigits (ds.map digitOf), e - (ds.length - place)⟩) := by
  obtain ⟨c, cs, heq, hc⟩ := withPoint_head hd hne place
  have hread := readUnsigned_withPoint negative hd hne hplace e
  rw [heq, List.cons_append] at hread ⊢
  rw [readPlain_digit negative hc, hread]

theorem readPlain_chars (d : Decimal) : readPlain d.chars = some (.finite d) := by
  rw [chars_eq, readPlain_withPoint d.negative (isDigits_natDigits d.coefficient)
    (natDigits_ne_nil d.coefficient) (pointPlace_le d), ofDigits_natDigits]
  congr 3
  ring

theorem readPayload_digits (n : ℕ) : readPayload (if n = 0 then [] else natDigits n) = some n := by
  split
  · rename_i h
    rw [h]
    rfl
  · have hsplit : Extended.splitDigits (natDigits n ++ []) = _ :=
      splitDigits_digits (isDigits_natDigits n) (by simp)
    rw [List.append_nil] at hsplit
    unfold readPayload
    rw [hsplit]
    simp only [ofDigits_natDigits]

theorem readPlain_extended (x : Extended) : readPlain x.chars = some x := by
  cases x with
  | finite d => exact readPlain_chars d
  | infinity n => cases n <;> rfl
  | nan n s payload =>
    have hpayload := readPayload_digits payload
    cases n <;> cases s <;> simp [chars, signChars, readPlain, splitSign, smallAscii, hpayload]

theorem chars_isWritten (x : Extended) : ∀ c ∈ x.chars, IsWritten c := by
  have hminus : IsWritten '-' := .inr (by decide)
  have hsign (n : Bool) : ∀ c ∈ signChars n, IsWritten c := by
    cases n <;> simp [signChars, hminus]
  cases x with
  | finite d =>
    intro c hc
    rw [chars, chars_eq] at hc
    rcases List.mem_append.mp hc with hc | hc
    · exact hsign _ c hc
    · rcases List.mem_append.mp hc with hc | hc
      · exact withPoint_isWritten (isDigits_natDigits _) _ c hc
      · exact exponentPart_isWritten _ c hc
  | infinity n =>
    have key : "Infinity".toList ⊆ ".+-ENaNsInfinity".toList := by decide
    intro c hc
    rcases List.mem_append.mp hc with hc | hc
    · exact hsign n c hc
    · exact .inr (key hc)
  | nan n s payload =>
    have key : "NaN".toList ⊆ ".+-ENaNsInfinity".toList := by decide
    intro c hc
    simp only [chars, List.mem_append] at hc
    rcases hc with ((hc | hc) | hc) | hc
    · exact hsign n c hc
    · cases s <;> simp at hc
      rw [hc]
      exact .inr (by decide)
    · exact .inr (key hc)
    · split at hc
      · simp at hc
      · exact .inl (isDigits_natDigits _ c hc)

/-- Characters of the alphabet of numbers are read as they stand. -/
theorem spelled_written {cs : List Char} (h : ∀ c ∈ cs, IsWritten c) :
    spelled? (String.ofList cs) = readPlain cs := by
  unfold spelled?
  rw [String.toList_ofList, trim_written h, plainAlphabet_written h]
  rfl

/-- The text of a value spells the value. -/
theorem spelled_text (x : Extended) : spelled? x.text = some x :=
  (spelled_written (chars_isWritten x)).trans (readPlain_extended x)

/-- The text of a value that can be written reads back as the value. -/
theorem ofText_text {x : Extended} (h : x.isWithinReach = true) : ofText? x.text = some x := by
  unfold ofText?
  rw [spelled_text, Option.filter_some, if_pos h]

end Extended
end Decimal
end LoanDesk
