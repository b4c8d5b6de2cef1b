import LoanDesk.Proofs.Decimal.Text
import LoanDesk.Proofs.Money.Cents

/-
# Shown amounts read back

An amount is shown with a symbol behind the sign, a comma before every third digit from
the point and two decimals. Reading passes over the symbol; and since the point is always
there, the commas can only separate thousands, however many there are. So the digits are
read as they were written, and with them the amount: the same decimal, but that nothing
is shown without a sign.

Key theorems: `Money.filter_grouped`, `Money.bare_shownCents`, `Money.ofText_shownCents`,
`Money.ofTextValue_shownValue`.
-/

namespace LoanDesk
namespace Money

open LoanDesk.Text Decimal

/-! ### Thousands -/

theorem filter_groupReversed {p : Char → Bool} (hp : p ',' = false) {ds : List Char}
    (h : ∀ c ∈ ds, p c = true) : (groupReversed ds).filter p = ds := by
  fun_induction groupReversed ds with
  | case1 a b c d rest ih =>
    simp only [List.forall_mem_cons] at h ih
    obtain ⟨ha, hb, hc, hrest⟩ := h
    simp only [List.filter_cons, ha, hb, hc, hp, if_true, Bool.false_eq_true, if_false, ih hrest]
  | case2 ds hds => exact List.filter_eq_self.mpr h

theorem mem_groupReversed {c : Char} {ds : List Char} (h : c ∈ groupReversed ds) :
    c = ',' ∨ c ∈ ds := by
  fun_induction groupReversed ds with
  | case1 a b d e rest ih =>
    simp only [List.mem_cons] at h ih ⊢
    tauto
  | case2 ds hds => exact .inr h

/-- The digits come back when the commas that `grouped` puts between the thousands are taken out. -/
theorem filter_grouped {p : Char → Bool} (hp : p ',' = false) {ds : List Char}
    (h : ∀ c ∈ ds, p c = true) : (grouped ds).filter p = ds := by
  unfold grouped
  rw [List.filter_reverse, filter_groupReversed hp (by simpa using h), List.reverse_reverse]

theorem mem_grouped {c : Char} {ds : List Char} (h : c ∈ grouped ds) : c = ',' ∨ c ∈ ds := by
  simpa using mem_groupReversed (List.mem_reverse.mp h)

/-! ### What reading makes of it -/

/-- Beside a point every comma separates thousands, so `settleCommas` drops it. -/
theorem settleCommas_of_point {cs : List Char} (h : '.' ∈ cs) :
    settleCommas cs = withoutCommas cs := by
  unfold settleCommas
  by_cases hcomma : ',' ∈ cs
  · rw [if_neg (not_not.mpr hcomma), if_pos h]
  · rw [if_pos hcomma]
    refine (List.filter_eq_self.mpr fun c hc => ?_).symm
    have hne : c ≠ ',' := fun e => hcomma (e ▸ hc)
    simpa using hne

theorem isAmountChar_of_isDigit {c : Char} (h : c.isDigit = true) : isAmountChar c = true := by
  have hdigit : Text.isDigit c = true := by
    have := isDigit_iff.mp h
    simp [Text.isDigit, digitValue?, digitZeros, this]
  simp [isAmountChar, hdigit]

variable {negative : Bool} {n : ℕ}

/-- The digits of an amount with the point between them, as a number is written. -/
theorem withPoint_cents : withPoint (natDigits (n / 100) ++ padded 2 (n % 100))
    (natDigits (n / 100)).length = natDigits (n / 100) ++ '.' :: padded 2 (n % 100) :=
  withPoint_append (natDigits_ne_nil _) (List.ne_nil_of_length_pos (by
    rw [length_padded (by decide) (by omega)]
    decide))

/-- The characters of a shown amount stand at no end for nothing. -/
theorem isBlank_of_mem_shownCents {c : Char} (h : c ∈ shownCents negative n) :
    isBlank c = false := by
  have hdigit {c : Char} (hc : c.isDigit = true) : isBlank c = false :=
    IsWritten.isBlank (.inl hc)
  simp only [shownCents, List.mem_append, List.mem_cons] at h
  rcases h with h | rfl | h | rfl | h
  · split at h
    · rw [List.mem_singleton.mp h]
      decide
    · cases h
  · decide
  · rcases mem_grouped h with rfl | h
    · decide
    · exact hdigit (isDigits_natDigits _ c h)
  · decide
  · exact hdigit (isDigits_padded 2 _ c h)

/-- Without its decoration a shown amount is a plain number: what `bare` leaves of `shownCents`. -/
theorem bare_shownCents : bare (shownCents negative n) = signChars (negative && n != 0) ++
    withPoint (natDigits (n / 100) ++ padded 2 (n % 100)) (natDigits (n / 100)).length := by
  have hdigits {ds : List Char} (hd : IsDigits ds) :
      ∀ c ∈ ds, (isAmountChar c && (c != ',')) = true := by
    intro c hc
    have hne : c ≠ ',' := by
      rintro rfl
      exact absurd (hd _ hc) (by decide)
    simp [isAmountChar_of_isDigit (hd c hc), hne]
  have hpoint : '.' ∈ (shownCents negative n).filter isAmountChar := by
    simp [shownCents, isAmountChar]
  have hsign : (signChars (negative && n != 0)).filter (fun c => isAmountChar c && (c != ',')) =
      signChars (negative && n != 0) := by
    cases negative && n != 0 <;> decide
  unfold bare
  rw [trim_eq_self fun c hc => isBlank_of_mem_shownCents hc, settleCommas_of_point hpoint,
    withoutCommas, List.filter_filter, withPoint_cents]
  simp only [Bool.and_comm (_ != ',')]
  change (signChars _ ++ _).filter _ = _
  rw [List.filter_append, hsign, List.filter_cons_of_neg (by decide), List.filter_append,
    filter_grouped (by decide) (hdigits (isDigits_natDigits _)),
    List.filter_cons_of_pos (by decide), List.filter_eq_self.mpr (hdigits (isDigits_padded 2 _))]

/-- The digits of an amount, the last two of them its cents. -/
theorem isDigits_cents : IsDigits (natDigits (n / 100) ++ padded 2 (n % 100)) :=
  (isDigits_natDigits _).append (isDigits_padded 2 _)

theorem isWritten_bare_shownCents : ∀ c ∈ bare (shownCents negative n), IsWritten c := by
  rw [bare_shownCents]
  intro c hc
  rcases List.mem_append.mp hc with hc | hc
  · have hminus : IsWritten '-' := .inr (by decide)
    unfold signChars at hc
    split at hc
    · rwa [List.mem_singleton.mp hc]
    · cases hc
  · exact withPoint_isWritten isDigits_cents _ c hc

/-- That number is the amount in cents; nothing has no sign. -/
theorem readPlain_bare_shownCents : Extended.readPlain (bare (shownCents negative n)) =
    some (.finite ⟨negative && n != 0, n, centPlace⟩) := by
  have hpadded : (padded 2 (n % 100)).length = 2 := length_padded (by decide) (by omega)
  have hvalue : ofDigits ((natDigits (n / 100) ++ padded 2 (n % 100)).map digitOf) = n := by
    rw [List.map_append, ofDigits_append, ofDigits_natDigits, ofDigits_padded, List.length_map,
      hpadded]
    omega
  have hplace : ((natDigits (n / 100)).length : ℤ) ≤
      (natDigits (n / 100) ++ padded 2 (n % 100)).length := by
    rw [List.length_append]
    omega
  have hread := Extended.readPlain_withPoint (negative && n != 0) isDigits_cents
    (List.append_ne_nil_of_left_ne_nil (natDigits_ne_nil _) _) hplace 0
  have hexponent : (0 : ℤ) - ((natDigits (n / 100) ++ padded 2 (n % 100)).length -
      (natDigits (n / 100)).length) = centPlace := by
    rw [List.length_append, hpadded]
    push_cast
    unfold centPlace
    omega
  rwa [hvalue, hexponent, exponentPart, if_pos rfl, List.append_nil, ← bare_shownCents] at hread

/-- A shown amount that has room in the digits of every amount reads back as its sign and its
cents. -/
theorem ofText_shownCents (h : digitCount n ≤ precision) :
    ofText (String.ofList (shownCents negative n)) =
      .ok ⟨negative && n != 0, n, centPlace⟩ := by
  have hreach : Extended.isWithinReach (.finite ⟨negative && n != 0, n, centPlace⟩) = true := by
    unfold precision at h
    simp only [Extended.isWithinReach, withinReach, adjusted, digits, centPlace, Bool.and_eq_true]
    exact ⟨decide_eq_true (by omega), decide_eq_true (by omega)⟩
  unfold ofText
  rw [if_neg (by simp [← String.toList_inj, shownCents]), String.toList_ofList, Extended.ofText?,
    Extended.spelled_written isWritten_bare_shownCents, readPlain_bare_shownCents,
    Option.filter_some, if_pos hreach]

/-- What `shownValue` shows of a value is its amount kept to the cent. -/
theorem shownValue_of_finite {v : Value} {r : Decimal} (h : ofValueToCents v = .ok (.finite r)) :
    shownValue v = .ok (String.ofList (shownCents r.negative r.coefficient)) := by
  unfold shownValue
  rw [h]
  rfl

/-- Every decimal that can be kept to the cent is shown, and what is shown reads back as the amount
to the cent. -/
theorem ofTextValue_shownValue (d : Decimal) (x : Extended)
    (h : ofValueToCents (.decimal (.finite d)) = .ok x) :
    ∃ r s y, x = .finite r ∧ shownValue (.decimal (.finite d)) = .ok s ∧
      ofTextValue (.text s) = .ok y ∧ y.rat = r.rat := by
  have hcents := h
  rw [ofValueToCents_finite] at hcents
  obtain ⟨r, hr, rfl⟩ : ∃ r, cents d = .ok r ∧ x = .finite r := by
    cases hr : cents d with
    | error e =>
      rw [hr] at hcents
      cases hcents
    | ok r =>
      rw [hr] at hcents
      exact ⟨r, rfl, (Except.ok.inj hcents).symm⟩
  have hread : ofText (String.ofList (shownCents r.negative r.coefficient)) =
      .ok ⟨r.negative && r.coefficient != 0, r.coefficient, centPlace⟩ :=
    ofText_shownCents (roundedAt_digits_le (by decide) hr)
  refine ⟨r, _, _, rfl, shownValue_of_finite h, hread, ?_⟩
  have hplace : r.exponent = centPlace := (roundedAt_spec hr).1
  rcases Nat.eq_zero_or_pos r.coefficient with hz | hpos
  · rw [(rat_eq_zero_iff (d := r)).mpr hz]
    exact rat_eq_zero_iff.mpr hz
  · obtain ⟨negative, n, e⟩ := r
    have hne : (n != 0) = true := by simpa using hpos.ne'
    rw [hne, Bool.and_true, ← hplace]

/-- A million and more owed, with half a cent to round, is shown with its sign before the dollar and
a comma at every third digit. -/
theorem ofTextValue_shownValue_owed :
    ofValueToCents (.decimal (.finite ⟨true, 1234567895, -3⟩)) =
        .ok (.finite ⟨true, 123456790, -2⟩) ∧
      ∃ r s y, Extended.finite ⟨true, 123456790, -2⟩ = .finite r ∧
        shownValue (.decimal (.finite ⟨true, 1234567895, -3⟩)) = .ok s ∧
        ofTextValue (.text s) = .ok y ∧ y.rat = r.rat :=
  have hcents : cents ⟨true, 1234567895, -3⟩ = .ok ⟨true, 123456790, -2⟩ := by decide +kernel
  have h : ofValueToCents (.decimal (.finite ⟨true, 1234567895, -3⟩)) =
      .ok (.finite ⟨true, 123456790, -2⟩) := by
    rw [ofValueToCents_finite, hcents]
    rfl
  ⟨h, ofTextValue_shownValue ⟨true, 1234567895, -3⟩ _ h⟩

end Money
end LoanDesk
