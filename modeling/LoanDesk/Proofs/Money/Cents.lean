import LoanDesk.Money
import LoanDesk.Proofs.Decimal.Nearest

/-
# Amounts kept to the cent

An amount is kept as the multiple of a cent that is nearest to it, of two that are equally
near as the one farther from zero, and with the sign that it has; there is room for those
below `10 ^ 26`, and none for others. What is kept is kept as it is from then on, the sign
comes through unchanged, and a larger amount is never kept as a smaller one.

Key definitions: `Money.IsNearestCents`.
Key theorems: `halfAway_farther`, `Money.IsNearestCents.eq`, `Money.cents_eq_ok_iff`,
`Money.ofValueToCents_rounds`.
-/

namespace LoanDesk

/-! ### The whole number next to an amount -/

section whole

variable {x : ℚ} {k : ℤ}

theorem halfAway_farther_of_nonneg (hx : 0 ≤ x) (h : |(k : ℚ) - x| = |(halfAway x : ℚ) - x|) :
    |k| ≤ |halfAway x| := by
  have hlow := Int.lt_floor_add_one (x + 1 / 2)
  have hup := Int.floor_le (x + 1 / 2)
  have hfloor : halfAway x = ⌊x + 1 / 2⌋ := by
    unfold halfAway
    rw [if_pos hx]
  rw [← hfloor] at hlow hup
  have hk := abs_le.mp (h.trans_le (abs_halfAway_sub_le x))
  have hk0 : ((-1 : ℤ) : ℚ) < k := by push_cast; linarith
  have hle : (k : ℚ) < (halfAway x + 1 : ℤ) := by push_cast; linarith
  have hk0' := Int.cast_lt.mp hk0
  have hle' := Int.cast_lt.mp hle
  rw [abs_of_nonneg (by omega), abs_of_nonneg (by omega)]
  omega

/-- A whole number that is as near is no farther from zero. -/
theorem halfAway_farther (h : |(k : ℚ) - x| = |(halfAway x : ℚ) - x|) : |k| ≤ |halfAway x| := by
  rcases le_total 0 x with hx | hx
  · exact halfAway_farther_of_nonneg hx h
  · have hneg := halfAway_farther_of_nonneg (x := -x) (k := -k) (by linarith) (by
      rw [halfAway_neg, ← abs_neg, ← abs_neg (((-halfAway x : ℤ) : ℚ) - -x)]
      convert h using 2 <;> (push_cast; ring))
    rwa [halfAway_neg, abs_neg, abs_neg] at hneg

end whole

namespace Money

open Decimal

/-! ### The nearest cents -/

/-- The amount `q` is a multiple of a cent, none is nearer to `x`, and none that is as near is
farther from zero. -/
structure IsNearestCents (x q : ℚ) : Prop where
  whole : ∃ k : ℤ, q = k / 100
  nearest : ∀ k : ℤ, |q - x| ≤ |(k : ℚ) / 100 - x|
  farther : ∀ k : ℤ, |(k : ℚ) / 100 - x| = |q - x| → |(k : ℚ) / 100| ≤ |q|

section nearest

variable {x q q' : ℚ}

/-- Distances in cents are those of whole numbers. -/
theorem abs_cents_sub (k : ℤ) (x : ℚ) : |(k : ℚ) / 100 - x| = |(k : ℚ) - x * 100| / 100 := by
  rw [show (k : ℚ) / 100 - x = (k - x * 100) / 100 by ring, abs_div,
    abs_of_pos (show (0 : ℚ) < 100 by norm_num)]

theorem toPlace_centPlace (x : ℚ) : toPlace centPlace x = (halfAway (x * 100) : ℚ) / 100 := by
  have hunit : (10 : ℚ) ^ centPlace = 1 / 100 := by norm_num [centPlace]
  rw [toPlace, hunit, div_div_eq_mul_div, div_one, mul_one_div]

/-- Rounding to the place of the cents gives the nearest cents. -/
theorem isNearestCents_toPlace (x : ℚ) : IsNearestCents x (toPlace centPlace x) := by
  rw [toPlace_centPlace]
  refine ⟨⟨_, rfl⟩, fun k => ?_, fun k hk => ?_⟩
  · rw [abs_cents_sub, abs_cents_sub]
    exact div_le_div_of_nonneg_right (whole_nearest (abs_halfAway_sub_le _) k) (by norm_num)
  · rw [abs_cents_sub, abs_cents_sub, div_left_inj' (by norm_num)] at hk
    have hle : (|k| : ℚ) ≤ |(halfAway (x * 100) : ℚ)| := by
      exact_mod_cast halfAway_farther hk
    rw [abs_div, abs_div]
    exact div_le_div_of_nonneg_right hle (abs_nonneg _)

/-- There is one amount only that is nearest: two of them are as near and as far from zero as each
other, and between an amount and its opposite zero is nearer. -/
theorem IsNearestCents.eq (h : IsNearestCents x q) (h' : IsNearestCents x q') : q' = q := by
  obtain ⟨k, hk⟩ := h.whole
  obtain ⟨k', hk'⟩ := h'.whole
  have hnear : |q' - x| = |q - x| :=
    le_antisymm (hk ▸ h'.nearest k) (hk' ▸ h.nearest k')
  have hfar : |q'| = |q| :=
    le_antisymm (hk' ▸ h.farther k' (hk' ▸ hnear)) (hk ▸ h'.farther k (hk ▸ hnear.symm))
  rcases abs_eq_abs.mp hfar with he | he
  · exact he
  · rw [he] at hnear
    rcases abs_eq_abs.mp hnear with hx | hx
    · linarith
    · have hx0 : x = 0 := by linarith
      have hzero := h.nearest 0
      rw [hx0, Int.cast_zero, zero_div, sub_zero, sub_zero, abs_zero] at hzero
      rw [he, abs_eq_zero.mp (le_antisymm hzero (abs_nonneg q)), neg_zero]

end nearest

/-! ### What is kept of an amount -/

section cents

variable {d r : Decimal}

theorem abs_rat_of_centPlace (h : r.exponent = centPlace) : |r.rat| = r.coefficient / 100 := by
  rw [abs_rat, h]
  norm_num [centPlace]
  ring

/-- An amount has room if its nearest cents take up no more digits than the precision. -/
theorem abs_toPlace_lt_of_cents (h : cents d = .ok r) : |toPlace centPlace d.rat| < 10 ^ 26 := by
  have hdigits : r.coefficient < 10 ^ 28 :=
    (digitCount_le_iff (by norm_num)).mp (roundedAt_digits_le (by decide) h)
  have hdigits' : (r.coefficient : ℚ) < 10 ^ 28 := by exact_mod_cast hdigits
  rw [← roundedAt_rat h, abs_rat_of_centPlace (roundedAt_spec h).1,
    div_lt_iff₀ (by norm_num)]
  linarith

theorem exists_cents_of_abs_lt (h : |toPlace centPlace d.rat| < 10 ^ 26) :
    ∃ r, cents d = .ok r := by
  unfold cents centsAt roundedAt
  rcases Nat.eq_zero_or_pos d.coefficient with hz | hpos
  · rw [if_pos (isZero_iff.mpr hz)]
    exact ⟨_, rfl⟩
  · have hround : |(d.atPlace centPlace).rat - d.rat| ≤ 10 ^ centPlace / 2 := atPlace_error
    rw [← atPlace_rat] at h
    have hplace : |(d.atPlace centPlace).rat| = (d.atPlace centPlace).coefficient / 100 :=
      abs_rat_of_centPlace atPlace_exponent
    have hcoefficient : (d.atPlace centPlace).coefficient < 10 ^ 28 := by
      rw [hplace, div_lt_iff₀ (by norm_num)] at h
      have : ((d.atPlace centPlace).coefficient : ℚ) < 10 ^ 28 := by linarith
      exact_mod_cast this
    have hleading : d.adjusted < 26 := by
      refine adjusted_lt hpos ?_
      have hwhole : ((d.atPlace centPlace).coefficient : ℚ) ≤ 10 ^ 28 - 1 := by
        have : (d.atPlace centPlace).coefficient + 1 ≤ 10 ^ 28 := hcoefficient
        have : (((d.atPlace centPlace).coefficient + 1 : ℕ) : ℚ) ≤ 10 ^ 28 := by exact_mod_cast this
        push_cast at this
        linarith
      have hunit : (10 : ℚ) ^ centPlace = 1 / 100 := by norm_num [centPlace]
      have habs := abs_sub_abs_le_abs_sub d.rat (d.atPlace centPlace).rat
      rw [abs_sub_comm] at habs
      rw [hunit] at hround
      rw [hplace] at habs
      calc |d.rat| ≤ (d.atPlace centPlace).coefficient / 100 + 1 / 100 / 2 := by linarith
        _ ≤ (10 ^ 28 - 1) / 100 + 1 / 100 / 2 := by linarith
        _ < (10 : ℚ) ^ (26 : ℤ) := by norm_num
    rw [isZero_eq_false.mpr hpos, if_neg (by simp), if_neg (by
      unfold precision centPlace
      omega)]
    simp only
    have hdigits : (d.atPlace centPlace).digits ≤ precision :=
      (digitCount_le_iff (by decide)).mpr hcoefficient
    rw [if_neg (not_lt.mpr hdigits)]
    exact ⟨_, rfl⟩

/-- The only way in which an amount cannot be kept is that there is no room for it. -/
theorem cents_eq_error {s : Signal} (h : cents d = .error s) : s = .invalidOperation := by
  unfold cents centsAt roundedAt at h
  split at h
  · cases h
  · split at h
    · exact (Except.error.inj h).symm
    · simp only at h
      split at h
      · exact (Except.error.inj h).symm
      · cases h

/-- What is kept of an amount: its nearest cents, with its sign. -/
theorem cents_eq_ok_iff : cents d = .ok r ↔ |toPlace centPlace d.rat| < 10 ^ 26 ∧
    r.rat = toPlace centPlace d.rat ∧ r.exponent = centPlace ∧ r.negative = d.negative := by
  constructor
  · intro h
    obtain ⟨hexponent, hnegative, -⟩ := roundedAt_spec h
    exact ⟨abs_toPlace_lt_of_cents h, roundedAt_rat h, hexponent, hnegative⟩
  · rintro ⟨hroom, hrat, hexponent, hnegative⟩
    obtain ⟨m, hm⟩ := exists_cents_of_abs_lt hroom
    obtain ⟨hexponent', hnegative', -⟩ := roundedAt_spec hm
    have hcoefficient : r.coefficient = m.coefficient := by
      have habs : |r.rat| = |m.rat| := by rw [hrat, roundedAt_rat hm]
      rw [abs_rat_of_centPlace hexponent, abs_rat_of_centPlace hexponent',
        div_left_inj' (by norm_num)] at habs
      exact_mod_cast habs
    have hsame : r = m := by
      obtain ⟨rn, rc, re⟩ := r
      obtain ⟨mn, mc, me⟩ := m
      simp only at hcoefficient hexponent hexponent' hnegative hnegative'
      rw [hcoefficient, hexponent, hexponent', hnegative, hnegative']
    rw [hm, hsame]

theorem cents_eq_error_iff :
    cents d = .error .invalidOperation ↔ 10 ^ 26 ≤ |toPlace centPlace d.rat| := by
  rw [← not_lt]
  constructor
  · intro h hroom
    obtain ⟨r, hr⟩ := exists_cents_of_abs_lt hroom
    rw [h] at hr
    cases hr
  · intro h
    cases hc : cents d with
    | ok r => exact absurd (abs_toPlace_lt_of_cents hc) h
    | error s => rw [cents_eq_error hc]

/-- What is kept is kept as it is. -/
theorem cents_idempotent (h : cents d = .ok r) : cents r = .ok r := by
  obtain ⟨hroom, hrat, hexponent, -⟩ := cents_eq_ok_iff.mp h
  have hsame : toPlace centPlace r.rat = r.rat := by
    rw [rat_eq_units, hexponent, toPlace_units]
  exact cents_eq_ok_iff.mpr ⟨by rwa [hsame, hrat], hsame.symm, hexponent, rfl⟩

theorem cents_negate (d : Decimal) : cents d.negate = (cents d).map negate := by
  have hplace : toPlace centPlace d.negate.rat = -toPlace centPlace d.rat := by
    rw [rat_negate, toPlace_neg]
  cases hc : cents d with
  | ok r =>
    obtain ⟨hroom, hrat, hexponent, hnegative⟩ := cents_eq_ok_iff.mp hc
    refine cents_eq_ok_iff.mpr ⟨by rwa [hplace, abs_neg], ?_, hexponent, ?_⟩
    · rw [hplace, rat_negate, hrat]
    · exact congrArg (!·) hnegative
  | error s =>
    obtain rfl := cents_eq_error hc
    refine cents_eq_error_iff.mpr ?_
    rw [hplace, abs_neg]
    exact cents_eq_error_iff.mp hc

theorem cents_mono {a b m n : Decimal} (h : a.rat ≤ b.rat) (ha : cents a = .ok m)
    (hb : cents b = .ok n) : m.rat ≤ n.rat := by
  rw [roundedAt_rat ha, roundedAt_rat hb]
  exact toPlace_mono h

end cents

/-! ### Values -/

theorem ofValueToCents_finite (d : Decimal) :
    ofValueToCents (.decimal (.finite d)) = Fault.ofArithmetic ((cents d).map .finite) := rfl

theorem ofValueToCents_eq_ok {d : Decimal} {x : Extended}
    (h : ofValueToCents (.decimal (.finite d)) = .ok x) : ∃ r, cents d = .ok r ∧ x = .finite r := by
  rw [ofValueToCents_finite] at h
  cases hc : cents d with
  | error s =>
    rw [hc] at h
    cases h
  | ok r =>
    rw [hc] at h
    exact ⟨r, rfl, (Except.ok.inj h).symm⟩

/-- Every amount has one nearest multiple of a cent, farther from zero where two are as near; if
that lies below `10 ^ 26`, the amount is kept as it, with its own sign and two places, and otherwise
it is an invalid operation. So what is kept is kept as it is, with the other sign if the amount has
the other sign, and in the order of the amounts. -/
theorem ofValueToCents_rounds (d : Decimal) :
    (∃ q, IsNearestCents d.rat q ∧ (∀ q', IsNearestCents d.rat q' → q' = q) ∧
      (|q| < 10 ^ 26 → ∃ r, ofValueToCents (.decimal (.finite d)) = .ok (.finite r) ∧
        r.rat = q ∧ r.exponent = -2 ∧ r.negative = d.negative) ∧
      (10 ^ 26 ≤ |q| →
        ofValueToCents (.decimal (.finite d)) = .error (.arithmetic .invalidOperation))) ∧
    (∀ x, ofValueToCents (.decimal (.finite d)) = .ok x → ofValueToCents (.decimal x) = .ok x) ∧
    ofValueToCents (.decimal (.finite d.negate)) =
      (ofValueToCents (.decimal (.finite d))).map Extended.negate ∧
    ∀ d' r r', d.rat ≤ d'.rat → ofValueToCents (.decimal (.finite d)) = .ok (.finite r) →
      ofValueToCents (.decimal (.finite d')) = .ok (.finite r') → r.rat ≤ r'.rat := by
  refine ⟨⟨toPlace centPlace d.rat, isNearestCents_toPlace d.rat,
    fun q' => (isNearestCents_toPlace d.rat).eq, fun hroom => ?_, fun hroom => ?_⟩,
    fun x hx => ?_, ?_, fun d' r r' h hd hd' => ?_⟩
  · obtain ⟨r, hr⟩ := exists_cents_of_abs_lt hroom
    obtain ⟨-, hrat, hexponent, hnegative⟩ := cents_eq_ok_iff.mp hr
    exact ⟨r, by rw [ofValueToCents_finite, hr]; rfl, hrat, hexponent, hnegative⟩
  · rw [ofValueToCents_finite, cents_eq_error_iff.mpr hroom]
    rfl
  · obtain ⟨r, hr, rfl⟩ := ofValueToCents_eq_ok hx
    rw [ofValueToCents_finite, cents_idempotent hr]
    rfl
  · rw [ofValueToCents_finite, ofValueToCents_finite, cents_negate]
    cases cents d <;> rfl
  · obtain ⟨m, hm, he⟩ := ofValueToCents_eq_ok hd
    obtain ⟨n, hn, he'⟩ := ofValueToCents_eq_ok hd'
    rw [Extended.finite.inj he, Extended.finite.inj he']
    exact cents_mono h hm hn

/-- The largest amount owed that has room, half a cent over its last but one: it is kept as the cent
farther from zero. -/
theorem ofValueToCents_rounds_last :
    ∃ q, IsNearestCents (rat ⟨true, 99999999999999999999999999985, -3⟩) q ∧ |q| < 10 ^ 26 ∧
      ∃ r, ofValueToCents (.decimal (.finite ⟨true, 99999999999999999999999999985, -3⟩)) =
          .ok (.finite r) ∧
        r.rat = q ∧ r.exponent = -2 ∧ r.negative = true ∧ r.coefficient = 10 ^ 28 - 1 := by
  have hcents : cents ⟨true, 99999999999999999999999999985, -3⟩ = .ok ⟨true, 10 ^ 28 - 1, -2⟩ := by
    decide +kernel
  obtain ⟨⟨q, hq, -, hok, -⟩, -⟩ :=
    ofValueToCents_rounds ⟨true, 99999999999999999999999999985, -3⟩
  have hroom : |q| < 10 ^ 26 :=
    hq.eq (isNearestCents_toPlace _) ▸ (cents_eq_ok_iff.mp hcents).1
  obtain ⟨r, hr, hrat, hexponent, hnegative⟩ := hok hroom
  refine ⟨q, hq, hroom, r, hr, hrat, hexponent, hnegative, ?_⟩
  obtain ⟨m, hm, he⟩ := ofValueToCents_eq_ok hr
  rw [hcents] at hm
  rw [Extended.finite.inj he, ← Except.ok.inj hm]

end Money
end LoanDesk
