import LoanDesk.Proofs.Decimal.Rounding

/-
# Arithmetic and amounts

What each operation rounds is the exact result, or a stand-in close to it: sums of
numbers whose leading digits are not too far apart and products and short powers are
exact before they are rounded, and a quotient is cut one digit behind the precision.
Sums and differences of numbers in the same unit are exact altogether as long as there
is room for them.

Key theorems: `Decimal.add_eq_fit`, `Decimal.exists_add_same_unit`, `Decimal.exists_add`,
`Decimal.mul_error`, `Decimal.exists_div`, `Decimal.pow_eq_fit`.
-/

namespace LoanDesk
namespace Decimal

variable {p : ℕ} {a b r : Decimal}

/-! ### Sums -/

theorem rat_exactSum (a b : Decimal) : (exactSum a b).rat = a.rat + b.rat := by
  unfold exactSum
  simp only
  rw [rat_of_natAbs]
  push_cast
  rw [add_mul, signedAt_mul (min_le_left _ _), signedAt_mul (min_le_right _ _)]

theorem exactSum_exponent (a b : Decimal) :
    (exactSum a b).exponent = min a.exponent b.exponent := rfl

theorem nudge_eq_self {high low : Decimal} (h : high.adjusted - p - 1 ≤ low.adjusted) :
    nudge p high low = low := by
  unfold nudge
  simp only
  rw [if_neg]
  unfold adjusted at *
  omega

/-- The sum of two numbers whose leading digits are about as far apart as the precision at most is
the exact one, rounded. -/
theorem add_eq_fit (ha : 0 < a.coefficient) (hb : 0 < b.coefficient)
    (hab : a.adjusted - p - 1 ≤ b.adjusted) (hba : b.adjusted - p - 1 ≤ a.adjusted) :
    add p a b = fit p (exactSum a b) := by
  unfold add
  simp only [isZero_eq_false.mpr ha, isZero_eq_false.mpr hb, Bool.and_false, Bool.false_eq_true,
    if_false]
  split
  · rw [nudge_eq_self hba]
  · rw [nudge_eq_self hab]

theorem besideZero_exponent (p : ℕ) (d : Decimal) (e : ℤ) :
    (besideZero p d e).exponent = max (min d.exponent e) (d.exponent - p - 1) := rfl

theorem rat_besideZero (p : ℕ) (d : Decimal) (e : ℤ) : (besideZero p d e).rat = d.rat := by
  have he : (besideZero p d e).exponent ≤ d.exponent := by
    rw [besideZero_exponent]
    omega
  have hc : (besideZero p d e).coefficient = d.coefficientAt (besideZero p d e).exponent := rfl
  have hn : (besideZero p d e).negative = d.negative := rfl
  have := rat_sub_rat hn
  rw [hc, coefficientAt_mul he, abs_rat, sub_self, abs_zero] at this
  exact sub_eq_zero.mp (abs_eq_zero.mp this)

/-- An amount below a power of ten in its unit has no more digits than the power. -/
theorem digits_le_of_abs_rat_lt {d : Decimal} (hp : 1 ≤ p) (h : |d.rat| < 10 ^ (d.exponent + p)) :
    d.digits ≤ p := by
  refine (digitCount_le_iff hp).mpr ?_
  rw [abs_rat, zpow_add₀ (by norm_num), mul_comm] at h
  have := lt_of_mul_lt_mul_left h (zpow_pos (by norm_num : (0 : ℚ) < 10) _).le
  rw [zpow_natCast] at this
  exact_mod_cast this

/-- Two amounts in the same unit add up exactly if there is room for the sum. -/
theorem exists_add_same_unit {e : ℤ} (hp : 1 ≤ p) (ha : a.exponent = e) (hb : b.exponent = e)
    (had : a.digits ≤ p) (hbd : b.digits ≤ p) (hlow : tiniest p ≤ e) (hhigh : e + p ≤ highest)
    (hsum : |a.rat + b.rat| < 10 ^ (e + p)) :
    ∃ r, add p a b = .ok r ∧ r.exponent = e ∧ r.rat = a.rat + b.rat := by
  have key {s : Decimal} (hs : s.exponent = e) (hr : s.rat = a.rat + b.rat) :
      ∃ r, fit p s = .ok r ∧ r.exponent = e ∧ r.rat = a.rat + b.rat := by
    have hd : s.digits ≤ p := digits_le_of_abs_rat_lt hp (by rw [hs, hr]; exact hsum)
    refine ⟨s, fit_eq_self hd (by omega) ?_, hs, hr⟩
    unfold adjusted
    omega
  rcases Nat.eq_zero_or_pos a.coefficient with hza | hza <;>
    rcases Nat.eq_zero_or_pos b.coefficient with hzb | hzb
  · have hra := rat_eq_zero_iff.mpr hza
    have hrb := rat_eq_zero_iff.mpr hzb
    unfold add
    rw [isZero_iff.mpr hza, isZero_iff.mpr hzb, Bool.and_self, if_pos rfl]
    refine key ?_ ?_
    · simp [ha, hb]
    · rw [hra, hrb, add_zero]
      exact rat_eq_zero_iff.mpr rfl
  · unfold add
    rw [isZero_iff.mpr hza, isZero_eq_false.mpr hzb, if_neg (by simp), if_pos rfl]
    refine key ?_ (by rw [rat_besideZero, rat_eq_zero_iff.mpr hza, zero_add])
    rw [besideZero_exponent]
    omega
  · unfold add
    rw [isZero_iff.mpr hzb, isZero_eq_false.mpr hza, if_neg (by simp), if_neg (by simp), if_pos rfl]
    refine key ?_ (by rw [rat_besideZero, rat_eq_zero_iff.mpr hzb, add_zero])
    rw [besideZero_exponent]
    omega
  · have hda := a.digits_pos
    have hdb := b.digits_pos
    rw [add_eq_fit hza hzb (by unfold adjusted; omega) (by unfold adjusted; omega)]
    exact key (by rw [exactSum_exponent]; omega) (rat_exactSum a b)

/-- The stand-in for a summand far below the other is not above both. -/
theorem abs_rat_nudge_le (ha : 0 < a.coefficient) :
    |(nudge p a b).rat| ≤ max |a.rat| |b.rat| := by
  unfold nudge
  simp only
  split
  · refine le_max_of_le_left ?_
    have hone : (1 : ℚ) ≤ a.coefficient := by exact_mod_cast ha
    have hunit : (0 : ℚ) < 10 ^ a.exponent := zpow_pos (by norm_num) _
    rw [abs_rat, abs_rat, Nat.cast_one, one_mul]
    calc (10 : ℚ) ^ (a.exponent + min (-1) ((a.digits : ℤ) - p - 2))
        ≤ 10 ^ a.exponent := zpow_le_zpow_right₀ (by norm_num) (by omega)
      _ ≤ a.coefficient * 10 ^ a.exponent := le_mul_of_one_le_left hunit.le hone
  · exact le_max_right _ _

/-- What a sum rounds is no more than twice the greater of the two. -/
theorem exists_add_eq_fit (p : ℕ) (a b : Decimal) :
    ∃ s, add p a b = fit p s ∧ |s.rat| ≤ 2 * max |a.rat| |b.rat| := by
  have ha := le_max_left |a.rat| |b.rat|
  have hb := le_max_right |a.rat| |b.rat|
  have ha0 := abs_nonneg a.rat
  have hb0 := abs_nonneg b.rat
  unfold add
  split
  · refine ⟨_, rfl, ?_⟩
    rw [rat_eq_zero_iff.mpr rfl, abs_zero]
    linarith
  · split
    · exact ⟨_, rfl, by rw [rat_besideZero]; linarith⟩
    · split
      · exact ⟨_, rfl, by rw [rat_besideZero]; linarith⟩
      · next hza hzb =>
        rw [Bool.not_eq_true, isZero_eq_false] at hza hzb
        split
        · have hlow := abs_rat_nudge_le (p := p) (b := a) hzb
          rw [max_comm] at hlow
          refine ⟨_, rfl, ?_⟩
          rw [rat_exactSum]
          linarith [abs_add_le (nudge p b a).rat b.rat]
        · have hlow := abs_rat_nudge_le (p := p) (b := b) hza
          refine ⟨_, rfl, ?_⟩
          rw [rat_exactSum]
          linarith [abs_add_le a.rat (nudge p a b).rat]

/-- Numbers within range have a sum, whatever their digits and exponents. -/
theorem exists_add {bound : ℚ} (hp : 1 ≤ p) (ha : |a.rat| ≤ bound) (hb : |b.rat| ≤ bound)
    (h : 2 * bound < 10 ^ highest) :
    ∃ r, add p a b = .ok r ∧ |r.rat| ≤ 3 * bound + 10 ^ tiniest p := by
  obtain ⟨s, hs, hle⟩ := exists_add_eq_fit p a b
  have hmax := max_le ha hb
  obtain ⟨r, hr⟩ := exists_fit_of_abs_lt (p := p) (d := s) hp (by linarith)
  refine ⟨r, hs.trans hr, ?_⟩
  have herr := fit_error hp hr
  have hunit : (10 : ℚ) ^ (1 - p : ℤ) ≤ 1 := zpow_le_one_of_nonpos₀ (by norm_num) (by omega)
  have htiny : (0 : ℚ) < 10 ^ tiniest p := zpow_pos (by norm_num) _
  have hlost := mul_le_mul_of_nonneg_left hunit (abs_nonneg s.rat)
  linarith [abs_sub_abs_le_abs_sub r.rat s.rat]

/-! ### Products and powers -/

theorem rat_exactProduct (a b : Decimal) : (exactProduct a b).rat = a.rat * b.rat := by
  unfold rat exactProduct signed
  rw [zpow_add₀ (by norm_num)]
  cases a.negative <;> cases b.negative <;> simp <;> ring

/-- A product moves by half a unit of its last digit at most. -/
theorem mul_error (hp : 1 ≤ p) (h : mul p a b = .ok r) :
    |r.rat - a.rat * b.rat| ≤ (|a.rat * b.rat| * 10 ^ (1 - p : ℤ) + 10 ^ tiniest p) / 2 := by
  rw [← rat_exactProduct]
  exact fit_error hp h

theorem exists_mul (hp : 1 ≤ p) (h : |a.rat * b.rat| < 10 ^ highest) :
    ∃ r, mul p a b = .ok r := by
  rw [← rat_exactProduct] at h
  exact exists_fit_of_abs_lt hp h

theorem rat_exactPower {d : Decimal} (h : d.negative = false) (n : ℕ) :
    (exactPower d n).rat = d.rat ^ n := by
  rw [rat_of_not_negative (by simp [exactPower, h]), rat_of_not_negative h, exactPower, mul_pow,
    ← zpow_natCast (_ ^ d.exponent), ← zpow_mul, Nat.pow_eq]
  push_cast
  rfl

/-- A power that can be written out is the exact one, rounded. -/
theorem pow_eq_fit {d : Decimal} {n : ℕ} (hz : 0 < d.coefficient) (h : d.digits * n ≤ powerRoom) :
    pow p d n = fit p (exactPower d n) := by
  unfold pow
  rw [isZero_eq_false.mpr hz, Bool.false_and, if_neg (by simp), if_pos h]

/-! ### Quotients -/

theorem dropZeros_value (tries c : ℕ) : ∀ e ceiling : ℤ,
    ((dropZeros tries c e ceiling).1 : ℚ) * 10 ^ (dropZeros tries c e ceiling).2 = c * 10 ^ e := by
  induction tries generalizing c with
  | zero => intro e ceiling; rfl
  | succ tries ih =>
    intro e ceiling
    rw [dropZeros]
    split
    · rename_i h
      have hc : (c : ℚ) = (c / 10 : ℕ) * 10 := by
        exact_mod_cast (Nat.div_mul_cancel (Nat.dvd_of_mod_eq_zero h.2)).symm
      rw [ih, hc, zpow_add_one₀ (by norm_num)]
      ring
    · rfl

/-- The quotient of two whole numbers, cut; one more where the last digit would look exact. -/
def cutQuotient (n m : ℕ) : ℕ :=
  if n % m ≠ 0 ∧ n / m % 5 = 0 then n / m + 1 else n / m

theorem cutQuotient_error {n m : ℕ} (hm : 0 < m) : |(cutQuotient n m : ℚ) - n / m| ≤ 1 := by
  have hm' : (0 : ℚ) < m := by exact_mod_cast hm
  have h1 : ((n / m : ℕ) : ℚ) ≤ n / m := Nat.cast_div_le
  have h2 : (n : ℚ) / m ≤ (n / m : ℕ) + 1 := by
    rw [div_le_iff₀ hm']
    have := Nat.lt_mul_div_succ n hm
    have : (n : ℚ) < m * (n / m + 1 : ℕ) := by exact_mod_cast this
    push_cast at this
    linarith
  unfold cutQuotient
  split <;> push_cast <;> rw [abs_le] <;> constructor <;> linarith

section quotient

variable (p a b)

/-- The places by which the dividend is moved. -/
def quotientShift : ℤ := (b.digits : ℤ) - a.digits + p + 1

/-- The coefficient of the dividend, moved to the left where there is need. -/
def shiftedDividend : ℕ := a.coefficient * 10 ^ (quotientShift p a b).toNat

/-- The coefficient of the divisor, moved to the left where there is need. -/
def shiftedDivisor : ℕ := b.coefficient * 10 ^ (-quotientShift p a b).toNat

variable {p a b}

theorem shifted_div (hb : 0 < b.coefficient) : (shiftedDividend p a b : ℚ) / shiftedDivisor p a b =
    (a.coefficient : ℚ) / b.coefficient * 10 ^ quotientShift p a b := by
  have hb' : (b.coefficient : ℚ) ≠ 0 := by exact_mod_cast hb.ne'
  unfold shiftedDividend shiftedDivisor
  push_cast
  rcases le_total 0 (quotientShift p a b) with h | h
  · rw [Int.toNat_of_nonpos (by omega : -quotientShift p a b ≤ 0), pow_zero, mul_one]
    rw [← zpow_natCast, Int.toNat_of_nonneg h, mul_div_right_comm]
  · rw [Int.toNat_of_nonpos h, pow_zero, mul_one, ← zpow_natCast,
      Int.toNat_of_nonneg (by omega : 0 ≤ -quotientShift p a b), zpow_neg]
    field_simp

/-- The cut quotient has more digits than the precision. -/
theorem pow_le_shifted_div (ha : 0 < a.coefficient) (hb : 0 < b.coefficient) :
    (10 : ℚ) ^ (p : ℤ) ≤ (shiftedDividend p a b : ℚ) / shiftedDivisor p a b := by
  have hda := a.digits_pos
  rw [shifted_div hb]
  have h1 : (10 : ℚ) ^ (a.digits - 1 : ℤ) ≤ a.coefficient := by
    rw [show (a.digits - 1 : ℤ) = (a.digits - 1 : ℕ) by omega, zpow_natCast]
    exact_mod_cast pow_le_of_pos ha
  have h2 : (b.coefficient : ℚ) ≤ 10 ^ (b.digits : ℤ) := by
    rw [zpow_natCast]
    exact_mod_cast (lt_pow_digitCount b.coefficient).le
  have hb' : (0 : ℚ) < b.coefficient := by exact_mod_cast hb
  have h3 : (10 : ℚ) ^ (a.digits - 1 - b.digits : ℤ) ≤ a.coefficient / b.coefficient := by
    rw [zpow_sub₀ (by norm_num)]
    exact div_le_div₀ (Nat.cast_nonneg _) h1 hb' h2
  calc (10 : ℚ) ^ (p : ℤ) = 10 ^ (a.digits - 1 - b.digits : ℤ) * 10 ^ quotientShift p a b := by
        rw [← zpow_add₀ (by norm_num)]
        congr 1
        unfold quotientShift
        ring
    _ ≤ a.coefficient / b.coefficient * 10 ^ quotientShift p a b :=
        mul_le_mul_of_nonneg_right h3 (zpow_pos (by norm_num) _).le

theorem quotient_negative : (quotient p a b).negative = (a.negative != b.negative) := by
  unfold quotient
  simp only
  split <;> rfl

theorem quotient_eq : quotient p a b =
    if shiftedDividend p a b % shiftedDivisor p a b = 0 then
      ⟨a.negative != b.negative,
        (dropZeros (digitCount (shiftedDividend p a b / shiftedDivisor p a b))
          (shiftedDividend p a b / shiftedDivisor p a b)
          (a.exponent - b.exponent - quotientShift p a b) (a.exponent - b.exponent)).1,
        (dropZeros (digitCount (shiftedDividend p a b / shiftedDivisor p a b))
          (shiftedDividend p a b / shiftedDivisor p a b)
          (a.exponent - b.exponent - quotientShift p a b) (a.exponent - b.exponent)).2⟩
    else
      ⟨a.negative != b.negative,
        if shiftedDividend p a b / shiftedDivisor p a b % 5 = 0 then
          shiftedDividend p a b / shiftedDivisor p a b + 1
        else shiftedDividend p a b / shiftedDivisor p a b,
        a.exponent - b.exponent - quotientShift p a b⟩ := rfl

theorem quotient_value : ((quotient p a b).coefficient : ℚ) * 10 ^ (quotient p a b).exponent =
    cutQuotient (shiftedDividend p a b) (shiftedDivisor p a b) *
      10 ^ (a.exponent - b.exponent - quotientShift p a b) := by
  rw [quotient_eq, cutQuotient]
  by_cases h : shiftedDividend p a b % shiftedDivisor p a b = 0
  · rw [if_pos h, if_neg (by simp [h]), dropZeros_value]
  · rw [if_neg h]
    simp only [ne_eq, h, not_false_eq_true, true_and]

/-- The exact quotient of the magnitudes, in the unit of the cut one. -/
theorem magnitude_div (hb : 0 < b.coefficient) :
    a.coefficient * (10 : ℚ) ^ a.exponent / (b.coefficient * 10 ^ b.exponent) =
      (shiftedDividend p a b : ℚ) / shiftedDivisor p a b *
        10 ^ (a.exponent - b.exponent - quotientShift p a b) := by
  rw [shifted_div hb, mul_assoc, ← zpow_add₀ (by norm_num),
    show quotientShift p a b + (a.exponent - b.exponent - quotientShift p a b)
      = a.exponent - b.exponent by ring, zpow_sub₀ (by norm_num)]
  exact mul_div_mul_comm _ _ _ _

/-- The cut quotient has the sign of the exact one. -/
theorem quotient_sign (hb : 0 < b.coefficient) : ∃ σ : ℚ, |σ| = 1 ∧
    (quotient p a b).rat = σ * (cutQuotient (shiftedDividend p a b) (shiftedDivisor p a b) *
      10 ^ (a.exponent - b.exponent - quotientShift p a b)) ∧
    a.rat / b.rat = σ * ((shiftedDividend p a b : ℚ) / shiftedDivisor p a b *
      10 ^ (a.exponent - b.exponent - quotientShift p a b)) := by
  have hq := quotient_negative (p := p) (a := a) (b := b)
  rw [← quotient_value, ← magnitude_div hb]
  cases hna : a.negative <;> cases hnb : b.negative <;> rw [hna, hnb] at hq
  · refine ⟨1, abs_one, ?_, ?_⟩
    · rw [rat_of_not_negative hq, one_mul]
    · rw [rat_of_not_negative hna, rat_of_not_negative hnb, one_mul]
  · refine ⟨-1, by norm_num, ?_, ?_⟩
    · rw [rat_of_negative hq, neg_one_mul]
    · rw [rat_of_not_negative hna, rat_of_negative hnb, div_neg, neg_one_mul]
  · refine ⟨-1, by norm_num, ?_, ?_⟩
    · rw [rat_of_negative hq, neg_one_mul]
    · rw [rat_of_negative hna, rat_of_not_negative hnb, neg_div, neg_one_mul]
  · refine ⟨1, abs_one, ?_, ?_⟩
    · rw [rat_of_not_negative hq, one_mul]
    · rw [rat_of_negative hna, rat_of_negative hnb, neg_div_neg_eq, one_mul]

theorem shiftedDivisor_pos (p : ℕ) (a : Decimal) (hb : 0 < b.coefficient) :
    0 < shiftedDivisor p a b := by
  unfold shiftedDivisor
  positivity

/-- The stand-in for a quotient is off by one part in `10 ^ p` at most. -/
theorem quotient_error (ha : 0 < a.coefficient) (hb : 0 < b.coefficient) :
    |(quotient p a b).rat - a.rat / b.rat| ≤ |a.rat / b.rat| * 10 ^ (-p : ℤ) := by
  have hx := pow_le_shifted_div (p := p) ha hb
  have hcut := cutQuotient_error (n := shiftedDividend p a b) (shiftedDivisor_pos p a hb)
  obtain ⟨σ, hσ, hq, hab⟩ := quotient_sign (p := p) (a := a) hb
  rw [hq, hab]
  generalize (shiftedDividend p a b : ℚ) / shiftedDivisor p a b = x at hx hcut ⊢
  set u : ℚ := 10 ^ (a.exponent - b.exponent - quotientShift p a b) with hu
  have hu0 : 0 < u := zpow_pos (by norm_num) _
  have hx0 : 0 ≤ x := (zpow_pos (by norm_num : (0 : ℚ) < 10) _).le.trans hx
  -- the sign is that of the exact quotient, so only the magnitudes matter
  rw [← mul_sub, abs_mul, abs_mul, hσ, one_mul, one_mul, ← sub_mul, abs_mul, abs_of_pos hu0,
    abs_of_nonneg (mul_nonneg hx0 hu0.le)]
  have hone : 1 ≤ x * 10 ^ (-p : ℤ) := by
    rw [zpow_neg, ← div_eq_mul_inv, one_le_div (zpow_pos (by norm_num) _)]
    exact hx
  calc _ ≤ 1 * u := mul_le_mul_of_nonneg_right hcut hu0.le
    _ ≤ x * 10 ^ (-p : ℤ) * u := mul_le_mul_of_nonneg_right hone hu0.le
    _ = _ := by ring

end quotient

theorem div_eq_fit (ha : 0 < a.coefficient) (hb : 0 < b.coefficient) :
    div p a b = fit p (quotient p a b) := by
  unfold div
  rw [isZero_eq_false.mpr ha, isZero_eq_false.mpr hb]
  simp

theorem div_negative (h : div p a b = .ok r) : r.negative = (a.negative != b.negative) := by
  unfold div at h
  split at h
  · cases h
  · split at h
    · exact fit_negative h
    · exact (fit_negative h).trans quotient_negative

theorem div_rat_of_isZero (ha : a.coefficient = 0) (h : div p a b = .ok r) : r.rat = 0 := by
  unfold div at h
  split at h
  · cases h
  · rw [isZero_iff.mpr ha, if_pos rfl, fit_of_isZero rfl] at h
    injection h with h
    rw [← h]
    exact rat_eq_zero_iff.mpr rfl

theorem div_rat_nonneg (ha : 0 ≤ a.rat) (hb : 0 < b.rat) (h : div p a b = .ok r) : 0 ≤ r.rat := by
  rcases ha.eq_or_lt with ha | ha
  · exact (div_rat_of_isZero (rat_eq_zero_iff.mp ha.symm) h).ge
  · have hr := div_negative h
    rw [negative_eq_false_of_pos ha, negative_eq_false_of_pos hb] at hr
    exact rat_nonneg hr

/-- A quotient within bounds is computed, and moves by less than a unit of its last digit. -/
theorem exists_div (hp : 1 ≤ p) (hb : b.rat ≠ 0) (h : |a.rat / b.rat| < 10 ^ (highest - 1)) :
    ∃ r, div p a b = .ok r ∧ r.digits ≤ p ∧
      |r.rat - a.rat / b.rat| ≤ |a.rat / b.rat| * 10 ^ (1 - p : ℤ) + 10 ^ tiniest p := by
  have hbz : 0 < b.coefficient := Nat.pos_of_ne_zero fun h0 => hb (rat_eq_zero_iff.mpr h0)
  have htiny : (0 : ℚ) < 10 ^ tiniest p := zpow_pos (by norm_num) _
  rcases Nat.eq_zero_or_pos a.coefficient with haz | haz
  · obtain ⟨r, hr⟩ : ∃ r, div p a b = .ok r := by
      unfold div
      rw [isZero_iff.mpr haz, isZero_eq_false.mpr hbz, if_neg (by simp), if_pos rfl]
      exact ⟨_, fit_of_isZero rfl⟩
    have hr0 := div_rat_of_isZero haz hr
    refine ⟨r, hr, ?_, ?_⟩
    · have : r.digits = 1 := by rw [digits, rat_eq_zero_iff.mp hr0]; rfl
      omega
    · rw [hr0, rat_eq_zero_iff.mpr haz]
      simpa using htiny.le
  · have hq := quotient_error (p := p) haz hbz
    set x := a.rat / b.rat
    have hstep : (10 : ℚ) ^ (1 - p : ℤ) = 10 * 10 ^ (-p : ℤ) := by
      rw [sub_eq_add_neg, zpow_add₀ (by norm_num), zpow_one]
    have hsmall : (10 : ℚ) ^ (-p : ℤ) ≤ 1 / 10 := by
      calc (10 : ℚ) ^ (-p : ℤ) ≤ 10 ^ (-1 : ℤ) := zpow_le_zpow_right₀ (by norm_num) (by omega)
        _ = 1 / 10 := by norm_num
    have hpos : (0 : ℚ) < 10 ^ (-p : ℤ) := zpow_pos (by norm_num) _
    have hx0 : 0 ≤ |x| := abs_nonneg x
    have hqx : |(quotient p a b).rat| ≤ |x| + |x| * 10 ^ (-p : ℤ) := by
      have := abs_sub_abs_le_abs_sub (quotient p a b).rat x
      linarith
    have hcz : 0 < (quotient p a b).coefficient := by
      refine Nat.pos_of_ne_zero fun h0 => ?_
      have hxpos : 0 < |x| := abs_pos.mpr (div_ne_zero (fun h => haz.ne' (rat_eq_zero_iff.mp h)) hb)
      rw [rat_eq_zero_iff.mpr h0, zero_sub, abs_neg] at hq
      nlinarith
    have hlt : |(quotient p a b).rat| < 10 ^ highest := by
      have : (10 : ℚ) ^ highest = 10 * 10 ^ (highest - 1) := by
        rw [← zpow_one_add₀ (by norm_num)]
        congr 1
      rw [this]
      nlinarith
    obtain ⟨r, hr⟩ := exists_fit (p := p) hp (adjusted_lt hcz hlt)
    refine ⟨r, by rw [div_eq_fit haz hbz, hr], fit_digits_le hp hr, ?_⟩
    have hfit := fit_error hp hr
    have htri := abs_sub_le r.rat (quotient p a b).rat x
    have h1 := mul_le_mul_of_nonneg_right hqx hpos.le
    have hxt := mul_nonneg hx0 hpos.le
    have h2 := mul_le_mul_of_nonneg_left hsmall hxt
    rw [hstep] at hfit ⊢
    linarith

end Decimal
end LoanDesk
