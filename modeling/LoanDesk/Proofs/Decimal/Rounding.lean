import LoanDesk.Proofs.Decimal.Amount

/-
# How far rounding moves a number

A number that fits within the precision is not moved at all. Otherwise it moves by at
most half a unit of the last digit that is kept: half of `10 ^ (1 - precision)` of the
number itself, or half of the tiniest unit where the leading digit is out of range. A
number rounded to a place moves by at most half a unit of that place.

Key theorems: `Decimal.fit_eq_self`, `Decimal.exists_fit`, `Decimal.fit_error`,
`Decimal.exists_roundedAt`, `Decimal.roundedAt_spec`.
-/

namespace LoanDesk

/-! ### Dropping digits -/

/-- The quotient or the next number, as the remainder lies below or above the half. -/
def IsNearest (n m c : ℕ) : Prop :=
  (c = n / m ∧ 2 * (n % m) ≤ m) ∨ (c = n / m + 1 ∧ m ≤ 2 * (n % m))

theorem isNearest_zero_of_digits_lt {n k : ℕ} (h : digitCount n < k) : IsNearest n (10 ^ k) 0 := by
  have h1 : 10 * n < 10 ^ k := by
    calc 10 * n < 10 * 10 ^ digitCount n := by
          have := lt_pow_digitCount n
          omega
      _ = 10 ^ (digitCount n + 1) := by rw [pow_succ, mul_comm]
      _ ≤ 10 ^ k := Nat.pow_le_pow_right (by norm_num) h
  left
  rw [Nat.div_eq_of_lt (by omega), Nat.mod_eq_of_lt (by omega)]
  omega

/-- A number without its last digits is nearest, if it is rounded up from the half on at most and
down up to the half at most. -/
theorem isNearest_dropped {n k : ℕ} {up : Prop} [Decidable up]
    (hup : up → 10 ^ k ≤ 2 * (n % 10 ^ k)) (hdown : ¬ up → 2 * (n % 10 ^ k) ≤ 10 ^ k) :
    IsNearest n (10 ^ k)
      (if digitCount n < k then 0 else if up then n / 10 ^ k + 1 else n / 10 ^ k) := by
  by_cases h : digitCount n < k
  · rw [if_pos h]
    exact isNearest_zero_of_digits_lt h
  · rw [if_neg h]
    by_cases hcase : up
    · rw [if_pos hcase]
      exact .inr ⟨rfl, hup hcase⟩
    · rw [if_neg hcase]
      exact .inl ⟨rfl, hdown hcase⟩

theorem dropHalfEven_isNearest (n k : ℕ) : IsNearest n (10 ^ k) (dropHalfEven n k) := by
  unfold dropHalfEven
  simp only [Nat.pow_eq]
  exact isNearest_dropped (by omega) (by omega)

theorem dropHalfUp_isNearest (n k : ℕ) : IsNearest n (10 ^ k) (dropHalfUp n k) := by
  unfold dropHalfUp
  simp only [Nat.pow_eq]
  exact isNearest_dropped id fun h => (not_le.mp h).le

theorem IsNearest.abs_sub_le {n m c : ℕ} (hm : 0 < m) (h : IsNearest n m c) :
    |(c : ℚ) * m - n| ≤ m / 2 := by
  have hn : (m : ℚ) * (n / m : ℕ) + (n % m : ℕ) = n := by exact_mod_cast Nat.div_add_mod n m
  have hr : (0 : ℚ) ≤ (n % m : ℕ) := Nat.cast_nonneg _
  rcases h with ⟨rfl, h⟩ | ⟨rfl, h⟩
  · have h2 : 2 * ((n % m : ℕ) : ℚ) ≤ m := by exact_mod_cast h
    rw [abs_le]
    constructor <;> nlinarith
  · have h2 : (m : ℚ) ≤ 2 * (n % m : ℕ) := by exact_mod_cast h
    have h3 : ((n % m : ℕ) : ℚ) ≤ m := by exact_mod_cast (Nat.mod_lt n hm).le
    push_cast
    rw [abs_le]
    constructor <;> nlinarith

theorem IsNearest.le_of_lt {n m c b : ℕ} (h : IsNearest n m c) (hb : n < b * m) :
    c ≤ b := by
  have : n / m < b := Nat.div_lt_of_lt_mul (by rwa [mul_comm] at hb)
  rcases h with ⟨rfl, -⟩ | ⟨rfl, -⟩ <;> omega

namespace Decimal

/-! ### Fitting a number to a precision -/

theorem rat_sub_rat {a b : Decimal} (h : a.negative = b.negative) : |a.rat - b.rat| =
    |(a.coefficient : ℚ) * 10 ^ a.exponent - b.coefficient * 10 ^ b.exponent| := by
  cases hb : b.negative with
  | false => rw [rat_of_not_negative (h.trans hb), rat_of_not_negative hb]
  | true =>
    rw [rat_of_negative (h.trans hb), rat_of_negative hb, ← abs_neg]
    congr 1
    ring

section shortened

variable {p : ℕ} {d : Decimal} {least : ℤ}

/-- One digit too many arises from nines alone, which become a power of ten. -/
theorem shortened_cases (hp : 1 ≤ p) (h : d.exponent + d.digits - p ≤ least) :
    ∃ c, c = dropHalfEven d.coefficient (least - d.exponent).toNat ∧
      ((digitCount c ≤ p ∧ shortened p d least = ⟨d.negative, c, least⟩) ∨
        (c = 10 * 10 ^ (p - 1) ∧ shortened p d least = ⟨d.negative, 10 ^ (p - 1), least + 1⟩)) := by
  have hnear := dropHalfEven_isNearest d.coefficient (least - d.exponent).toNat
  refine ⟨_, rfl, ?_⟩
  unfold shortened
  simp only
  generalize dropHalfEven d.coefficient (least - d.exponent).toNat = c at hnear ⊢
  by_cases hc : p < digitCount c
  · right
    have hle : c ≤ 10 ^ p := by
      refine hnear.le_of_lt ?_
      rw [← pow_add]
      exact (lt_pow_digitCount _).trans_le (Nat.pow_le_pow_right (by norm_num) (by
        unfold digits at h; omega))
    have hge := (lt_digitCount_iff hp).mp hc
    have hpow : 10 ^ p = 10 * 10 ^ (p - 1) := by
      rw [← pow_succ']
      congr 1
      omega
    have hceq : c = 10 * 10 ^ (p - 1) := by omega
    refine ⟨hceq, ?_⟩
    rw [if_pos hc, hceq, Nat.mul_div_cancel_left _ (by norm_num)]
  · left
    rw [if_neg hc]
    exact ⟨by omega, rfl⟩

theorem shortened_negative : (shortened p d least).negative = d.negative := by
  unfold shortened
  simp only
  split <;> rfl

theorem shortened_digits_le (hp : 1 ≤ p) (h : d.exponent + d.digits - p ≤ least) :
    (shortened p d least).digits ≤ p := by
  obtain ⟨c, -, ⟨hc, he⟩ | ⟨-, he⟩⟩ := shortened_cases hp h
  · rw [he]; exact hc
  · rw [he]
    refine (digitCount_le_iff hp).mpr (Nat.pow_lt_pow_right (by norm_num) (by omega))

theorem shortened_adjusted_le (hp : 1 ≤ p) (h : d.exponent + d.digits - p ≤ least) :
    (shortened p d least).adjusted ≤ least + p := by
  have hd := shortened_digits_le hp h
  have he : (shortened p d least).exponent ≤ least + 1 := by
    obtain ⟨c, -, ⟨-, he⟩ | ⟨-, he⟩⟩ := shortened_cases hp h <;> simp [he]
  unfold adjusted
  omega

/-- The value of what is kept: the coefficient without its last digits, in units of the place. -/
theorem shortened_value (hp : 1 ≤ p) (h : d.exponent + d.digits - p ≤ least) :
    ((shortened p d least).coefficient : ℚ) * 10 ^ (shortened p d least).exponent =
      dropHalfEven d.coefficient (least - d.exponent).toNat * 10 ^ least := by
  obtain ⟨c, hdrop, ⟨-, he⟩ | ⟨hc, he⟩⟩ := shortened_cases hp h
  · rw [he, ← hdrop]
  · rw [he, ← hdrop, hc, zpow_add_one₀ (by norm_num)]
    push_cast
    ring

theorem shortened_error (hp : 1 ≤ p) (h : d.exponent + d.digits - p ≤ least)
    (hle : d.exponent ≤ least) : |(shortened p d least).rat - d.rat| ≤ 10 ^ least / 2 := by
  have hnear := dropHalfEven_isNearest d.coefficient (least - d.exponent).toNat
  have hpos : (0 : ℚ) < 10 ^ d.exponent := zpow_pos (by norm_num) _
  rw [rat_sub_rat shortened_negative, shortened_value hp h, ← pow_toNat hle, ← mul_assoc, ← sub_mul,
    abs_mul, abs_of_pos hpos, mul_div_right_comm]
  refine mul_le_mul_of_nonneg_right ?_ hpos.le
  simpa using hnear.abs_sub_le (by positivity)

end shortened

section fit

variable {p : ℕ} {d r : Decimal}

/-- The place of the last digit that a precision keeps. -/
def lastPlace (p : ℕ) (d : Decimal) : ℤ := max (d.exponent + d.digits - p) (tiniest p)

/-- What `fit` does with a number other than zero. -/
theorem fit_cases (hz : 0 < d.coefficient) (h : fit p d = .ok r) :
    r = d ∨ (d.exponent < lastPlace p d ∧ r = shortened p d (lastPlace p d)) := by
  unfold fit at h
  rw [isZero_eq_false.mpr hz] at h
  simp only [Bool.false_eq_true, if_false] at h
  split at h
  · cases h
  · split at h
    · rename_i hlt
      split at h
      · cases h
      · exact .inr ⟨hlt, by injection h with h; exact h.symm⟩
    · exact .inl (by injection h with h; exact h.symm)

theorem fit_of_isZero (hz : d.coefficient = 0) :
    fit p d = .ok ⟨d.negative, 0, min (max d.exponent (tiniest p)) highest⟩ := by
  unfold fit
  rw [if_pos (isZero_iff.mpr hz), hz]

/-- A number within the precision and the range is kept as it is. -/
theorem fit_eq_self (hd : d.digits ≤ p) (hlow : tiniest p ≤ d.exponent)
    (hhigh : d.adjusted ≤ highest) : fit p d = .ok d := by
  rcases Nat.eq_zero_or_pos d.coefficient with hz | hz
  · have hd1 := d.digits_pos
    have : min (max d.exponent (tiniest p)) highest = d.exponent := by
      unfold adjusted at hhigh
      omega
    rw [fit_of_isZero hz, this, ← hz]
  · unfold fit
    rw [isZero_eq_false.mpr hz, if_neg (by simp), if_neg (by omega)]
    simp only
    rw [if_neg (by omega)]

/-- A number whose leading digit is in range can be rounded. -/
theorem exists_fit (hp : 1 ≤ p) (h : d.adjusted < highest) : ∃ r, fit p d = .ok r := by
  rcases Nat.eq_zero_or_pos d.coefficient with hz | hz
  · exact ⟨_, fit_of_isZero hz⟩
  · unfold fit
    rw [isZero_eq_false.mpr hz, if_neg (by simp), if_neg (by omega)]
    simp only
    split
    · have hr := shortened_adjusted_le (d := d) hp (le_max_left _ (tiniest p))
      rw [if_neg ?_]
      · exact ⟨_, rfl⟩
      · unfold adjusted at h
        unfold tiniest lowest highest at *
        omega
    · exact ⟨_, rfl⟩

/-- A number below every leading digit out of range can be rounded. -/
theorem exists_fit_of_abs_lt (hp : 1 ≤ p) (h : |d.rat| < 10 ^ highest) : ∃ r, fit p d = .ok r := by
  rcases Nat.eq_zero_or_pos d.coefficient with hz | hz
  · exact ⟨_, fit_of_isZero hz⟩
  · exact exists_fit hp (adjusted_lt hz h)

theorem fit_negative (h : fit p d = .ok r) : r.negative = d.negative := by
  rcases Nat.eq_zero_or_pos d.coefficient with hz | hz
  · rw [fit_of_isZero hz] at h
    injection h with h
    rw [← h]
  · rcases fit_cases hz h with rfl | ⟨-, rfl⟩
    · rfl
    · exact shortened_negative

theorem fit_digits_le (hp : 1 ≤ p) (h : fit p d = .ok r) : r.digits ≤ p := by
  rcases Nat.eq_zero_or_pos d.coefficient with hz | hz
  · rw [fit_of_isZero hz] at h
    injection h with h
    rw [← h]
    exact (digitCount_le_iff hp).mpr (by positivity)
  · rcases fit_cases hz h with rfl | ⟨-, rfl⟩
    · by_contra hlt
      unfold fit at h
      rw [isZero_eq_false.mpr hz, if_neg (by simp)] at h
      split at h
      · cases h
      · simp only at h
        split at h
        · split at h
          · cases h
          · injection h with h
            exact hlt (h ▸ shortened_digits_le hp (le_max_left _ _))
        · omega
    · exact shortened_digits_le hp (le_max_left _ _)

theorem pow_lastPlace_le (hz : 0 < d.coefficient) :
    (10 : ℚ) ^ lastPlace p d ≤ |d.rat| * 10 ^ (1 - p : ℤ) + 10 ^ tiniest p := by
  have h1 : (10 : ℚ) ^ (d.exponent + d.digits - p) ≤ |d.rat| * 10 ^ (1 - p : ℤ) := by
    rw [show d.exponent + d.digits - p = d.adjusted + (1 - p : ℤ) by unfold adjusted; ring,
      zpow_add₀ (by norm_num)]
    exact mul_le_mul_of_nonneg_right (pow_le_abs_rat hz) (zpow_pos (by norm_num) _).le
  have h2 : (0 : ℚ) < 10 ^ tiniest p := zpow_pos (by norm_num) _
  have h3 : (0 : ℚ) < 10 ^ (d.exponent + d.digits - p) := zpow_pos (by norm_num) _
  unfold lastPlace
  rcases max_cases (d.exponent + d.digits - p) (tiniest p) with ⟨h, -⟩ | ⟨h, -⟩ <;> rw [h] <;>
    linarith

/-- Rounding moves a number by at most half a unit of its last digit. -/
theorem fit_error (hp : 1 ≤ p) (h : fit p d = .ok r) :
    |r.rat - d.rat| ≤ (|d.rat| * 10 ^ (1 - p : ℤ) + 10 ^ tiniest p) / 2 := by
  have hunits : (0 : ℚ) ≤ (|d.rat| * 10 ^ (1 - p : ℤ) + 10 ^ tiniest p) / 2 := by positivity
  rcases Nat.eq_zero_or_pos d.coefficient with hz | hz
  · have hr : r.rat = 0 := by
      rw [fit_of_isZero hz] at h
      injection h with h
      rw [← h]
      exact rat_eq_zero_iff.mpr rfl
    rw [hr, rat_eq_zero_iff.mpr hz] at *
    simpa using hunits
  · rcases fit_cases hz h with rfl | ⟨hlt, rfl⟩
    · simpa using hunits
    · have h1 : |(shortened p d (lastPlace p d)).rat - d.rat| ≤ 10 ^ lastPlace p d / 2 :=
        shortened_error hp (le_max_left _ _) hlt.le
      have h2 := pow_lastPlace_le (p := p) hz
      linarith

end fit

/-! ### Rounding at a place -/

section roundedAt

variable {p : ℕ} {place : ℤ} {d r : Decimal}

theorem atPlace_negative : (d.atPlace place).negative = d.negative := by
  unfold atPlace
  split <;> rfl

theorem atPlace_exponent : (d.atPlace place).exponent = place := by
  unfold atPlace
  split <;> rfl

theorem atPlace_error : |(d.atPlace place).rat - d.rat| ≤ 10 ^ place / 2 := by
  have hunit : (0 : ℚ) < 10 ^ place := zpow_pos (by norm_num) _
  rw [rat_sub_rat atPlace_negative, atPlace_exponent, ← abs_rat]
  by_cases h : place ≤ d.exponent
  · have : (d.atPlace place).coefficient = d.coefficientAt place := by
      unfold atPlace
      rw [if_pos h]
    rw [this, coefficientAt_mul h, sub_self, abs_zero]
    positivity
  · have hc : (d.atPlace place).coefficient =
        dropHalfUp d.coefficient (place - d.exponent).toNat := by
      unfold atPlace
      rw [if_neg h]
    have hpos : (0 : ℚ) < 10 ^ d.exponent := zpow_pos (by norm_num) _
    rw [hc, abs_rat, ← pow_toNat (not_le.mp h).le, ← mul_assoc, ← sub_mul, abs_mul,
      abs_of_pos hpos, mul_div_right_comm]
    refine mul_le_mul_of_nonneg_right ?_ hpos.le
    simpa using (dropHalfUp_isNearest d.coefficient (place - d.exponent).toNat).abs_sub_le
      (by positivity)

theorem roundedAt_eq (h : d.roundedAt p place = .ok r) : r = d.atPlace place ∨
    (d.coefficient = 0 ∧ r = ⟨d.negative, 0, place⟩) := by
  unfold roundedAt at h
  split at h
  · rename_i hz
    exact .inr ⟨isZero_iff.mp hz, by injection h with h; exact h.symm⟩
  · split at h
    · cases h
    · simp only at h
      split at h
      · cases h
      · exact .inl (by injection h with h; exact h.symm)

/-- A number rounded at a place is a whole number of its units, has its sign and has moved by half
a unit at most. -/
theorem roundedAt_spec (h : d.roundedAt p place = .ok r) :
    r.exponent = place ∧ r.negative = d.negative ∧ |r.rat - d.rat| ≤ 10 ^ place / 2 := by
  rcases roundedAt_eq h with rfl | ⟨hz, rfl⟩
  · exact ⟨atPlace_exponent, atPlace_negative, atPlace_error⟩
  · refine ⟨rfl, rfl, ?_⟩
    rw [rat_eq_zero_iff.mpr hz, rat_eq_zero_iff.mpr rfl, sub_self, abs_zero]
    positivity

theorem roundedAt_digits_le (hp : 1 ≤ p) (h : d.roundedAt p place = .ok r) : r.digits ≤ p := by
  unfold roundedAt at h
  split at h
  · obtain rfl := Except.ok.inj h
    exact (digitCount_le_iff hp).mpr (by positivity)
  · split at h
    · cases h
    · simp only at h
      split at h
      · cases h
      · next hd =>
        obtain rfl := Except.ok.inj h
        exact not_lt.mp hd

/-- There is room for a number with one digit less than the precision before the place. -/
theorem exists_roundedAt (hp : 1 ≤ p) (h : |d.rat| < 10 ^ (place + p - 1)) :
    ∃ r, d.roundedAt p place = .ok r := by
  unfold roundedAt
  rcases Nat.eq_zero_or_pos d.coefficient with hz | hz
  · rw [if_pos (isZero_iff.mpr hz)]
    exact ⟨_, rfl⟩
  · have hadj := adjusted_lt hz h
    rw [isZero_eq_false.mpr hz, if_neg (by simp), if_neg (by omega)]
    simp only
    rw [if_neg ?_]
    · exact ⟨_, rfl⟩
    rw [not_lt]
    refine (digitCount_le_iff hp).mpr ?_
    have hunit : (0 : ℚ) < 10 ^ place := zpow_pos (by norm_num) _
    have hlt : |(d.atPlace place).rat| < 10 ^ (p : ℤ) * 10 ^ place := by
      have h1 := abs_sub_abs_le_abs_sub (d.atPlace place).rat d.rat
      have h2 : |(d.atPlace place).rat - d.rat| ≤ 10 ^ place / 2 := atPlace_error
      have h3 : (10 : ℚ) ^ (place + p - 1) = 10 ^ (p - 1 : ℤ) * 10 ^ place := by
        rw [← zpow_add₀ (by norm_num)]
        congr 1
        ring
      have h4 : (10 : ℚ) ^ (p : ℤ) = 10 * 10 ^ (p - 1 : ℤ) := by
        rw [← zpow_one_add₀ (by norm_num)]
        congr 1
        ring
      have h5 : (1 : ℚ) ≤ 10 ^ (p - 1 : ℤ) := one_le_zpow₀ (by norm_num) (by omega)
      rw [h4]
      nlinarith
    rw [abs_rat, atPlace_exponent] at hlt
    have := lt_of_mul_lt_mul_right hlt hunit.le
    rw [zpow_natCast] at this
    exact_mod_cast this

end roundedAt

end Decimal
end LoanDesk
