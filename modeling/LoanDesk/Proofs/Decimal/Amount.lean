import Mathlib.Data.Nat.Log
import Mathlib.Data.Rat.Cast.Order
import Mathlib.Tactic
import LoanDesk.Decimal.Arith
import LoanDesk.Decimal.Order

/-
# The amount of a decimal number

A decimal number stands for a rational number, its amount. The digits of the
coefficient place the amount between two powers of ten, and the order of decimals is
that of their amounts, whatever their coefficients and exponents.

Key definitions: `Decimal.rat`.
Key theorems: `digitCount_eq_log`, `Decimal.abs_rat_lt_pow`, `Decimal.pow_le_abs_rat`,
`Decimal.order_eq_compare`.
-/

namespace LoanDesk

/-! ### Digits -/

theorem placesFrom_eq (n tries : ℕ) : ∀ k, 1 ≤ k → k ≤ Nat.log 10 n + 1 →
    Nat.log 10 n + 1 ≤ k + tries → placesFrom n tries k = Nat.log 10 n + 1 := by
  induction tries with
  | zero =>
    intro k _ hk ht
    rw [placesFrom]
    omega
  | succ tries ih =>
    intro k h1 hk ht
    rw [placesFrom, Nat.pow_eq]
    by_cases h : n < 10 ^ k
    · rw [if_pos h]
      rcases Nat.eq_zero_or_pos n with rfl | hn
      · rw [Nat.log_zero_right] at hk ⊢
        omega
      · have := Nat.log_lt_of_lt_pow (by omega : n ≠ 0) h
        omega
    · rw [if_neg h]
      refine ih (k + 1) (by omega) ?_ (by omega)
      have : k ≤ Nat.log 10 n := Nat.le_log_of_pow_le (by norm_num) (by omega)
      omega

/-- Fifty thousand binary digits hold 15051 decimal ones. -/
theorem ten_pow_le_two_pow : (10 : ℕ) ^ 15051 ≤ 2 ^ 50000 := by
  have h59 : (10 : ℕ) ^ 59 ≤ 2 ^ 196 := by norm_num
  have h6 : (10 : ℕ) ^ 6 ≤ 2 ^ 20 := by norm_num
  calc (10 : ℕ) ^ 15051 = (10 ^ 59) ^ 255 * 10 ^ 6 := by rw [← pow_mul, ← pow_add]
    _ ≤ (2 ^ 196) ^ 255 * 2 ^ 20 := Nat.mul_le_mul (Nat.pow_le_pow_left h59 255) h6
    _ = 2 ^ 50000 := by rw [← pow_mul, ← pow_add]

/-- The decimal logarithm from below: `b` binary digits hold `a` decimal ones. -/
theorem log2_mul_div_le_log {a b : ℕ} (hb : b ≠ 0) (h : 10 ^ a ≤ 2 ^ b) (n : ℕ) :
    n.log2 * a / b ≤ Nat.log 10 n := by
  rcases Nat.eq_zero_or_pos n with rfl | hn
  · simp
  refine Nat.le_log_of_pow_le (by norm_num) ?_
  have h2 : 2 ^ n.log2 ≤ n := Nat.log2_self_le (by omega)
  generalize n.log2 = k at h2 ⊢
  have hpow : (10 ^ (k * a / b)) ^ b ≤ (2 ^ k) ^ b := by
    calc (10 ^ (k * a / b)) ^ b = 10 ^ (k * a / b * b) := by rw [← pow_mul]
      _ ≤ 10 ^ (k * a) := Nat.pow_le_pow_right (by norm_num) (Nat.div_mul_le_self _ _)
      _ = (10 ^ a) ^ k := by rw [← pow_mul, mul_comm]
      _ ≤ (2 ^ b) ^ k := Nat.pow_le_pow_left h k
      _ = (2 ^ k) ^ b := by rw [← pow_mul, ← pow_mul, mul_comm]
  exact (Nat.pow_le_pow_iff_left hb).mp hpow |>.trans h2

theorem log_le_log2 (n : ℕ) : Nat.log 10 n ≤ n.log2 := by
  rw [Nat.log2_eq_log_two]
  exact Nat.log_anti_left (by norm_num) (by norm_num)

/-- The digits are those of the decimal logarithm. -/
theorem digitCount_eq_log (n : ℕ) : digitCount n = Nat.log 10 n + 1 := by
  have h1 := log2_mul_div_le_log (by norm_num) ten_pow_le_two_pow n
  have h2 := log_le_log2 n
  exact placesFrom_eq n _ _ (by omega) (by omega) (by omega)

theorem digitCount_pos (n : ℕ) : 1 ≤ digitCount n := by
  rw [digitCount_eq_log]
  omega

theorem lt_pow_digitCount (n : ℕ) : n < 10 ^ digitCount n := by
  rw [digitCount_eq_log]
  exact Nat.lt_pow_succ_log_self (by norm_num) n

theorem pow_le_of_pos {n : ℕ} (h : 0 < n) : 10 ^ (digitCount n - 1) ≤ n := by
  rw [digitCount_eq_log, Nat.add_sub_cancel]
  exact Nat.pow_log_le_self 10 (by omega)

theorem digitCount_le_iff {n k : ℕ} (hk : 1 ≤ k) : digitCount n ≤ k ↔ n < 10 ^ k := by
  constructor
  · intro h
    exact (lt_pow_digitCount n).trans_le (Nat.pow_le_pow_right (by norm_num) h)
  · intro h
    rw [digitCount_eq_log]
    rcases Nat.eq_zero_or_pos n with rfl | hn
    · simpa using hk
    · exact Nat.log_lt_of_lt_pow (by omega) h

theorem lt_digitCount_iff {n k : ℕ} (hk : 1 ≤ k) : k < digitCount n ↔ 10 ^ k ≤ n := by
  rw [← not_le, digitCount_le_iff hk, not_lt]

theorem digitCount_one : digitCount 1 = 1 := by
  rw [digitCount_eq_log, Nat.log_one_right]

namespace Decimal

/-- The number that a decimal stands for. -/
def rat (d : Decimal) : ℚ := d.signed * (10 : ℚ) ^ d.exponent

/-! ### Signs and zeros -/

theorem isZero_iff {d : Decimal} : d.isZero = true ↔ d.coefficient = 0 := by
  simp [isZero]

theorem isZero_eq_false {d : Decimal} : d.isZero = false ↔ 0 < d.coefficient := by
  simp [isZero, Nat.pos_iff_ne_zero]

theorem abs_signed (d : Decimal) : |(d.signed : ℚ)| = d.coefficient := by
  unfold signed
  split <;> simp

theorem abs_rat (d : Decimal) : |d.rat| = d.coefficient * (10 : ℚ) ^ d.exponent := by
  rw [rat, abs_mul, abs_signed, abs_of_pos (zpow_pos (by norm_num) _)]

theorem rat_eq_zero_iff {d : Decimal} : d.rat = 0 ↔ d.coefficient = 0 := by
  rw [← abs_eq_zero, abs_rat]
  simp [(zpow_pos (by norm_num : (0 : ℚ) < 10) d.exponent).ne']

theorem isZero_iff_rat {d : Decimal} : d.isZero = true ↔ d.rat = 0 := by
  rw [isZero_iff, rat_eq_zero_iff]

theorem rat_of_not_negative {d : Decimal} (h : d.negative = false) :
    d.rat = d.coefficient * (10 : ℚ) ^ d.exponent := by
  simp [rat, signed, h]

theorem rat_of_negative {d : Decimal} (h : d.negative = true) :
    d.rat = -(d.coefficient * (10 : ℚ) ^ d.exponent) := by
  simp [rat, signed, h]

theorem rat_nonneg {d : Decimal} (h : d.negative = false) : 0 ≤ d.rat := by
  rw [rat_of_not_negative h]
  positivity

theorem negative_eq_false_of_pos {d : Decimal} (h : 0 < d.rat) : d.negative = false := by
  by_contra hn
  rw [Bool.not_eq_false] at hn
  rw [rat_of_negative hn] at h
  have : (0 : ℚ) ≤ d.coefficient * (10 : ℚ) ^ d.exponent := by positivity
  linarith

theorem rat_pos_iff {d : Decimal} : 0 < d.rat ↔ d.negative = false ∧ 0 < d.coefficient := by
  constructor
  · intro h
    refine ⟨negative_eq_false_of_pos h, Nat.pos_of_ne_zero fun h0 => ?_⟩
    rw [rat_eq_zero_iff.mpr h0] at h
    exact lt_irrefl _ h
  · rintro ⟨hn, hc⟩
    rw [rat_of_not_negative hn]
    have : (0 : ℚ) < d.coefficient := by exact_mod_cast hc
    positivity

theorem rat_negate (d : Decimal) : d.negate.rat = -d.rat := by
  unfold rat negate signed
  cases d.negative <;> simp

theorem rat_ofNat (n : ℕ) : (ofNat n).rat = n := by
  simp [rat, ofNat, signed]

theorem rat_ofInt (i : ℤ) : (ofInt i).rat = i := by
  unfold rat ofInt signed
  by_cases h : i < 0
  · have : (i : ℚ) < 0 := by exact_mod_cast h
    simp [h, abs_of_neg this]
  · have : (0 : ℚ) ≤ i := by exact_mod_cast not_lt.mp h
    simp [h, not_lt.mp h]

/-! ### The place of the leading digit -/

theorem digits_pos (d : Decimal) : 1 ≤ d.digits := digitCount_pos _

theorem adjusted_one : adjusted 1 = 0 := by
  change (0 : ℤ) + digitCount 1 - 1 = 0
  rw [digitCount_one]
  norm_num

theorem abs_rat_lt_pow (d : Decimal) : |d.rat| < (10 : ℚ) ^ (d.adjusted + 1) := by
  rw [abs_rat, adjusted, show d.exponent + d.digits - 1 + 1 = d.digits + d.exponent by ring,
    zpow_add₀ (by norm_num), zpow_natCast]
  have h : (d.coefficient : ℚ) < 10 ^ d.digits := by exact_mod_cast lt_pow_digitCount d.coefficient
  exact mul_lt_mul_of_pos_right h (zpow_pos (by norm_num) _)

theorem pow_le_abs_rat {d : Decimal} (h : 0 < d.coefficient) :
    (10 : ℚ) ^ d.adjusted ≤ |d.rat| := by
  have hd := d.digits_pos
  rw [abs_rat, adjusted, show d.exponent + d.digits - 1
    = ((d.digits - 1 : ℕ) : ℤ) + d.exponent by omega,
    zpow_add₀ (by norm_num), zpow_natCast]
  have h : (10 : ℚ) ^ (d.digits - 1) ≤ d.coefficient := by exact_mod_cast pow_le_of_pos h
  exact mul_le_mul_of_nonneg_right h (zpow_pos (by norm_num) _).le

/-- A number below a power of ten has its leading digit below that place. -/
theorem adjusted_lt {d : Decimal} (h : 0 < d.coefficient) {k : ℤ} (hk : |d.rat| < (10 : ℚ) ^ k) :
    d.adjusted < k :=
  (zpow_lt_zpow_iff_right₀ (by norm_num : (1 : ℚ) < 10)).mp ((pow_le_abs_rat h).trans_lt hk)

/-- A number not below a power of ten has its leading digit at that place or above. -/
theorem le_adjusted {d : Decimal} {k : ℤ} (hk : (10 : ℚ) ^ k ≤ |d.rat|) : k ≤ d.adjusted := by
  have := (zpow_lt_zpow_iff_right₀ (by norm_num : (1 : ℚ) < 10)).mp (hk.trans_lt d.abs_rat_lt_pow)
  omega

/-! ### The coefficient at another exponent -/

theorem pow_toNat {e f : ℤ} (h : e ≤ f) : (10 : ℚ) ^ (f - e).toNat * 10 ^ e = 10 ^ f := by
  rw [← zpow_natCast, ← zpow_add₀ (by norm_num)]
  congr 1
  omega

theorem coefficientAt_mul {d : Decimal} {e : ℤ} (h : e ≤ d.exponent) :
    (d.coefficientAt e : ℚ) * 10 ^ e = |d.rat| := by
  rw [abs_rat, coefficientAt, Nat.pow_eq]
  push_cast
  rw [mul_assoc, pow_toNat h]

theorem signedAt_mul {d : Decimal} {e : ℤ} (h : e ≤ d.exponent) :
    (d.signedAt e : ℚ) * 10 ^ e = d.rat := by
  rw [rat, signedAt, Nat.pow_eq]
  push_cast
  rw [mul_assoc, pow_toNat h]

/-- The number of a sign and a coefficient at an exponent is a whole multiple of its unit. -/
theorem rat_of_natAbs (s e : ℤ) : rat ⟨decide (s < 0), s.natAbs, e⟩ = s * (10 : ℚ) ^ e := by
  by_cases h : s < 0
  · rw [rat_of_negative (by simp [h])]
    have : ((s.natAbs : ℕ) : ℚ) = -s := by
      rw [← Int.cast_natCast, Int.ofNat_natAbs_of_nonpos h.le]; simp
    rw [this, neg_mul, neg_neg]
  · rw [rat_of_not_negative (by simp [h])]
    have : ((s.natAbs : ℕ) : ℚ) = s := by
      rw [← Int.cast_natCast, Int.natAbs_of_nonneg (by omega)]
    rw [this]

/-! ### Order -/

theorem magnitudeOrder_eq_compare {a b : Decimal} (ha : 0 < a.coefficient)
    (hb : 0 < b.coefficient) : magnitudeOrder a b = compare |a.rat| |b.rat| := by
  unfold magnitudeOrder
  by_cases h : a.adjusted = b.adjusted
  · rw [if_pos h]
    have h1 := coefficientAt_mul (d := a) (min_le_left a.exponent b.exponent)
    have h2 := coefficientAt_mul (d := b) (min_le_right a.exponent b.exponent)
    generalize min a.exponent b.exponent = e at h1 h2 ⊢
    have hpos : (0 : ℚ) < 10 ^ e := zpow_pos (by norm_num) _
    rw [← h1, ← h2]
    rcases lt_trichotomy (a.coefficientAt e) (b.coefficientAt e) with hlt | heq | hgt
    · have : (a.coefficientAt e : ℚ) * 10 ^ e < b.coefficientAt e * 10 ^ e :=
        mul_lt_mul_of_pos_right (by exact_mod_cast hlt) hpos
      rw [compare_lt_iff_lt.mpr hlt, compare_lt_iff_lt.mpr this]
    · simp [heq]
    · have : (b.coefficientAt e : ℚ) * 10 ^ e < a.coefficientAt e * 10 ^ e :=
        mul_lt_mul_of_pos_right (by exact_mod_cast hgt) hpos
      rw [compare_gt_iff_gt.mpr hgt, compare_gt_iff_gt.mpr this]
  · rw [if_neg h]
    rcases lt_or_gt_of_ne h with hlt | hgt
    · have : |a.rat| < |b.rat| := a.abs_rat_lt_pow.trans_le
        ((zpow_le_zpow_right₀ (by norm_num) (by omega)).trans (pow_le_abs_rat hb))
      rw [compare_lt_iff_lt.mpr hlt, compare_lt_iff_lt.mpr this]
    · have : |b.rat| < |a.rat| := b.abs_rat_lt_pow.trans_le
        ((zpow_le_zpow_right₀ (by norm_num) (by omega)).trans (pow_le_abs_rat ha))
      rw [compare_gt_iff_gt.mpr hgt, compare_gt_iff_gt.mpr this]

theorem sign_cases (d : Decimal) : (d.sign = 0 ∧ d.rat = 0 ∧ d.coefficient = 0) ∨
    (d.sign = 1 ∧ 0 < d.rat ∧ d.negative = false) ∨ (d.sign = -1 ∧ d.rat < 0 ∧
      d.negative = true) := by
  unfold sign
  cases hz : d.isZero with
  | true => exact .inl ⟨by simp, isZero_iff_rat.mp hz, isZero_iff.mp hz⟩
  | false =>
    have hc := isZero_eq_false.mp hz
    have hne : d.rat ≠ 0 := fun h => hc.ne' (rat_eq_zero_iff.mp h)
    cases hn : d.negative with
    | false => exact .inr (.inl ⟨by simp, rat_pos_iff.mpr ⟨hn, hc⟩, rfl⟩)
    | true =>
      refine .inr (.inr ⟨by simp, lt_of_le_of_ne ?_ hne, rfl⟩)
      rw [rat_of_negative hn]
      have : (0 : ℚ) ≤ d.coefficient * (10 : ℚ) ^ d.exponent := by positivity
      linarith

/-- Decimals compare by their amounts. -/
theorem order_eq_compare (a b : Decimal) : order a b = compare a.rat b.rat := by
  have coefficient_pos {d : Decimal} (h : d.rat ≠ 0) : 0 < d.coefficient :=
    Nat.pos_of_ne_zero fun h0 => h (rat_eq_zero_iff.mpr h0)
  unfold order
  rcases sign_cases a with ⟨ha, ra, -⟩ | ⟨ha, ra, na⟩ | ⟨ha, ra, na⟩ <;>
    rcases sign_cases b with ⟨hb, rb, -⟩ | ⟨hb, rb, nb⟩ | ⟨hb, rb, nb⟩ <;> simp only [ha, hb]
  · simp [ra, rb]
  · rw [ra, compare_lt_iff_lt.mpr rb]; rfl
  · rw [ra, compare_gt_iff_gt.mpr rb]; rfl
  · rw [rb, compare_gt_iff_gt.mpr ra]; rfl
  · simp [na, magnitudeOrder_eq_compare (coefficient_pos ra.ne') (coefficient_pos rb.ne'),
      abs_of_pos ra, abs_of_pos rb]
  · rw [compare_gt_iff_gt.mpr (rb.trans ra)]; rfl
  · rw [rb, compare_lt_iff_lt.mpr ra]; rfl
  · rw [compare_lt_iff_lt.mpr (ra.trans rb)]; rfl
  · simp only [↓reduceIte, na, magnitudeOrder_eq_compare (coefficient_pos rb.ne)
      (coefficient_pos ra.ne),
      abs_of_neg ra, abs_of_neg rb, reduceCtorEq]
    rcases lt_trichotomy a.rat b.rat with h | h | h
    · rw [compare_lt_iff_lt.mpr h, compare_lt_iff_lt.mpr (neg_lt_neg h)]
    · simp [h]
    · rw [compare_gt_iff_gt.mpr h, compare_gt_iff_gt.mpr (neg_lt_neg h)]

end Decimal
end LoanDesk
