import Mathlib.Algebra.BigOperators.Intervals
import Mathlib.Algebra.Order.BigOperators.Group.Finset
import Mathlib.Tactic
import LoanDesk.Annuity

/-
# The exact annuity

Over the rationals the payment of an annuity is the principal divided by the present
value of as many payments of one. The present value falls as the rate grows, and the
present value times the rate grows with it; so the payment moves with the rate, and by
no greater part of itself than the rate does.

Key definitions: `Annuity.exactPayment`, `Annuity.presentValue`, `Near`.
Key theorems: `Annuity.exactPayment_eq_div`, `Annuity.exactPayment_near`,
`Annuity.exactPayment_le`, `Annuity.exactPayment_near_plain`.
-/

namespace LoanDesk

/-! ### Near numbers -/

/-- The second number is off the first by at most a part `δ` of it and `τ` more. -/
def Near (δ τ x y : ℚ) : Prop := |y - x| ≤ δ * x + τ

namespace Near

variable {a b c s t u x y z : ℚ}

theorem mono (h : Near a s x y) (hx : 0 ≤ x) (hab : a ≤ b) (hst : s ≤ t) : Near b t x y :=
  h.trans (add_le_add (mul_le_mul_of_nonneg_right hab hx) hst)

/-- Errors add up, and so do their products, which are small: `Near` is transitive. -/
theorem trans (hxy : Near a s x y) (hyz : Near b t y z) (hb : 0 ≤ b) :
    Near (a + b + a * b) (s + b * s + t) x z := by
  unfold Near at *
  have h1 := abs_sub_le z y x
  have h2 : y - x ≤ a * x + s := (le_abs_self _).trans hxy
  have h3 : b * y ≤ b * (x + (a * x + s)) := mul_le_mul_of_nonneg_left (by linarith) hb
  calc |z - x| ≤ (b * y + t) + (a * x + s) := by linarith
    _ ≤ b * (x + (a * x + s)) + t + (a * x + s) := by linarith
    _ = (a + b + a * b) * x + (s + b * s + t) := by ring

theorem absorb (h : Near a s x y) (hs : s ≤ b * x) : Near (a + b) 0 x y := by
  unfold Near at *
  linarith

theorem mul_left (h : Near a s x y) {k : ℚ} (hk : 0 ≤ k) : Near a (k * s) (k * x) (k * y) := by
  unfold Near at *
  rw [← mul_sub, abs_mul, abs_of_nonneg hk]
  calc k * |y - x| ≤ k * (a * x + s) := mul_le_mul_of_nonneg_left h hk
    _ = a * (k * x) + k * s := by ring

theorem le (h : Near a s x y) : y ≤ x + (a * x + s) := by
  have := (le_abs_self _).trans h
  linarith

theorem ge (h : Near a s x y) : x - (a * x + s) ≤ y := by
  have := neg_abs_le (y - x)
  unfold Near at h
  linarith

/-- Dividing by a number near another one. -/
theorem inv (h : Near a 0 x y) (hx : 0 < x) (ha : a ≤ 1 / 2) (ha0 : 0 ≤ a) :
    Near (2 * a) 0 x⁻¹ y⁻¹ := by
  have hge := h.ge
  have hy : x / 2 ≤ y := by nlinarith
  have hy0 : 0 < y := by linarith
  unfold Near at *
  have hsub : y⁻¹ - x⁻¹ = (x - y) * (x⁻¹ * y⁻¹) := by field_simp
  have hinv : x * y⁻¹ ≤ 2 := by
    rw [← div_eq_mul_inv, div_le_iff₀ hy0]
    linarith
  have hxi : 0 < x⁻¹ := inv_pos.mpr hx
  have hyi : 0 < y⁻¹ := inv_pos.mpr hy0
  rw [hsub, abs_mul, abs_sub_comm, abs_of_pos (mul_pos hxi hyi)]
  calc |y - x| * (x⁻¹ * y⁻¹) ≤ (a * x + 0) * (x⁻¹ * y⁻¹) :=
        mul_le_mul_of_nonneg_right h (mul_pos hxi hyi).le
    _ = a * (x * y⁻¹) * x⁻¹ := by ring
    _ ≤ a * 2 * x⁻¹ :=
        mul_le_mul_of_nonneg_right (mul_le_mul_of_nonneg_left hinv ha0) hxi.le
    _ = 2 * a * x⁻¹ + 0 := by ring

end Near

namespace Annuity

open Finset

/-- The payment that an annuity comes to exactly. -/
def exactPayment (principal rate : ℚ) (months : ℕ) : ℚ :=
  if rate = 0 then principal / months
  else principal * rate * (1 + rate) ^ months / ((1 + rate) ^ months - 1)

/-- What payments of one at the end of each month are worth today. -/
def presentValue (rate : ℚ) (months : ℕ) : ℚ := ∑ i ∈ range months, ((1 + rate) ^ (i + 1))⁻¹

variable {r s P : ℚ} {n : ℕ}

theorem presentValue_zero (n : ℕ) : presentValue 0 n = n := by
  simp [presentValue]

theorem mul_presentValue (hr : 0 ≤ r) (n : ℕ) : r * presentValue r n = 1 - ((1 + r) ^ n)⁻¹ := by
  have h1 : (1 + r) ≠ 0 := by linarith
  induction n with
  | zero => simp [presentValue]
  | succ n ih =>
    rw [presentValue, sum_range_succ, ← presentValue, mul_add, ih, pow_succ]
    field_simp
    ring

theorem presentValue_pos (hr : 0 ≤ r) (hn : 1 ≤ n) : 0 < presentValue r n := by
  refine sum_pos (fun i _ => by positivity) ⟨0, mem_range.mpr hn⟩

theorem exactPayment_eq_div (hr : 0 ≤ r) (hn : 1 ≤ n) :
    exactPayment P r n = P / presentValue r n := by
  unfold exactPayment
  split
  · rename_i h
    rw [h, presentValue_zero]
  · rename_i h
    have hr0 : 0 < r := lt_of_le_of_ne hr (Ne.symm h)
    have hpow : 1 < (1 + r) ^ n := one_lt_pow₀ (by linarith) (by omega)
    have hV := mul_presentValue hr n
    have hVpos := presentValue_pos hr hn
    rw [div_eq_div_iff (by linarith) hVpos.ne']
    calc P * r * (1 + r) ^ n * presentValue r n =
          P * (1 + r) ^ n * (r * presentValue r n) := by ring
      _ = P * ((1 + r) ^ n - 1) := by rw [hV]; field_simp

theorem exactPayment_nonneg (hP : 0 ≤ P) (hr : 0 ≤ r) (hn : 1 ≤ n) : 0 ≤ exactPayment P r n := by
  rw [exactPayment_eq_div hr hn]
  exact div_nonneg hP (presentValue_pos hr hn).le

/-! ### How the payment moves with the rate -/

theorem presentValue_anti (hr : 0 ≤ r) (hrs : r ≤ s) (n : ℕ) :
    presentValue s n ≤ presentValue r n :=
  sum_le_sum fun i _ =>
    inv_anti₀ (by positivity) (pow_le_pow_left₀ (by linarith) (by linarith) _)

theorem mul_presentValue_mono (hr : 0 ≤ r) (hrs : r ≤ s) (n : ℕ) :
    r * presentValue r n ≤ s * presentValue s n := by
  rw [mul_presentValue hr, mul_presentValue (hr.trans hrs)]
  have : ((1 + s) ^ n)⁻¹ ≤ ((1 + r) ^ n)⁻¹ :=
    inv_anti₀ (by positivity) (pow_le_pow_left₀ (by linarith) (by linarith) _)
  linarith

theorem exactPayment_mono (hP : 0 ≤ P) (hr : 0 ≤ r) (hrs : r ≤ s) (hn : 1 ≤ n) :
    exactPayment P r n ≤ exactPayment P s n := by
  rw [exactPayment_eq_div hr hn, exactPayment_eq_div (hr.trans hrs) hn]
  exact div_le_div_of_nonneg_left hP (presentValue_pos (hr.trans hrs) hn)
    (presentValue_anti hr hrs n)

/-- The payment grows by no greater part of itself than the rate. -/
theorem mul_exactPayment_le (hP : 0 ≤ P) (hr : 0 < r) (hrs : r ≤ s) (hn : 1 ≤ n) :
    r * exactPayment P s n ≤ s * exactPayment P r n := by
  have hs := hr.le.trans hrs
  have hVr := presentValue_pos hr.le hn
  have hVs := presentValue_pos hs hn
  rw [exactPayment_eq_div hr.le hn, exactPayment_eq_div hs hn, ← mul_div_assoc, ← mul_div_assoc,
    div_le_div_iff₀ hVs hVr]
  calc r * P * presentValue r n = P * (r * presentValue r n) := by ring
    _ ≤ P * (s * presentValue s n) :=
        mul_le_mul_of_nonneg_left (mul_presentValue_mono hr.le hrs n) hP
    _ = s * P * presentValue s n := by ring

/-- A rate near another one gives an `exactPayment` as near. -/
theorem exactPayment_near {δ : ℚ} (hP : 0 ≤ P) (hr : 0 < r) (hs : 0 < s) (hn : 1 ≤ n)
    (h : Near δ 0 r s) : Near δ 0 (exactPayment P r n) (exactPayment P s n) := by
  have hA := exactPayment_nonneg hP hr.le hn
  unfold Near at *
  rcases le_total r s with hrs | hsr
  · have h1 := exactPayment_mono hP hr.le hrs hn
    have h2 := mul_exactPayment_le hP hr hrs hn
    rw [abs_of_nonneg (by linarith)] at h ⊢
    have h3 : r * (exactPayment P s n - exactPayment P r n) ≤ r * (δ * exactPayment P r n) := by
      nlinarith
    linarith [le_of_mul_le_mul_left h3 hr]
  · have h1 := exactPayment_mono hP hs.le hsr hn
    have h2 := mul_exactPayment_le hP hs hsr hn
    rw [abs_of_nonpos (by linarith)] at h ⊢
    have h3 : r * (exactPayment P r n - exactPayment P s n) ≤ r * (δ * exactPayment P r n) := by
      nlinarith
    linarith [le_of_mul_le_mul_left h3 hr]

/-! ### Bounds -/

/-- No payment is more than the principal and its interest of one month. -/
theorem exactPayment_le (hP : 0 ≤ P) (hr : 0 ≤ r) (hn : 1 ≤ n) :
    exactPayment P r n ≤ P * (1 + r) := by
  have hV : (1 + r)⁻¹ ≤ presentValue r n := by
    have h := single_le_sum (f := fun i => ((1 + r) ^ (i + 1))⁻¹) (s := range n)
      (fun i _ => by positivity) (mem_range.mpr hn)
    simpa [presentValue] using h
  rw [exactPayment_eq_div hr hn, div_le_iff₀ (presentValue_pos hr hn)]
  have h1 : (1 + r) * (1 + r)⁻¹ = 1 := mul_inv_cancel₀ (by linarith)
  calc P = P * ((1 + r) * (1 + r)⁻¹) := by rw [h1, mul_one]
    _ ≤ P * ((1 + r) * presentValue r n) := by
        refine mul_le_mul_of_nonneg_left (mul_le_mul_of_nonneg_left hV (by linarith)) hP
    _ = P * (1 + r) * presentValue r n := by ring

theorem presentValue_le (hr : 0 ≤ r) (n : ℕ) : presentValue r n ≤ n :=
  (presentValue_anti le_rfl hr n).trans_eq (presentValue_zero n)

/-- A small rate takes little from the value of a payment. -/
theorem le_presentValue (hr : 0 ≤ r) (hnr : n * r ≤ 1) : n * (1 - n * r) ≤ presentValue r n := by
  have h1 : ∀ i ∈ range n, 1 - n * r ≤ ((1 + r) ^ (i + 1))⁻¹ := by
    intro i hi
    have hin : ((i + 1 : ℕ) : ℚ) ≤ n := by exact_mod_cast mem_range.mp hi
    have hr1 : r ≤ 1 := by
      have : (1 : ℚ) ≤ n := by exact_mod_cast (Nat.zero_lt_of_lt (mem_range.mp hi))
      nlinarith
    have hb : 1 - (i + 1 : ℕ) * r ≤ (1 - r) ^ (i + 1) := by
      have := one_add_mul_le_pow (by linarith : (-2 : ℚ) ≤ -r) (i + 1)
      rwa [mul_neg, ← sub_eq_add_neg, ← sub_eq_add_neg] at this
    have hinv : (1 - r) ^ (i + 1) ≤ ((1 + r) ^ (i + 1))⁻¹ := by
      rw [← inv_pow]
      refine pow_le_pow_left₀ (by linarith) ?_ _
      rw [← one_div, le_div_iff₀ (by linarith)]
      nlinarith
    have := mul_le_mul_of_nonneg_right hin hr
    linarith
  have h2 := card_nsmul_le_sum (range n) _ _ h1
  simpa [presentValue] using h2

/-- At a small rate the payment is near the plain one. -/
theorem exactPayment_near_plain (hP : 0 ≤ P) (hr : 0 ≤ r) (hn : 1 ≤ n) (hnr : n * r ≤ 1 / 2) :
    |exactPayment P r n - P / n| ≤ P / n * (2 * (n * r)) := by
  have hn' : (0 : ℚ) < n := by exact_mod_cast hn
  have hVpos := presentValue_pos hr hn
  have hV1 := presentValue_le hr n
  have hV2 := le_presentValue hr (n := n) (by linarith)
  rw [exactPayment_eq_div hr hn]
  have hlow : P / n ≤ P / presentValue r n := div_le_div_of_nonneg_left hP hVpos hV1
  rw [abs_of_nonneg (by linarith), sub_le_iff_le_add, div_le_iff₀ hVpos]
  have hk : 0 ≤ P / n := div_nonneg hP hn'.le
  have hnr0 : 0 ≤ n * r := mul_nonneg hn'.le hr
  have h3 : P = P / n * n := (div_mul_cancel₀ P hn'.ne').symm
  calc P = P / n * n := h3
    _ ≤ P / n * ((2 * (n * r) + 1) * (n * (1 - n * r))) := by
        refine mul_le_mul_of_nonneg_left ?_ hk
        nlinarith [mul_nonneg hn'.le hnr0,
          mul_nonneg (mul_nonneg hn'.le hnr0) (by linarith : 0 ≤ 1 / 2 - n * r)]
    _ ≤ P / n * ((2 * (n * r) + 1) * presentValue r n) := by
        refine mul_le_mul_of_nonneg_left (mul_le_mul_of_nonneg_left hV2 (by linarith)) hk
    _ = _ := by ring

end Annuity
end LoanDesk
