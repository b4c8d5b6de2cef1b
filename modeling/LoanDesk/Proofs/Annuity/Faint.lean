import LoanDesk.Proofs.Annuity.Closing
import LoanDesk.Proofs.Annuity.Rounded

/-
# Faint rates

A rate may be so small that its interest over the whole term is less than rounding to
the cent can show. What is left of a payment is then the share of each month, and it may
lie half a cent behind a whole number of cents: a payment that comes out below the exact
share by whatever little would be a cent less than the one without interest. It does
not. Simple interest has room at the working precision, so the growth is never less, and
it is more by no more than what compound interest adds to it; and what compound interest
takes from the divisor is more than all steps together lose. Nor does the payment reach
the next cent, which is at least half an `n`-th part of a cent away.

Key definitions: `Annuity.IsWholeCents`, `Annuity.faint`.
Key theorems: `Annuity.toCents_share`, `Annuity.Earning.roundedGrowth_between`,
`Annuity.share_le_of_steps`, `Annuity.Earning.share_le_unroundedPayment`,
`Annuity.roundedPayment_of_faint`.
-/

namespace LoanDesk
namespace Annuity

open Decimal

@[simp]
theorem exactPayment_zero (P : ℚ) (n : ℕ) : exactPayment P 0 n = P / n := if_pos rfl

/-! ### Cents -/

section cents

variable {x y : ℚ} {c : ℤ} {n : ℕ}

theorem toCents_eq (h : 0 ≤ x) : toPlace Money.centPlace x = ⌊100 * x + 1 / 2⌋ / 100 := by
  have hunit : (10 : ℚ) ^ Money.centPlace = 1 / 100 := by norm_num [Money.centPlace]
  rw [toPlace, hunit, halfAway, if_pos (by positivity), div_div_eq_mul_div, div_one, mul_comm x,
    mul_one_div]

/-- What lies half a cent below the rounded share or above, and less than half an `n`-th of a cent
above the exact share of an amount in cents, is rounded as the share is. -/
theorem toCents_share (hc : 0 ≤ c) (hn : 1 ≤ n) (h0 : 0 ≤ x)
    (hlow : toPlace Money.centPlace (c / 100 / n) - 1 / 200 ≤ x)
    (hhigh : x < c / 100 / n + 1 / (200 * n)) :
    toPlace Money.centPlace x = toPlace Money.centPlace (c / 100 / n) := by
  have hn' : (0 : ℚ) < n := by exact_mod_cast hn
  have hc' : (0 : ℚ) ≤ c := by exact_mod_cast hc
  have hshare : (0 : ℚ) ≤ c / 100 / n := by positivity
  rw [toCents_eq hshare] at hlow ⊢
  rw [toCents_eq h0]
  have hlt := Int.lt_floor_add_one (100 * ((c : ℚ) / 100 / n) + 1 / 2)
  generalize ⌊100 * ((c : ℚ) / 100 / n) + 1 / 2⌋ = k at hlow hlt ⊢
  -- the place where rounding turns to the next cent is a whole number of half `n`-ths away
  have hwhole : 2 * c + n + 1 ≤ 2 * n * (k + 1) := by
    have h : 2 * c + n < 2 * n * ((k : ℚ) + 1) := by
      calc 2 * (c : ℚ) + n = (100 * ((c : ℚ) / 100 / n) + 1 / 2) * (2 * n) := by field_simp
        _ < (k + 1) * (2 * n) := mul_lt_mul_of_pos_right hlt (by positivity)
        _ = 2 * n * (k + 1) := by ring
    have : 2 * c + n < 2 * n * (k + 1) := by exact_mod_cast h
    omega
  have habove : 100 * x + 1 / 2 < k + 1 := by
    have h : (2 * c + n + 1 : ℚ) ≤ 2 * n * (k + 1) := by exact_mod_cast hwhole
    calc 100 * x + 1 / 2 < 100 * (c / 100 / n + 1 / (200 * n)) + 1 / 2 := by linarith
      _ = (2 * c + n + 1) / (2 * n) := by
          field_simp
          ring
      _ ≤ 2 * n * (k + 1) / (2 * n) := div_le_div_of_nonneg_right h (by positivity)
      _ = k + 1 := by field_simp
  congr 2
  rw [Int.floor_eq_iff]
  exact ⟨by linarith, habove⟩

theorem toCents_le_add (h : 0 ≤ x) : toPlace Money.centPlace x - 1 / 200 ≤ x := by
  rw [toCents_eq h]
  linarith [Int.floor_le (100 * x + 1 / 2)]

theorem lt_toCents_add (h : 0 ≤ x) : x < toPlace Money.centPlace x + 1 / 200 := by
  rw [toCents_eq h]
  linarith [Int.lt_floor_add_one (100 * x + 1 / 2)]

theorem toCents_self (c : ℤ) : toPlace Money.centPlace (c / 100) = c / 100 := by
  have hunits : (c : ℚ) / 100 = c * 10 ^ Money.centPlace := by
    norm_num [Money.centPlace]
    ring
  rw [hunits, toPlace_units]

/-- Without interest rounding to the precision changes no payment of an amount in cents. -/
theorem toCents_nearest_share (hc : 0 ≤ c) (hn : 1 ≤ n) (hn' : n ≤ 240) (hmost : c ≤ 10 ^ 10) :
    toPlace Money.centPlace (nearest Money.precision (c / 100 / n)) =
      toPlace Money.centPlace (c / 100 / n) := by
  have hnq : (1 : ℚ) ≤ n := by exact_mod_cast hn
  have hnq' : (n : ℚ) ≤ 240 := by exact_mod_cast hn'
  have hcq : (0 : ℚ) ≤ c := by exact_mod_cast hc
  have hcq' : (c : ℚ) ≤ 10 ^ 10 := by exact_mod_cast hmost
  have hshare : (0 : ℚ) ≤ c / 100 / n := by positivity
  have hshare' : (c : ℚ) / 100 / n ≤ 10 ^ 8 :=
    (div_le_self (by positivity) hnq).trans (by linarith)
  refine toCents_share hc hn (nearest_nonneg _ hshare) ?_ ?_
  · -- the half below is a number with room at the precision
    rcases hshare.eq_or_lt with h0 | hpos
    · rw [← h0, nearest_zero, toCents_eq le_rfl]
      norm_num
    · have hhalf : toPlace Money.centPlace ((c : ℚ) / 100 / n) - 1 / 200 =
          ((2 * ⌊100 * ((c : ℚ) / 100 / n) + 1 / 2⌋ - 1) * 5 : ℤ) * 10 ^ (-3 : ℤ) := by
        rw [toCents_eq hshare]
        push_cast
        norm_num
        ring
      have hle := toCents_le_add hshare
      rw [hhalf] at hle ⊢
      refine le_nearest (unitPlace_le hpos.ne' (by decide) ?_) hle
      rw [abs_of_pos hpos]
      norm_num [Money.precision]
      linarith
  · have herr := nearest_error Money.precision ((c : ℚ) / 100 / n)
    have htiny := pow_tiniest_le (p := Money.precision) (by decide)
    have hspeck := speck_le 10 (by norm_num)
    have hroom : (1 : ℚ) / (200 * 240) ≤ 1 / (200 * n) :=
      div_le_div_of_nonneg_left (by norm_num) (by positivity) (by linarith)
    rw [abs_of_nonneg hshare] at herr
    norm_num [Money.precision] at herr htiny hspeck hroom ⊢
    linarith [(abs_le.mp herr).2]

end cents

/-! ### Rates that earn little -/

/-- The greatest rate at which an amount in cents is paid back as without interest. -/
def faint : ℚ := 1 / 10 ^ 14

theorem mul_le_of_le_faint {r : ℚ} {n : ℕ} (hr : 0 ≤ r) (hn : n ≤ 240) (h : r ≤ faint) :
    n * r ≤ 1 / 10 ^ 11 := by
  have hnq : (n : ℚ) ≤ 240 := by exact_mod_cast hn
  calc n * r ≤ 240 * (1 / 10 ^ 14) := mul_le_mul hnq h hr (by norm_num)
    _ ≤ 1 / 10 ^ 11 := by norm_num

/-- The growth at a small rate, to the second order. -/
theorem one_add_pow_le {r : ℚ} (hr : 0 ≤ r) (n : ℕ) (h : n * r ≤ 1) :
    (1 + r) ^ n ≤ 1 + n * r + n * (n - 1) / 2 * r ^ 2 + (n * r) ^ 3 := by
  induction n with
  | zero => norm_num
  | succ n ih =>
    push_cast at h ⊢
    have hn : (0 : ℚ) ≤ n := n.cast_nonneg
    have hnr : n * r ≤ 1 := by linarith
    have hstep := mul_le_mul_of_nonneg_right (ih hnr) (by linarith : 0 ≤ 1 + r)
    have hthird : n ^ 2 * (n * r) ≤ (n : ℚ) ^ 2 * 1 := mul_le_mul_of_nonneg_left hnr (by positivity)
    have hsum : n * (n - 1) / 2 + n ^ 3 + n ^ 3 * r ≤ ((n : ℚ) + 1) ^ 3 := by nlinarith
    have hcube := mul_le_mul_of_nonneg_right hsum (by positivity : 0 ≤ r ^ 3)
    calc (1 + r) ^ (n + 1) = (1 + r) ^ n * (1 + r) := pow_succ ..
      _ ≤ _ := hstep
      _ = 1 + (n + 1) * r + (n + 1) * (n + 1 - 1) / 2 * r ^ 2 +
            (n * (n - 1) / 2 + n ^ 3 + n ^ 3 * r) * r ^ 3 := by ring
      _ ≤ 1 + (n + 1) * r + (n + 1) * (n + 1 - 1) / 2 * r ^ 2 + (n + 1) ^ 3 * r ^ 3 := by linarith
      _ = _ := by ring

/-- A growth that is off by no more than what goes beyond simple interest still earns less than
the compound interest of the term. -/
theorem earned_le_of_growth_le {r g : ℚ} {n : ℕ} (hr : 0 < r) (hn : 1 ≤ n) (hn' : n ≤ 240)
    (hfaint : r ≤ faint) (h : g ≤ 2 * (1 + r) ^ n - (1 + n * r)) :
    (g - 1) * (1 + r / 4) ≤ n * r * g := by
  have hnq : (1 : ℚ) ≤ n := by exact_mod_cast hn
  have hnq' : (n : ℚ) ≤ 240 := by exact_mod_cast hn'
  have hm1 := mul_le_of_le_faint hr.le hn' hfaint
  have hm2 : (n * r) ^ 2 ≤ r / 8 := by
    calc (n * r) ^ 2 = n * (n * r) * r := by ring
      _ ≤ 240 * (1 / 10 ^ 11) * r :=
          mul_le_mul_of_nonneg_right (mul_le_mul hnq' hm1 (by positivity) (by norm_num)) hr.le
      _ ≤ r / 8 := by linarith
  have hpow := one_add_pow_le hr.le n (by linarith)
  have hnr : 0 < n * r := by positivity
  -- what is earned in parts of the simple interest
  have hy : g - 1 ≤ n * r * (1 + n * r - r + 2 * (n * r) ^ 2) := by
    calc g - 1 ≤ 2 * (1 + n * r + n * (n - 1) / 2 * r ^ 2 + (n * r) ^ 3) - (1 + n * r) - 1 := by
          linarith
      _ = n * r * (1 + n * r - r + 2 * (n * r) ^ 2) := by ring
  have hless : (1 + n * r - r + 2 * (n * r) ^ 2) * (1 + r / 4 - n * r) ≤ 1 := by
    have hm8 : n * r ≤ 1 / 8 := by linarith
    generalize (n : ℚ) * r = m at hm8 hm2 hnr
    nlinarith [mul_nonneg hr.le hnr.le, mul_nonneg hr.le (sq_nonneg m),
      mul_nonneg hnr.le (sq_nonneg m)]
  have hroom : 0 ≤ 1 + r / 4 - n * r := by linarith
  have hall : (g - 1) * (1 + r / 4 - n * r) ≤ n * r := by
    calc (g - 1) * (1 + r / 4 - n * r)
        ≤ n * r * (1 + n * r - r + 2 * (n * r) ^ 2) * (1 + r / 4 - n * r) :=
          mul_le_mul_of_nonneg_right hy hroom
      _ = n * r * ((1 + n * r - r + 2 * (n * r) ^ 2) * (1 + r / 4 - n * r)) := by ring
      _ ≤ n * r * 1 := mul_le_mul_of_nonneg_left hless hnr.le
      _ = n * r := mul_one _
  linarith

/-- Steps that each lose little of what they give keep a payment from falling below the plain
one. -/
theorem share_le_of_steps {P r g c w e q η : ℚ} {n : ℕ} (hP : 0 ≤ P) (hr : 0 < r) (hn : 1 ≤ n)
    (hη : η ≤ r / 100) (hη0 : 0 ≤ η) (hη1 : η ≤ 1 / 100)
    (hg : (g - 1) * (1 + r / 4) ≤ n * r * g) (hg0 : 0 < g - 1)
    (hc : r * g * (1 - η) ≤ c) (hw : P * c * (1 - η) ≤ w) (he0 : 0 < e)
    (he : e ≤ (g - 1) * (1 + η)) (hq : w / e * (1 - η) ≤ q) : P / n ≤ q := by
  have hn' : (0 : ℚ) < n := by exact_mod_cast hn
  have h1 : 0 ≤ 1 - η := by linarith
  have hloss : 1 + η ≤ (1 + r / 4) * ((1 - η) * (1 - η) * (1 - η)) := by
    have hcube : 1 - 3 * η ≤ (1 - η) * (1 - η) * (1 - η) := by
      have := mul_nonneg (mul_nonneg hη0 hη0) (by linarith : 0 ≤ 3 - η)
      linarith
    have hrη : r * η ≤ r * (1 / 100) := mul_le_mul_of_nonneg_left hη1 hr.le
    have := mul_le_mul_of_nonneg_left hcube (by linarith : 0 ≤ 1 + r / 4)
    linarith
  have hsteps : (g - 1) * (1 + η) ≤ n * (r * g * (1 - η) * (1 - η) * (1 - η)) := by
    calc (g - 1) * (1 + η)
        ≤ (g - 1) * ((1 + r / 4) * ((1 - η) * (1 - η) * (1 - η))) :=
          mul_le_mul_of_nonneg_left hloss hg0.le
      _ = (g - 1) * (1 + r / 4) * ((1 - η) * (1 - η) * (1 - η)) := by ring
      _ ≤ n * r * g * ((1 - η) * (1 - η) * (1 - η)) :=
          mul_le_mul_of_nonneg_right hg (mul_nonneg (mul_nonneg h1 h1) h1)
      _ = _ := by ring
  have hwe : P * (r * g * (1 - η) * (1 - η)) ≤ w := by
    refine le_trans ?_ hw
    calc P * (r * g * (1 - η) * (1 - η)) = P * (r * g * (1 - η)) * (1 - η) := by ring
      _ ≤ P * c * (1 - η) := mul_le_mul_of_nonneg_right (mul_le_mul_of_nonneg_left hc hP) h1
  refine le_trans ?_ hq
  rw [div_mul_eq_mul_div, div_le_div_iff₀ hn' he0]
  calc P * e ≤ P * (n * (r * g * (1 - η) * (1 - η) * (1 - η))) :=
        mul_le_mul_of_nonneg_left (he.trans hsteps) hP
    _ = P * (r * g * (1 - η) * (1 - η)) * (1 - η) * n := by ring
    _ ≤ w * (1 - η) * n :=
        mul_le_mul_of_nonneg_right (mul_le_mul_of_nonneg_right hwe h1) hn'.le

/-! The payment at a faint rate, step by step. -/

namespace Earning

variable {r : Decimal} {n : ℕ} (hr : Earning r)
include hr

theorem speck_le_cube : speck ≤ r.rat ^ 3 / 10 ^ 10 := by
  have hge := hr.adjusted_ge
  have hcube : ((10 : ℚ) ^ r.adjusted) ^ 3 ≤ r.rat ^ 3 :=
    pow_le_pow_left₀ (zpow_pos (by norm_num) _).le hr.pow_adjusted_le 3
  have hlow : speck ≤ ((10 : ℚ) ^ r.adjusted) ^ 3 / 10 ^ 10 := by
    rw [← zpow_natCast, ← zpow_natCast, ← zpow_mul, ← zpow_sub₀ (by norm_num)]
    refine zpow_le_zpow_right₀ (by norm_num) ?_
    unfold lowest
    push_cast
    omega
  exact hlow.trans (div_le_div_of_nonneg_right hcube (by positivity))

/-- A step loses a small part of the rate of what it gives. -/
theorem abs_nearest_sub_le {x : ℚ} (hx : r.rat ^ 2 / 1000 ≤ x) :
    |nearest (workingPrecision r) x - x| ≤ x * (r.rat / 100) := by
  have hr0 := hr.pos
  have hx0 : 0 ≤ x := le_trans (by positivity) hx
  have herr := nearest_error (workingPrecision r) x
  have hunit := mul_le_mul_of_nonneg_left hr.unit_le hx0
  have htiny := (pow_tiniest_le hr.one_le_workingPrecision).trans hr.speck_le_cube
  have hcube := mul_le_mul_of_nonneg_right hx hr0.le
  have hxr := mul_nonneg hx0 hr0.le
  rw [abs_of_nonneg hx0] at herr
  refine herr.trans ?_
  calc (x * 10 ^ (1 - workingPrecision r : ℤ) + 10 ^ tiniest (workingPrecision r)) / 2
      ≤ (x * (r.rat / 10 ^ 55) + r.rat ^ 3 / 10 ^ 10) / 2 := by linarith
    _ ≤ (x * r.rat / 10 ^ 55 + x * r.rat / 10 ^ 7) / 2 := by linarith
    _ ≤ x * (r.rat / 100) := by linarith

theorem le_step {x : ℚ} (hx : r.rat ^ 2 / 1000 ≤ x) :
    x * (1 - r.rat / 100) ≤ nearest (workingPrecision r) x := by
  linarith [(abs_le.mp (hr.abs_nearest_sub_le hx)).1]

theorem step_le {x : ℚ} (hx : r.rat ^ 2 / 1000 ≤ x) :
    nearest (workingPrecision r) x ≤ x * (1 + r.rat / 100) := by
  linarith [(abs_le.mp (hr.abs_nearest_sub_le hx)).2]

/-- Simple interest has room at the working precision, so the growth does not fall below it and is
no further from the exact one. -/
theorem roundedGrowth_between (hn : n ≤ 240) :
    1 + n * r.rat ≤ roundedGrowth (workingPrecision r) r.rat n ∧
      roundedGrowth (workingPrecision r) r.rat n ≤ 2 * (1 + r.rat) ^ n - (1 + n * r.rat) := by
  have hprec := hr.workingPrecision_eq
  have hneg := hr.adjusted_neg
  have hge := hr.adjusted_ge
  have hdigits := hr.digits_le
  have hpos := r.digits_pos
  have hadj : r.adjusted = r.exponent + r.digits - 1 := rfl
  obtain ⟨j, hj⟩ := exists_finer 1 (by omega : r.exponent ≤ 0)
  have hsimple : 1 + n * r.rat = (j + n * r.signed : ℤ) * 10 ^ r.exponent := by
    rw [rat_eq_units]
    push_cast at hj ⊢
    linarith
  have hbernoulli := one_add_mul_le_pow (by linarith [hr.pos] : (-2 : ℚ) ≤ r.rat) n
  have hG := hr.growth_le hn
  have hG1 := hr.one_le_growth (n := n)
  have hplace : unitPlace (workingPrecision r) ((1 + r.rat) ^ n) ≤ r.exponent := by
    refine unitPlace_le (by linarith) (by unfold tiniest lowest; omega) ?_
    rw [abs_of_pos (by linarith)]
    calc (1 + r.rat) ^ n ≤ 10 ^ (6 : ℤ) := hG
      _ < 10 ^ (r.exponent + workingPrecision r) := zpow_lt_zpow_right₀ (by norm_num) (by omega)
  have hnear := Decimal.abs_nearest_sub_le hplace (j + n * r.signed)
  unfold roundedGrowth
  rw [← hsimple, abs_sub_comm (1 + n * r.rat), abs_of_nonneg (sub_nonneg.mpr hbernoulli)] at hnear
  refine ⟨?_, by linarith [(abs_le.mp hnear).2]⟩
  rw [hsimple] at hbernoulli ⊢
  exact le_nearest hplace hbernoulli

/-- At a `faint` rate the payment is not below the share of a month. -/
theorem share_le_unroundedPayment {P : ℚ} (hP : 1 / 100 ≤ P) (hn : 1 ≤ n) (hn' : n ≤ 240)
    (hfaint : r.rat ≤ faint) : P / n ≤ unroundedPayment P r.rat n := by
  have hr0 := hr.pos
  have hnq : (1 : ℚ) ≤ n := by exact_mod_cast hn
  have hrle := hr.le
  have hsquare : r.rat ^ 2 / 1000 ≤ r.rat / 1000 := by
    have := mul_le_mul_of_nonneg_left hrle hr0.le
    rw [sq]
    linarith
  obtain ⟨hlow, hhigh⟩ := hr.roundedGrowth_between hn'
  have hnr := mul_le_mul_of_nonneg_right hnq hr0.le
  have hearned := earned_le_of_growth_le hr0 hn hn' hfaint hhigh
  rw [hr.unroundedPayment_eq, interestAmount]
  generalize roundedGrowth (workingPrecision r) r.rat n = g at hlow hearned
  have hg1 : r.rat ≤ g - 1 := by linarith
  have hg2 : g ≤ 2 := by
    have hnr' := mul_le_of_le_faint hr0.le hn' hfaint
    have h1 := mul_le_mul_of_nonneg_right hnr' (by linarith : 0 ≤ g)
    have h2 := mul_nonneg (by linarith : 0 ≤ g - 1) hr0.le
    linarith
  -- the interest on the growth, and that weighted with the principal
  have hrg : r.rat * 1 ≤ r.rat * g := mul_le_mul_of_nonneg_left (by linarith) hr0.le
  have hcharged := hr.le_step (x := r.rat * g) (by linarith)
  have hhalf : r.rat * g * (1 / 2) ≤ r.rat * g * (1 - r.rat / 100) :=
    mul_le_mul_of_nonneg_left (by linarith) (by linarith)
  generalize nearest (workingPrecision r) (r.rat * g) = c at hcharged
  have hPc : 1 / 100 * c ≤ P * c := mul_le_mul_of_nonneg_right hP (by linarith)
  have hweighted := hr.le_step (x := P * c) (by linarith)
  have hhalf' : P * c * (1 / 2) ≤ P * c * (1 - r.rat / 100) :=
    mul_le_mul_of_nonneg_left (by linarith) (by linarith)
  generalize nearest (workingPrecision r) (P * c) = w at hweighted
  -- what the growth earns, and the quotient
  have hgain := hr.le_step (x := g - 1) (by linarith)
  have hgain' := hr.step_le (x := g - 1) (by linarith)
  have he0 : 0 < (g - 1) * (1 - r.rat / 100) := mul_pos (by linarith) (by linarith)
  generalize nearest (workingPrecision r) (g - 1) = e at hgain hgain'
  have he2 : e ≤ 2 := by
    have := mul_le_mul_of_nonneg_right (by linarith : g - 1 ≤ 1) (by linarith : 0 ≤ 1 + r.rat / 100)
    linarith
  have hdivided := hr.le_step (x := w / e) (by
    rw [le_div_iff₀ (by linarith)]
    have := mul_le_mul_of_nonneg_left he2 (by positivity : 0 ≤ r.rat ^ 2 / 1000)
    linarith)
  exact share_le_of_steps (by linarith) hr0 hn le_rfl (by positivity) (by linarith) hearned
    (by linarith) hcharged hweighted (by linarith) hgain' hdivided

end Earning

/-! ### Amounts in cents -/

/-- An amount in whole cents. -/
def IsWholeCents (d : Decimal) : Prop := ∃ c : ℤ, d.rat = c / 100

section amounts

variable {P R r : Decimal} {n : ℕ}

/-- The cents of an accepted amount. -/
theorem Standard.exists_cents (h : Standard P R n) (hcents : IsWholeCents P) :
    ∃ c : ℤ, P.rat = c / 100 ∧ 1 ≤ c ∧ c ≤ 10 ^ 10 := by
  obtain ⟨c, hc⟩ := hcents
  have h0 := h.principal_pos
  have h8 := h.principal_le
  have hpos : (0 : ℚ) < c := by linarith
  have hmost : (c : ℚ) ≤ 10 ^ 10 := by linarith
  exact ⟨c, hc, by exact_mod_cast hpos, by exact_mod_cast hmost⟩

theorem Standard.cent_le (h : Standard P R n) (hcents : IsWholeCents P) : 1 / 100 ≤ P.rat := by
  obtain ⟨c, hc, hc1, -⟩ := h.exists_cents hcents
  have : (1 : ℚ) ≤ c := by exact_mod_cast hc1
  linarith

theorem Standard.le_share (h : Standard P R n) (hcents : IsWholeCents P) :
    1 / 24000 ≤ P.rat / n := by
  have hcent := h.cent_le hcents
  have hn0 : (0 : ℚ) < n := by exact_mod_cast h.months_pos
  have hn : (n : ℚ) ≤ 240 := by exact_mod_cast h.months_le
  rw [le_div_iff₀ hn0]
  linarith

theorem pow_mostLeadingZeros_le : (10 : ℚ) ^ (-mostLeadingZeros) ≤ 1 / 10 ^ 18 := by
  calc (10 : ℚ) ^ (-mostLeadingZeros) ≤ 10 ^ (-18 : ℤ) :=
        zpow_le_zpow_right₀ (by norm_num) (by decide)
    _ = 1 / 10 ^ 18 := by norm_num

/-- A rate that is not faint earns. -/
theorem Monthly.earning_of_faint_lt (hr : Monthly r) (h : faint < r.rat) : Earning r := by
  refine hr.earning (pow_mostLeadingZeros_le.trans (le_trans ?_ h.le))
  norm_num [faint]

/-- At a rate below `faint` the payment is the one without interest. -/
theorem roundedPayment_of_faint (h : Standard P R n) (hcents : IsWholeCents P) (hr : Monthly r)
    (hfaint : r.rat ≤ faint) :
    roundedPayment P.rat r.rat n = toPlace Money.centPlace (P.rat / n) := by
  obtain ⟨c, hc, hc1, hmost⟩ := h.exists_cents hcents
  have hP0 := h.principal_pos
  have hn := h.months_pos
  have hnq : (1 : ℚ) ≤ n := by exact_mod_cast hn
  have hnq' : (n : ℚ) ≤ 240 := by exact_mod_cast h.months_le
  have hshare0 : 0 ≤ P.rat / n := by positivity
  unfold roundedPayment
  by_cases hnone : r.rat < 10 ^ (-mostLeadingZeros)
  · rw [unroundedPayment, if_pos hnone, hc]
    exact toCents_nearest_share (by omega) hn h.months_le hmost
  · have hearning := hr.earning (not_lt.mp hnone)
    have hlow := hearning.share_le_unroundedPayment (h.cent_le hcents) hn h.months_le hfaint
    have hshare := toCents_le_add hshare0
    have hhigh : unroundedPayment P.rat r.rat n < P.rat / n + 1 / (200 * n) := by
      have hnear := (hearning.unroundedPayment_near h).le
      have hrise := exactPayment_sub_le (n := n) hP0.le le_rfl hr.nonneg hn
      have hPr : P.rat * r.rat ≤ 10 ^ 8 * (1 / 10 ^ 14) :=
        mul_le_mul h.principal_le hfaint hr.nonneg (by norm_num)
      have hA := hearning.exactPayment_le h
      have hroom : (1 : ℚ) / (200 * 240) ≤ 1 / (200 * n) :=
        div_le_div_of_nonneg_left (by norm_num) (by positivity) (by linarith)
      rw [exactPayment_zero, sub_zero] at hrise
      norm_num at hnear hPr hA hroom ⊢
      linarith
    rw [hc] at hshare hlow hhigh ⊢
    exact toCents_share (by omega) hn (by rw [hc] at hshare0; linarith) (by linarith) hhigh

end amounts

end Annuity
end LoanDesk
