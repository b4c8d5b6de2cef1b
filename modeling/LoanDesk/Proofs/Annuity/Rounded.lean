import LoanDesk.Proofs.Annuity.Payment
import LoanDesk.Proofs.Decimal.Nearest

/-
# The payment as a function of amounts

Every step of a payment is an exact operation on amounts followed by rounding, so the
payment itself is a function of the amounts of the principal and of the rate: it does not
matter with which digits and exponents they are written. Each step but one keeps the
order of amounts, and so the payment grows with the principal.

Key definitions: `Annuity.roundedRate`, `Annuity.interestAmount`,
`Annuity.unroundedPayment`, `Annuity.roundedPayment`, `Annuity.Monthly`.
Key theorems: `Annuity.monthlyRate_rat`, `Annuity.payment_rat`,
`Annuity.roundedRate_mono`, `Annuity.roundedPayment_mono_principal`.
-/

namespace LoanDesk
namespace Annuity

open Decimal

/-- The monthly rate that an annual rate in percent comes to. -/
def roundedRate (annual : ℚ) : ℚ :=
  nearest Money.precision (nearest Money.precision (annual / 12) / 100)

/-- The digits that a payment at a monthly rate is computed with. -/
def ratePrecision (rate : ℚ) : ℕ :=
  Money.precision + (max 0 (-Int.log 10 rate)).toNat + guardDigits

/-- What one grows to over the term, at a precision. -/
def roundedGrowth (p : ℕ) (rate : ℚ) (months : ℕ) : ℚ := nearest p ((1 + rate) ^ months)

/-- The payment with interest before it is rounded to the cent. -/
def interestAmount (p : ℕ) (principal rate : ℚ) (months : ℕ) : ℚ :=
  nearest p (nearest p (principal * nearest p (rate * roundedGrowth p rate months)) /
    nearest p (roundedGrowth p rate months - 1))

/-- The payment before it is rounded to the cent. A rate with too many leading zeros counts as
none. -/
def unroundedPayment (principal rate : ℚ) (months : ℕ) : ℚ :=
  if rate < 10 ^ (-mostLeadingZeros) then nearest Money.precision (principal / months)
  else interestAmount (ratePrecision rate) principal rate months

/-- The payment that the principal and the monthly rate come to. -/
def roundedPayment (principal rate : ℚ) (months : ℕ) : ℚ :=
  toPlace Money.centPlace (unroundedPayment principal rate months)

/-! ### What is computed is that function -/

variable {P R r : Decimal} {n : ℕ}

theorem monthlyRate_rat (h : monthlyRate R = .ok r) : r.rat = roundedRate R.rat := by
  have h12 : monthsPerYear.rat = 12 := rat_ofNat 12
  have h100 : percent.rat = 100 := rat_ofNat 100
  obtain ⟨y, hy, hr⟩ : ∃ y, R.div Money.precision monthsPerYear = .ok y ∧
      y.div Money.precision percent = .ok r := by
    unfold monthlyRate at h
    cases hy : R.div Money.precision monthsPerYear with
    | error => rw [hy] at h; cases h
    | ok y => exact ⟨y, rfl, by rw [hy] at h; exact h⟩
  rw [div_rat (by decide) hr, div_rat (by decide) hy, h12, h100, roundedRate]

theorem roundedRate_mono {ρ σ : ℚ} (h : ρ ≤ σ) : roundedRate ρ ≤ roundedRate σ := by
  have hyear := nearest_mono (p := Money.precision) (by decide)
    (div_le_div_of_nonneg_right h (by norm_num : (0 : ℚ) ≤ 12))
  exact nearest_mono (by decide) (div_le_div_of_nonneg_right hyear (by norm_num))

theorem plainPayment_rat {m : Decimal} (h : plainPayment P n = .ok m) :
    m.rat = toPlace Money.centPlace (nearest Money.precision (P.rat / n)) := by
  unfold plainPayment at h
  cases hq : P.div Money.precision (ofNat n) with
  | error => rw [hq] at h; cases h
  | ok q =>
    rw [hq] at h
    rw [roundedAt_rat h, div_rat (by decide) hq, rat_ofNat]

namespace Earning

variable (hr : Earning r)
include hr

theorem workingPrecision_rat : workingPrecision r = ratePrecision r.rat := by
  have hlog := log_abs_rat hr.coefficient_pos
  rw [abs_of_pos hr.pos] at hlog
  unfold workingPrecision leadingZeros ratePrecision
  rw [isZero_eq_false.mpr hr.coefficient_pos, hlog]
  rfl

theorem one_le_workingPrecision : 1 ≤ workingPrecision r := by
  have := hr.workingPrecision_eq
  have := hr.adjusted_neg
  omega

theorem roundedGrowth_ge_one : 1 ≤ roundedGrowth (workingPrecision r) r.rat n := by
  have hp := hr.one_le_workingPrecision
  have hone : nearest (workingPrecision r) 1 = 1 := by
    refine nearest_eq_self (k := 1) (e := 0) ?_ (by norm_num) ?_
    · unfold tiniest lowest
      omega
    · rw [abs_one, zero_add]
      exact one_lt_zpow₀ (by norm_num) (by omega)
  rw [← hone]
  exact nearest_mono hp hr.one_le_growth

/-- The steps of the payment with interest give its amount, which is near the exact one. -/
theorem exists_interestAmount (h : Standard P R n) : ∃ q : Decimal,
    interestPayment P r n = Money.centsAt (workingPrecision r) q ∧
      q.rat = interestAmount (workingPrecision r) P.rat r.rat n ∧
      Near (1 / 10 ^ 46) (1 / 10 ^ 90) (exactPayment P.rat r.rat n) q.rat := by
  have hp := hr.one_le_workingPrecision
  have hprec := hr.workingPrecision_eq
  have hneg := hr.adjusted_neg
  have hge := hr.adjusted_ge
  obtain ⟨o, g, c, w, e, q, ho, hg, hc, hw, he, hq, horat, -, hnear⟩ := hr.exists_unrounded h
  obtain ⟨o', ho', -, hodigits⟩ := hr.exists_one_add
  obtain rfl : o = o' := Except.ok.inj (ho.symm.trans ho')
  have hroom : o.digits * n ≤ powerRoom := by
    calc o.digits * n ≤ 1056 * 240 := Nat.mul_le_mul (by omega) h.months_le
      _ ≤ powerRoom := by decide
  have hgrat : g.rat = roundedGrowth (workingPrecision r) r.rat n := by
    rw [pow_rat hp (by rw [horat]; linarith [hr.pos]) hroom hg, horat, roundedGrowth]
  have hg1 : 1 ≤ g.rat := hgrat ▸ hr.roundedGrowth_ge_one
  -- the growth is no less than one and no more than ten million, so one is not far below it
  have hg7 : g.rat ≤ 10 ^ 7 := by
    have herr := nearest_error (workingPrecision r) ((1 + r.rat) ^ n)
    have hG := hr.growth_le h.months_le
    have hG1 := hr.one_le_growth (n := n)
    have hunit : (10 : ℚ) ^ (1 - workingPrecision r : ℤ) ≤ 1 :=
      zpow_le_one_of_nonpos₀ (by norm_num) (by omega)
    have htiny := (pow_tiniest_le hp).trans (speck_le 1 (by norm_num))
    have hlost := mul_le_mul_of_nonneg_left hunit (by linarith : 0 ≤ (1 + r.rat) ^ n)
    rw [abs_of_nonneg (by linarith : 0 ≤ (1 + r.rat) ^ n)] at herr
    rw [hgrat, roundedGrowth]
    linarith [(abs_le.mp herr).2]
  have hgcoeff : 0 < g.coefficient := (rat_pos_iff.mp (by linarith : 0 < g.rat)).2
  have habs : |g.rat| = g.rat := abs_of_pos (by linarith)
  have hadj0 : 0 ≤ g.adjusted := le_adjusted (by rw [habs]; norm_num; linarith)
  have hadj8 : g.adjusted < 8 := adjusted_lt hgcoeff (by rw [habs]; norm_num; linarith)
  have hadj1 : adjusted (negate 1) = 0 := adjusted_one
  have herat : e.rat = nearest (workingPrecision r) (g.rat - 1) := by
    rw [add_rat hp (fun _ _ => ⟨by omega, by omega⟩) he, rat_negate,
      show rat 1 = 1 from rat_ofNat 1, ← sub_eq_add_neg]
  refine ⟨q, interestPayment_eq ho hg hc hw he hq, ?_, hnear⟩
  rw [div_rat hp hq, mul_rat hp hw, mul_rat hp hc, herat, hgrat, interestAmount]

end Earning

/-- What the monthly rate of an accepted annual rate is like. -/
structure Monthly (r : Decimal) : Prop where
  digits_le : r.digits ≤ 28
  nonneg : 0 ≤ r.rat
  le : r.rat ≤ 1 / 20

theorem Standard.monthly (h : Standard P R n) (hr : monthlyRate R = .ok r) : Monthly r := by
  obtain ⟨r', hr', h0, hle, hdigits, -⟩ := h.exists_rate
  obtain rfl : r = r' := Except.ok.inj (hr.symm.trans hr')
  exact ⟨hdigits, h0, hle⟩

/-- A rate that is not below the ones that count as none is one that earns. -/
theorem Monthly.earning (hr : Monthly r) (h : (10 : ℚ) ^ (-mostLeadingZeros) ≤ r.rat) :
    Earning r := by
  have hpos : 0 < r.rat := (zpow_pos (by norm_num) _).trans_le h
  refine ⟨hr.digits_le, hpos, hr.le, le_adjusted ?_⟩
  rwa [abs_of_pos hpos]

/-- Rates count as none by their amount: those below `10 ^ (-mostLeadingZeros)`. -/
theorem counts_as_none_iff (h0 : 0 ≤ r.rat) :
    (r.isZero || mostLeadingZeros < leadingZeros r) = true ↔
      r.rat < 10 ^ (-mostLeadingZeros) := by
  rcases Nat.eq_zero_or_pos r.coefficient with hz | hz
  · rw [isZero_iff.mpr hz, Bool.true_or, rat_eq_zero_iff.mpr hz]
    simpa using zpow_pos (by norm_num : (0 : ℚ) < 10) (-mostLeadingZeros)
  · have hpos : 0 < r.rat := lt_of_le_of_ne h0 (Ne.symm (mt rat_eq_zero_iff.mp hz.ne'))
    have hlog := log_abs_rat hz
    rw [abs_of_pos hpos] at hlog
    rw [← log_lt_iff hpos, hlog, isZero_eq_false.mpr hz, Bool.false_or, decide_eq_true_eq,
      leadingZeros, isZero_eq_false.mpr hz]
    simp only [Bool.false_eq_true, if_false]
    omega

/-- The payment of accepted terms is a function of the amounts, `roundedPayment`. -/
theorem payment_rat {m : Decimal} (h : Standard P R n) (hr : monthlyRate R = .ok r)
    (hm : payment P R n = .ok m) : m.rat = roundedPayment P.rat r.rat n := by
  have hmonthly := h.monthly hr
  have hcases : payment P R n =
      if r.isZero || mostLeadingZeros < leadingZeros r then plainPayment P n
      else interestPayment P r n := by
    unfold payment
    rw [hr]
    rfl
  rw [hcases] at hm
  unfold roundedPayment unroundedPayment
  by_cases hnone : r.rat < 10 ^ (-mostLeadingZeros)
  · rw [if_pos ((counts_as_none_iff hmonthly.nonneg).mpr hnone)] at hm
    rw [if_pos hnone, plainPayment_rat hm]
  · rw [if_neg (mt (counts_as_none_iff hmonthly.nonneg).mp hnone)] at hm
    have hearning := hmonthly.earning (not_lt.mp hnone)
    obtain ⟨q, hq, hqrat, -⟩ := hearning.exists_interestAmount h
    rw [hq] at hm
    rw [if_neg hnone, roundedAt_rat hm, hqrat, hearning.workingPrecision_rat]

theorem Earning.unroundedPayment_eq (hr : Earning r) (P : ℚ) (n : ℕ) :
    unroundedPayment P r.rat n = interestAmount (workingPrecision r) P r.rat n := by
  have hlow : (10 : ℚ) ^ (-mostLeadingZeros) ≤ r.rat := by
    refine le_trans (zpow_le_zpow_right₀ (by norm_num) ?_) hr.pow_adjusted_le
    exact hr.adjusted_ge
  rw [unroundedPayment, if_neg (not_lt.mpr hlow), hr.workingPrecision_rat]

/-- Before it is rounded to the cent the payment is near the exact one. -/
theorem Earning.unroundedPayment_near (hr : Earning r) (h : Standard P R n) :
    Near (1 / 10 ^ 46) (1 / 10 ^ 90) (exactPayment P.rat r.rat n)
      (unroundedPayment P.rat r.rat n) := by
  obtain ⟨q, -, hq, hnear⟩ := hr.exists_interestAmount h
  rwa [hr.unroundedPayment_eq, ← hq]

/-! ### The payment grows with the principal -/

theorem interestAmount_mono {p : ℕ} {P Q ρ : ℚ} (hp : 1 ≤ p) (hρ : 0 ≤ ρ)
    (hg : 1 ≤ roundedGrowth p ρ n) (h : P ≤ Q) :
    interestAmount p P ρ n ≤ interestAmount p Q ρ n := by
  have hcharged : 0 ≤ nearest p (ρ * roundedGrowth p ρ n) :=
    nearest_nonneg p (mul_nonneg hρ (by linarith))
  have hearned : 0 ≤ nearest p (roundedGrowth p ρ n - 1) := nearest_nonneg p (by linarith)
  have hweighted := nearest_mono hp (mul_le_mul_of_nonneg_right h hcharged)
  exact nearest_mono hp (div_le_div_of_nonneg_right hweighted hearned)

theorem roundedPayment_mono_principal {P Q : ℚ} (hr : Monthly r) (h : P ≤ Q) :
    roundedPayment P r.rat n ≤ roundedPayment Q r.rat n := by
  refine toPlace_mono ?_
  by_cases hnone : r.rat < 10 ^ (-mostLeadingZeros)
  · unfold unroundedPayment
    rw [if_pos hnone, if_pos hnone]
    exact nearest_mono (by decide) (div_le_div_of_nonneg_right h n.cast_nonneg)
  · have hr := hr.earning (not_lt.mp hnone)
    rw [hr.unroundedPayment_eq, hr.unroundedPayment_eq]
    exact interestAmount_mono hr.one_le_workingPrecision hr.pos.le hr.roundedGrowth_ge_one h

end Annuity
end LoanDesk
