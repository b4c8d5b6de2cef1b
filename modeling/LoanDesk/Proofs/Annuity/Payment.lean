import LoanDesk.Proofs.Annuity.Exact
import LoanDesk.Proofs.Decimal.Arith
import LoanDesk.Proofs.Loan.Limits

/-
# The payment to the cent

Every step of the computation moves the number by a small part of itself. The one step
that could lose more is the subtraction in `(1 + r) ^ n - 1`: the power is off by a part
of a number near one, and the difference is about `n * r`. The working precision holds
as many more digits as `r` has zeros behind the point, so the power is off by a small
part of `r` itself.

Key definitions: `Annuity.Standard`, `Annuity.speck`.
Key theorems: `Annuity.exists_monthlyRate`, `Annuity.exists_interestPayment`,
`Annuity.exists_plainPayment`, `Annuity.paymentFor_to_the_cent`.
-/

namespace LoanDesk
namespace Annuity

open Decimal

/-! ### The rounding of each operation -/

/-- What a number out of range below may lose beyond its last digit. -/
def speck : ℚ := 10 ^ lowest

theorem speck_pos : 0 < speck := zpow_pos (by norm_num) _

theorem pow_tiniest_le {p : ℕ} (hp : 1 ≤ p) : (10 : ℚ) ^ tiniest p ≤ speck :=
  zpow_le_zpow_right₀ (by norm_num) (by unfold tiniest; omega)

theorem speck_le (k : ℕ) (hk : k ≤ 999999) : speck ≤ 1 / 10 ^ k := by
  rw [one_div, ← zpow_natCast, ← zpow_neg]
  exact zpow_le_zpow_right₀ (by norm_num) (by unfold lowest; omega)

/-- A bound that no number on the way to a payment comes near. -/
def vast : ℚ := 10 ^ 2000

theorem pow_le_vast (k : ℕ) (hk : k ≤ 2000) : (10 : ℚ) ^ k ≤ vast :=
  pow_le_pow_right₀ (by norm_num) hk

theorem lt_pow_highest {x : ℚ} (h : x ≤ vast) : x < 10 ^ (highest - 1) := by
  refine h.trans_lt ?_
  rw [vast, ← zpow_natCast]
  exact zpow_lt_zpow_right₀ (by norm_num) (by unfold highest; norm_num)

variable {p : ℕ} {a b d r : Decimal}

theorem exists_div_near (hp : 1 ≤ p) (ha : 0 ≤ a.rat) (hb : 0 < b.rat)
    (h : a.rat / b.rat ≤ vast) : ∃ r, a.div p b = .ok r ∧ r.digits ≤ p ∧ 0 ≤ r.rat ∧
      Near (10 ^ (1 - p : ℤ)) speck (a.rat / b.rat) r.rat := by
  have hx : |a.rat / b.rat| = a.rat / b.rat := abs_of_nonneg (div_nonneg ha hb.le)
  obtain ⟨r, hr, hdigits, herr⟩ := exists_div hp hb.ne' (by rw [hx]; exact lt_pow_highest h)
  refine ⟨r, hr, hdigits, div_rat_nonneg ha hb hr, ?_⟩
  rw [hx] at herr
  unfold Near
  have := pow_tiniest_le hp
  linarith [mul_comm (a.rat / b.rat) ((10 : ℚ) ^ (1 - p : ℤ))]

/-- What is rounded to the precision by `fit` stays near and does not become negative. -/
theorem exists_fit_near (hp : 1 ≤ p) (hd : 0 < d.rat) (h : d.rat ≤ vast) :
    ∃ r, fit p d = .ok r ∧ r.digits ≤ p ∧ 0 ≤ r.rat ∧
      Near (10 ^ (1 - p : ℤ)) speck d.rat r.rat := by
  obtain ⟨hneg, hcoeff⟩ := rat_pos_iff.mp hd
  have habs : |d.rat| = d.rat := abs_of_pos hd
  have hlt := adjusted_lt hcoeff (by rw [habs]; exact lt_pow_highest h)
  obtain ⟨r, hr⟩ := exists_fit (p := p) (d := d) hp (by omega)
  have herr := fit_error hp hr
  refine ⟨r, hr, fit_digits_le hp hr, rat_nonneg ((fit_negative hr).trans hneg), ?_⟩
  rw [habs] at herr
  unfold Near
  have h1 := pow_tiniest_le hp
  have h2 : 0 ≤ d.rat * 10 ^ (1 - p : ℤ) := mul_nonneg hd.le (zpow_pos (by norm_num) _).le
  have h3 := speck_pos
  linarith [mul_comm d.rat ((10 : ℚ) ^ (1 - p : ℤ))]

theorem exists_mul_near (hp : 1 ≤ p) (ha : 0 < a.rat) (hb : 0 < b.rat)
    (h : a.rat * b.rat ≤ vast) : ∃ r, a.mul p b = .ok r ∧ r.digits ≤ p ∧ 0 ≤ r.rat ∧
      Near (10 ^ (1 - p : ℤ)) speck (a.rat * b.rat) r.rat := by
  rw [← rat_exactProduct] at h ⊢
  exact exists_fit_near hp (by rw [rat_exactProduct]; exact mul_pos ha hb) h

/-- An amount of no more than `10 ^ 20` is rounded to the cent. -/
theorem exists_cents_near (hp : 28 ≤ p) (hd : |d.rat| ≤ 10 ^ 20) :
    ∃ m, Money.centsAt p d = .ok m ∧ m.exponent = -2 ∧ m.negative = d.negative ∧
      |m.rat - d.rat| ≤ 5 / 1000 := by
  have hlt : |d.rat| < 10 ^ (Money.centPlace + p - 1) := by
    refine hd.trans_lt ?_
    rw [← zpow_natCast]
    exact zpow_lt_zpow_right₀ (by norm_num) (by unfold Money.centPlace; omega)
  obtain ⟨m, hm⟩ := exists_roundedAt (by omega) hlt
  obtain ⟨hexp, hneg, herr⟩ := roundedAt_spec hm
  refine ⟨m, hm, hexp, hneg, herr.trans_eq ?_⟩
  norm_num [Money.centPlace]

/-! ### The terms of a loan -/

/-- The terms that are accepted: more than nothing and at most a hundred million, at up to fifty
percent, for one to two hundred and forty months. -/
structure Standard (principal annual : Decimal) (months : ℕ) : Prop where
  principal_pos : 0 < principal.rat
  principal_le : principal.rat ≤ 10 ^ 8
  annual_nonneg : 0 ≤ annual.rat
  annual_le : annual.rat ≤ 50
  months_pos : 1 ≤ months
  months_le : months ≤ 240

variable {P R : Decimal} {n : ℕ}

theorem standard_of_check {term : ℤ} (h : Loan.Limits.standard.check
    ⟨.decimal (.finite P), .decimal (.finite R), .int term⟩ = .ok ()) :
    Standard P R term.toNat ∧ 1 ≤ term := by
  obtain ⟨⟨h1, h2⟩, ⟨h3, h4⟩, h5, h6⟩ := (Loan.Limits.check_standard_iff P R term).mp h
  exact ⟨⟨h1, by linarith, h3, h4, by omega, by omega⟩, h5⟩

/-- The monthly rate is near a twelfth of a hundredth of the annual one. -/
theorem exists_monthlyRate (h0 : 0 ≤ R.rat) (h50 : R.rat ≤ 50) :
    ∃ r, monthlyRate R = .ok r ∧ r.digits ≤ 28 ∧ 0 ≤ r.rat ∧
      Near (3 / 10 ^ 27) (2 * speck) (R.rat / 1200) r.rat := by
  have h12 : monthsPerYear.rat = 12 := rat_ofNat 12
  have h100 : percent.rat = 100 := rat_ofNat 100
  have hvast := pow_le_vast 2 (by norm_num)
  have hspeck := speck_le 1 (by norm_num)
  have hspeck0 := speck_pos
  obtain ⟨y, hy, -, hy0, hynear⟩ := exists_div_near (p := 28) (a := R) (b := monthsPerYear)
    (by norm_num) h0 (by rw [h12]; norm_num) (by rw [h12]; linarith)
  rw [h12] at hynear
  have hy1 := hynear.le
  norm_num at hy1
  obtain ⟨r, hr, hdigits, hr0, hrnear⟩ := exists_div_near (p := 28) (a := y) (b := percent)
    (by norm_num) hy0 (by rw [h100]; norm_num) (by rw [h100]; linarith)
  rw [h100] at hrnear
  refine ⟨r, ?_, hdigits, hr0, ?_⟩
  · unfold monthlyRate
    rw [show Money.precision = 28 from rfl, hy]
    exact hr
  · have h1 := hynear.mul_left (by norm_num : (0 : ℚ) ≤ 1 / 100)
    rw [show 1 / 100 * (R.rat / 12) = R.rat / 1200 by ring,
      show 1 / 100 * y.rat = y.rat / 100 by ring] at h1
    have h2 := h1.trans hrnear (zpow_pos (by norm_num) _).le
    refine h2.mono (by linarith) (by norm_num) ?_
    norm_num
    linarith

/-! ### Without interest -/

theorem exists_plainPayment (h : Standard P R n) : ∃ m, plainPayment P n = .ok m ∧
    m.exponent = -2 ∧ |m.rat - P.rat / n| ≤ 5 / 1000 + 2 / 10 ^ 19 := by
  have hn : (1 : ℚ) ≤ n := by exact_mod_cast h.months_pos
  have hP0 := h.principal_pos
  have hP := h.principal_le
  have hx0 : 0 ≤ P.rat / n := div_nonneg hP0.le (by linarith)
  have hx : P.rat / n ≤ 10 ^ 8 := (div_le_self hP0.le hn).trans hP
  have hvast := pow_le_vast 8 (by norm_num)
  have hspeck := speck_le 19 (by norm_num)
  obtain ⟨q, hq, -, hq0, hnear⟩ := exists_div_near (p := 28) (a := P) (b := ofNat n) (by norm_num)
    hP0.le (by rw [rat_ofNat]; linarith) (by rw [rat_ofNat]; linarith)
  rw [rat_ofNat] at hnear
  have herr : |q.rat - P.rat / n| ≤ 2 / 10 ^ 19 := by
    refine le_trans hnear ?_
    norm_num
    linarith
  have hqle := hnear.le
  norm_num at hqle
  obtain ⟨m, hm, hexp, -, hcents⟩ := exists_cents_near (p := 28) (d := q) le_rfl (by
    rw [abs_of_nonneg hq0]
    linarith)
  refine ⟨m, ?_, hexp, ?_⟩
  · unfold plainPayment
    rw [show Money.precision = 28 from rfl, hq]
    exact hm
  · linarith [abs_sub_le m.rat q.rat (P.rat / n)]

/-! ### With interest -/

theorem interestPayment_eq {o g c w e q : Decimal} (ho : add (workingPrecision r) 1 r = .ok o)
    (hg : o.pow (workingPrecision r) n = .ok g) (hc : r.mul (workingPrecision r) g = .ok c)
    (hw : P.mul (workingPrecision r) c = .ok w) (he : g.sub (workingPrecision r) 1 = .ok e)
    (hq : w.div (workingPrecision r) e = .ok q) :
    interestPayment P r n = Money.centsAt (workingPrecision r) q := by
  unfold interestPayment
  simp only [bind, Except.bind, ho, hg, hc, hw, he, hq]

/-- A monthly rate of no more than a twentieth, above the rates that count as none. -/
structure Earning (r : Decimal) : Prop where
  digits_le : r.digits ≤ 28
  pos : 0 < r.rat
  le : r.rat ≤ 1 / 20
  adjusted_ge : -1000 ≤ r.adjusted

namespace Earning

variable (hr : Earning r)
include hr

theorem coefficient_pos : 0 < r.coefficient := (rat_pos_iff.mp hr.pos).2

theorem adjusted_neg : r.adjusted < 0 := by
  refine adjusted_lt hr.coefficient_pos ?_
  rw [abs_of_pos hr.pos]
  have := hr.le
  norm_num
  linarith

/-- The working precision counts the zeros of the rate. -/
theorem workingPrecision_eq : (workingPrecision r : ℤ) = 56 - r.adjusted := by
  have h := hr.adjusted_neg
  unfold workingPrecision leadingZeros
  rw [isZero_eq_false.mpr hr.coefficient_pos]
  simp only [Bool.false_eq_true, if_false, Money.precision, guardDigits]
  omega

theorem pow_adjusted_le : (10 : ℚ) ^ r.adjusted ≤ r.rat := by
  have := pow_le_abs_rat hr.coefficient_pos
  rwa [abs_of_pos hr.pos] at this

/-- The last digit at the working precision is far below the rate. -/
theorem unit_le : (10 : ℚ) ^ (1 - workingPrecision r : ℤ) ≤ r.rat / 10 ^ 55 := by
  have h : (10 : ℚ) ^ (1 - workingPrecision r : ℤ) = 10 ^ r.adjusted / 10 ^ 55 := by
    rw [hr.workingPrecision_eq, show (1 - (56 - r.adjusted) : ℤ) = r.adjusted - 55 by ring,
      zpow_sub₀ (by norm_num)]
    norm_cast
  rw [h]
  exact div_le_div_of_nonneg_right hr.pow_adjusted_le (by positivity)

theorem speck_le_rate : speck ≤ r.rat / 10 ^ 200 := by
  have h1 : speck ≤ 10 ^ r.adjusted / 10 ^ 200 := by
    rw [← zpow_natCast, ← zpow_sub₀ (by norm_num)]
    refine zpow_le_zpow_right₀ (by norm_num) ?_
    have := hr.adjusted_ge
    unfold lowest
    push_cast
    omega
  exact h1.trans (div_le_div_of_nonneg_right hr.pow_adjusted_le (by positivity))

/-- One and the rate have room at the working precision, so the sum is exact. -/
theorem exists_one_add : ∃ o, add (workingPrecision r) 1 r = .ok o ∧ o.rat = 1 + r.rat ∧
    o.digits ≤ workingPrecision r := by
  have hp := hr.workingPrecision_eq
  have hneg := hr.adjusted_neg
  have hge := hr.adjusted_ge
  have hdigits := hr.digits_le
  have hpos := r.digits_pos
  have hle := hr.le
  have hr0 := hr.pos
  have hone := adjusted_one
  have hcoeff : 0 < coefficient 1 := Nat.one_pos
  have hadj : r.adjusted = r.exponent + r.digits - 1 := rfl
  have hexp : (exactSum 1 r).exponent = r.exponent := by
    rw [exactSum_exponent, show exponent 1 = 0 from rfl]
    omega
  have hrat : (exactSum 1 r).rat = 1 + r.rat := by
    rw [rat_exactSum, show rat 1 = 1 from rat_ofNat 1]
  have hd : (exactSum 1 r).digits ≤ workingPrecision r := by
    refine digits_le_of_abs_rat_lt (by omega) ?_
    rw [hrat, hexp, abs_of_pos (by linarith)]
    calc 1 + r.rat < 10 ^ (1 : ℤ) := by norm_num; linarith
      _ ≤ 10 ^ (r.exponent + workingPrecision r) := zpow_le_zpow_right₀ (by norm_num) (by omega)
  refine ⟨exactSum 1 r, ?_, hrat, hd⟩
  rw [add_eq_fit hcoeff hr.coefficient_pos (by omega) (by omega)]
  refine fit_eq_self hd ?_ ?_
  · rw [hexp]
    unfold tiniest lowest
    omega
  · unfold adjusted highest
    omega

/-! The growth of one over the term, and what it earns. -/

theorem one_le_growth : 1 ≤ (1 + r.rat) ^ n := one_le_pow₀ (by linarith [hr.pos])

theorem growth_le (hn : n ≤ 240) : (1 + r.rat) ^ n ≤ 10 ^ 6 := by
  have hle := hr.le
  have hpos := hr.pos
  calc (1 + r.rat) ^ n ≤ (21 / 20) ^ n := pow_le_pow_left₀ (by linarith) (by linarith) n
    _ ≤ (21 / 20) ^ 240 := pow_le_pow_right₀ (by norm_num) hn
    _ ≤ 10 ^ 6 := by norm_num

theorem le_earned (hn : 1 ≤ n) : r.rat ≤ (1 + r.rat) ^ n - 1 := by
  have h := one_add_mul_le_pow (by linarith [hr.pos] : (-2 : ℚ) ≤ r.rat) n
  have hn' : (1 : ℚ) ≤ n := by exact_mod_cast hn
  have := mul_le_mul_of_nonneg_right hn' hr.pos.le
  linarith

/-- The power is off by a small part of the rate, as it is rounded once (`pow_eq_fit`). -/
theorem exists_growth (hn : n ≤ 240) {o : Decimal} (ho : o.rat = 1 + r.rat)
    (hd : o.digits ≤ workingPrecision r) : ∃ g, o.pow (workingPrecision r) n = .ok g ∧
      Near (r.rat / 10 ^ 54) 0 ((1 + r.rat) ^ n) g.rat := by
  have hp := hr.workingPrecision_eq
  have hge := hr.adjusted_ge
  have hneg := hr.adjusted_neg
  have hr0 := hr.pos
  have hG1 := hr.one_le_growth (n := n)
  have hG := hr.growth_le hn
  have hvast := pow_le_vast 6 (by norm_num)
  obtain ⟨honeg, hocoeff⟩ := rat_pos_iff.mp (by rw [ho]; linarith : 0 < o.rat)
  have hroom : o.digits * n ≤ powerRoom := by
    calc o.digits * n ≤ 1056 * 240 := Nat.mul_le_mul (by omega) hn
      _ ≤ powerRoom := by decide
  have hrat : (exactPower o n).rat = (1 + r.rat) ^ n := by rw [rat_exactPower honeg, ho]
  obtain ⟨g, hg, -, -, hnear⟩ := exists_fit_near (p := workingPrecision r) (d := exactPower o n)
    (by omega) (by rw [hrat]; linarith) (by rw [hrat]; linarith)
  rw [hrat] at hnear
  refine ⟨g, by rw [pow_eq_fit hocoeff hroom, hg], ?_⟩
  have hunit := hr.unit_le
  have hspeck := hr.speck_le_rate
  refine (hnear.absorb (b := r.rat / 10 ^ 200) ?_).mono (by linarith) ?_ le_rfl
  · have := mul_le_mul_of_nonneg_left hG1 (by positivity : 0 ≤ r.rat / 10 ^ 200)
    linarith
  · have : r.rat / 10 ^ 200 ≤ r.rat / 10 ^ 55 :=
      div_le_div_of_nonneg_left hr0.le (by positivity) (by norm_num)
    linarith

/-- So the difference is off by a small part of itself. -/
theorem exists_earned (h1 : 1 ≤ n) (hn : n ≤ 240) {g : Decimal}
    (hg : Near (r.rat / 10 ^ 54) 0 ((1 + r.rat) ^ n) g.rat) :
    ∃ e, sub (workingPrecision r) g 1 = .ok e ∧
      Near (1 / 10 ^ 47) 0 ((1 + r.rat) ^ n - 1) e.rat := by
  have hp := hr.workingPrecision_eq
  have hge := hr.adjusted_ge
  have hneg := hr.adjusted_neg
  have hr0 := hr.pos
  have hrle := hr.le
  have hE := hr.le_earned h1
  have hG := hr.growth_le hn
  have hvast := pow_le_vast 7 (by norm_num)
  have hoff : r.rat / 10 ^ 54 * (1 + r.rat) ^ n ≤ r.rat / 10 ^ 48 := by
    calc r.rat / 10 ^ 54 * (1 + r.rat) ^ n ≤ r.rat / 10 ^ 54 * 10 ^ 6 :=
          mul_le_mul_of_nonneg_left hG (by positivity)
      _ = r.rat / 10 ^ 48 := by ring
  have hgE : Near (1 / 10 ^ 48) 0 ((1 + r.rat) ^ n - 1) (g.rat - 1) := by
    unfold Near at *
    rw [sub_sub_sub_cancel_right]
    linarith
  have hglow := hgE.ge
  have hghigh := hgE.le
  have hone : rat (negate 1) = -1 := by rw [rat_negate, show rat 1 = 1 from rat_ofNat 1]
  have hrat : (exactSum g (negate 1)).rat = g.rat - 1 := by rw [rat_exactSum, hone, sub_eq_add_neg]
  have hgcoeff : 0 < g.coefficient := (rat_pos_iff.mp (by linarith : 0 < g.rat)).2
  have habs : |g.rat| = g.rat := abs_of_pos (by linarith)
  have hadj0 : 0 ≤ g.adjusted := le_adjusted (by rw [habs]; norm_num; linarith)
  have hadj7 : g.adjusted < 7 := adjusted_lt hgcoeff (by rw [habs]; norm_num; linarith)
  have hadj1 : adjusted (negate 1) = 0 := adjusted_one
  have hcoeff : 0 < (negate 1).coefficient := Nat.one_pos
  obtain ⟨e, he, -, -, hnear⟩ := exists_fit_near (p := workingPrecision r)
    (d := exactSum g (negate 1)) (by omega) (by rw [hrat]; linarith) (by rw [hrat]; linarith)
  rw [hrat] at hnear
  refine ⟨e, ?_, ?_⟩
  · unfold sub
    rw [add_eq_fit hgcoeff hcoeff (by omega) (by omega), he]
  · have hunit := hr.unit_le
    have hspeck := hr.speck_le_rate
    have hall := hgE.trans hnear (zpow_pos (by norm_num) _).le
    refine (hall.absorb (b := 1 / 10 ^ 200) ?_).mono (by linarith) ?_ le_rfl
    · linarith
    · norm_num at hunit ⊢
      linarith

/-- The weighted growth divided by what it earns is near the `exactPayment`. -/
theorem near_exactPayment (h1 : 1 ≤ n) {P w e : ℚ} (hP : 0 ≤ P)
    (hw : Near (1 / 10 ^ 52) (2 * speck) (P * (r.rat * (1 + r.rat) ^ n)) w)
    (he : Near (1 / 10 ^ 47) 0 ((1 + r.rat) ^ n - 1) e) :
    0 < e ∧ Near (3 / 10 ^ 47) (1 / 10 ^ 100) (exactPayment P r.rat n) (w / e) := by
  have hr0 := hr.pos
  have hrle := hr.le
  have hE := hr.le_earned h1
  have hspeck := hr.speck_le_rate
  have hspeck0 := speck_pos
  have hX : exactPayment P r.rat n =
      P * (r.rat * (1 + r.rat) ^ n) * ((1 + r.rat) ^ n - 1)⁻¹ := by
    rw [exactPayment, if_neg hr0.ne', div_eq_mul_inv, mul_assoc P]
  have hA := exactPayment_nonneg hP hr0.le h1
  rw [hX] at hA ⊢
  generalize P * (r.rat * (1 + r.rat) ^ n) = X at hw hA ⊢
  generalize (1 + r.rat) ^ n - 1 = E at hE he hA ⊢
  have hE0 : 0 < E := by linarith
  have heinv := he.inv hE0 (by norm_num) (by norm_num)
  have he2 := he.ge
  have hehalf : r.rat / 2 ≤ e := by
    norm_num at he2
    linarith
  have he0 : 0 < e := by linarith
  have hinv0 : 0 ≤ e⁻¹ := (inv_pos.mpr he0).le
  have hX0 : 0 ≤ X := by
    have := mul_nonneg hA hE0.le
    rwa [inv_mul_cancel_right₀ hE0.ne'] at this
  have hlost : e⁻¹ * (2 * speck) ≤ 4 / 10 ^ 200 := by
    rw [inv_mul_le_iff₀ he0]
    linarith
  have hwe := hw.mul_left hinv0
  rw [mul_comm _ X, mul_comm _ w, ← div_eq_mul_inv w] at hwe
  refine ⟨he0, ((heinv.mul_left hX0).trans hwe (by norm_num)).mono hA (by norm_num) ?_⟩
  norm_num at hlost ⊢
  linarith

theorem exactPayment_le (h : Standard P R n) : exactPayment P.rat r.rat n ≤ 10 ^ 9 := by
  have hle := Annuity.exactPayment_le h.principal_pos.le hr.pos.le h.months_pos
  have hgrown : P.rat * (1 + r.rat) ≤ 10 ^ 8 * (21 / 20) :=
    mul_le_mul h.principal_le (by linarith [hr.le]) (by linarith [hr.pos]) (by norm_num)
  linarith

theorem unit_le_pow : (10 : ℚ) ^ (1 - workingPrecision r : ℤ) ≤ 1 / 10 ^ 55 := by
  have hrle := hr.le
  exact hr.unit_le.trans (div_le_div_of_nonneg_right (by linarith) (by norm_num))

/-- The interest on the power is near the rate of the exact growth. -/
theorem exists_borne (hn : n ≤ 240) {g : Decimal}
    (hg : Near (r.rat / 10 ^ 54) 0 ((1 + r.rat) ^ n) g.rat) :
    ∃ c, r.mul (workingPrecision r) g = .ok c ∧ 0 < c.rat ∧ c.rat ≤ 10 ^ 8 ∧
      Near (2 / 10 ^ 54) 0 (r.rat * (1 + r.rat) ^ n) c.rat := by
  have hp := hr.workingPrecision_eq
  have hneg := hr.adjusted_neg
  have hr0 := hr.pos
  have hrle := hr.le
  have hspeck := hr.speck_le_rate
  have hunit := hr.unit_le_pow
  have hG1 := hr.one_le_growth (n := n)
  have hG := hr.growth_le hn
  have hvast := pow_le_vast 30 (by norm_num)
  have hg' := hg.mono (b := 1 / 10 ^ 54) (by linarith)
    (div_le_div_of_nonneg_right (by linarith) (by norm_num)) le_rfl
  have hglow := hg'.ge
  have hghigh := hg'.le
  have hrg0 : r.rat / 2 ≤ r.rat * g.rat := by nlinarith
  have hrg7 : r.rat * g.rat ≤ 10 ^ 7 := by nlinarith
  obtain ⟨c, hc, -, -, hcnear⟩ := exists_mul_near (p := workingPrecision r) (a := r) (b := g)
    (by omega) hr0 (by linarith) (by linarith)
  have hcnear' := (hcnear.absorb (b := 1 / 10 ^ 55) (by linarith)).mono (b := 2 / 10 ^ 55)
    (by linarith) (by linarith) le_rfl
  have hclow := hcnear'.ge
  have hchigh := hcnear'.le
  have hall := ((hg'.mul_left hr0.le).trans hcnear' (by norm_num)).mono (b := 2 / 10 ^ 54) (t := 0)
    (by positivity) (by norm_num) (by simp)
  exact ⟨c, hc, by linarith, by linarith, hall⟩

/-- Weighted with the principal it is near the weighted growth. -/
theorem exists_weighted (h : Standard P R n) {c : Decimal} (hc0 : 0 < c.rat) (hc : c.rat ≤ 10 ^ 8)
    (hcnear : Near (2 / 10 ^ 54) 0 (r.rat * (1 + r.rat) ^ n) c.rat) :
    ∃ w, P.mul (workingPrecision r) c = .ok w ∧ 0 ≤ w.rat ∧
      Near (1 / 10 ^ 52) (2 * speck) (P.rat * (r.rat * (1 + r.rat) ^ n)) w.rat := by
  have hp := hr.workingPrecision_eq
  have hneg := hr.adjusted_neg
  have hr0 := hr.pos
  have hP0 := h.principal_pos
  have hunit := hr.unit_le_pow
  have hvast := pow_le_vast 30 (by norm_num)
  have hPc : P.rat * c.rat ≤ 10 ^ 16 := by
    calc P.rat * c.rat ≤ 10 ^ 8 * 10 ^ 8 := mul_le_mul h.principal_le hc hc0.le (by norm_num)
      _ = 10 ^ 16 := by norm_num
  obtain ⟨w, hw, -, hw0, hwnear⟩ := exists_mul_near (p := workingPrecision r) (a := P) (b := c)
    (by omega) hP0 hc0 (by linarith)
  have hall := (hcnear.mul_left hP0.le).trans hwnear (zpow_pos (by norm_num) _).le
  refine ⟨w, hw, hw0, hall.mono (by positivity) ?_ ?_⟩
  · norm_num at hunit ⊢
    linarith
  · norm_num
    linarith [speck_pos]

/-- Divided by what it earns it is near the exact payment. -/
theorem exists_share (h : Standard P R n) {w e : Decimal} (hw0 : 0 ≤ w.rat)
    (hw : Near (1 / 10 ^ 52) (2 * speck) (P.rat * (r.rat * (1 + r.rat) ^ n)) w.rat)
    (he : Near (1 / 10 ^ 47) 0 ((1 + r.rat) ^ n - 1) e.rat) :
    ∃ q, w.div (workingPrecision r) e = .ok q ∧ 0 ≤ q.rat ∧
      Near (1 / 10 ^ 46) (1 / 10 ^ 90) (exactPayment P.rat r.rat n) q.rat := by
  have hp := hr.workingPrecision_eq
  have hneg := hr.adjusted_neg
  have hP0 := h.principal_pos
  have hunit := hr.unit_le_pow
  have hspeck := speck_le 100 (by norm_num)
  have hvast := pow_le_vast 30 (by norm_num)
  obtain ⟨he0, hA⟩ := hr.near_exactPayment h.months_pos hP0.le hw he
  have hA0 := exactPayment_nonneg hP0.le hr.pos.le h.months_pos
  have hA9 := hr.exactPayment_le h
  have hweigh := hA.le
  norm_num at hweigh hA9
  obtain ⟨q, hq, -, hq0, hqnear⟩ := exists_div_near (p := workingPrecision r) (a := w) (b := e)
    (by omega) hw0 he0 (by linarith)
  refine ⟨q, hq, hq0, (hA.trans hqnear (zpow_pos (by norm_num) _).le).mono hA0 ?_ ?_⟩
  · norm_num at hunit ⊢
    linarith
  · norm_num at hunit hspeck ⊢
    linarith

/-- The steps of the payment with interest up to the rounding to the cent come near the exact one
of the monthly rate. -/
theorem exists_unrounded (h : Standard P R n) : ∃ o g c w e q : Decimal,
    add (workingPrecision r) 1 r = .ok o ∧ o.pow (workingPrecision r) n = .ok g ∧
      r.mul (workingPrecision r) g = .ok c ∧ P.mul (workingPrecision r) c = .ok w ∧
      g.sub (workingPrecision r) 1 = .ok e ∧ w.div (workingPrecision r) e = .ok q ∧
      o.rat = 1 + r.rat ∧ 0 ≤ q.rat ∧
      Near (1 / 10 ^ 46) (1 / 10 ^ 90) (exactPayment P.rat r.rat n) q.rat := by
  obtain ⟨o, ho, horat, hodigits⟩ := hr.exists_one_add
  obtain ⟨g, hg, hgnear⟩ := hr.exists_growth h.months_le horat hodigits
  obtain ⟨c, hc, hc0, hc8, hcnear⟩ := hr.exists_borne h.months_le hgnear
  obtain ⟨w, hw, hw0, hwnear⟩ := hr.exists_weighted h hc0 hc8 hcnear
  obtain ⟨e, he, henear⟩ := hr.exists_earned h.months_pos h.months_le hgnear
  obtain ⟨q, hq, hq0, hqnear⟩ := hr.exists_share h hw0 hwnear henear
  exact ⟨o, g, c, w, e, q, ho, hg, hc, hw, he, hq, horat, hq0, hqnear⟩

/-- The payment with interest is the exact one of its monthly rate to the cent. -/
theorem exists_interestPayment (h : Standard P R n) : ∃ m, interestPayment P r n = .ok m ∧
    m.exponent = -2 ∧ |m.rat - exactPayment P.rat r.rat n| ≤ 5 / 1000 + 1 / 10 ^ 20 := by
  have hp := hr.workingPrecision_eq
  have hneg := hr.adjusted_neg
  have hA9 := hr.exactPayment_le h
  obtain ⟨o, g, c, w, e, q, ho, hg, hc, hw, he, hq, -, hq0, hall⟩ := hr.exists_unrounded h
  have herr : |q.rat - exactPayment P.rat r.rat n| ≤ 1 / 10 ^ 20 := by
    refine le_trans hall ?_
    norm_num at hA9 ⊢
    linarith
  have hqle := hall.le
  norm_num at hqle hA9
  have hsmall : |q.rat| ≤ 10 ^ 20 := by
    rw [abs_of_nonneg hq0]
    linarith
  obtain ⟨m, hm, hexp, -, hcents⟩ :=
    exists_cents_near (p := workingPrecision r) (d := q) (by omega) hsmall
  refine ⟨m, ?_, hexp, by linarith [abs_sub_le m.rat q.rat (exactPayment P.rat r.rat n)]⟩
  rw [interestPayment_eq ho hg hc hw he hq]
  exact hm

end Earning

/-! ### The payment of a loan -/

theorem Standard.monthly_nonneg (h : Standard P R n) : 0 ≤ R.rat / 1200 :=
  div_nonneg h.annual_nonneg (by norm_num)

theorem Standard.monthly_le (h : Standard P R n) : R.rat / 1200 ≤ 1 / 24 := by
  have := h.annual_le
  linarith

theorem Standard.exactPayment_le (h : Standard P R n) :
    exactPayment P.rat (R.rat / 1200) n ≤ 105 / 100 * 10 ^ 8 := by
  have h1 := Annuity.exactPayment_le h.principal_pos.le h.monthly_nonneg h.months_pos
  have h2 := mul_le_mul h.principal_le (by linarith [h.monthly_le] : 1 + R.rat / 1200 ≤ 25 / 24)
    (by linarith [h.monthly_nonneg]) (by norm_num)
  linarith

/-- A monthly rate that counts as none stands for one too small to earn a cent. -/
theorem monthly_le_of_negligible (hr : r.isZero = true ∨ mostLeadingZeros < leadingZeros r)
    {ρ : ℚ} (hnear : Near (3 / 10 ^ 27) (2 * speck) ρ r.rat) (hr0 : 0 ≤ r.rat) :
    ρ ≤ 1 / 10 ^ 50 := by
  have hlow := hnear.ge
  have hspeck := speck_le 60 (by norm_num)
  have hsmall : r.rat ≤ 1 / 10 ^ 60 := by
    by_cases hz : r.isZero = true
    · rw [isZero_iff_rat.mp hz]
      positivity
    · have hadj : r.adjusted + 1 ≤ -60 := by
        have := hr.resolve_left hz
        unfold leadingZeros mostLeadingZeros at this
        rw [if_neg hz] at this
        omega
      calc r.rat = |r.rat| := (abs_of_nonneg hr0).symm
        _ ≤ 10 ^ (r.adjusted + 1) := r.abs_rat_lt_pow.le
        _ ≤ 10 ^ (-60 : ℤ) := zpow_le_zpow_right₀ (by norm_num) hadj
        _ = 1 / 10 ^ 60 := by norm_num
  norm_num at *
  linarith

/-- Where the rate counts as none the `plainPayment` is the exact one to the cent. -/
theorem exists_plainPayment_near (h : Standard P R n) (hρ : R.rat / 1200 ≤ 1 / 10 ^ 50) :
    ∃ m, plainPayment P n = .ok m ∧ m.exponent = -2 ∧
      |m.rat - exactPayment P.rat (R.rat / 1200) n| ≤ 5 / 1000 + 1 / 10 ^ 15 := by
  obtain ⟨m, hm, hexp, herr⟩ := exists_plainPayment h
  have hn0 : (0 : ℚ) < n := by exact_mod_cast h.months_pos
  have hn : (n : ℚ) ≤ 240 := by exact_mod_cast h.months_le
  have hP0 := h.principal_pos
  have hP := h.principal_le
  have hρ0 := h.monthly_nonneg
  have hnρ : n * (R.rat / 1200) ≤ 240 * (1 / 10 ^ 50) := mul_le_mul hn hρ hρ0 (by norm_num)
  have hplain := exactPayment_near_plain hP0.le hρ0 h.months_pos
    (hnρ.trans (by norm_num : (240 : ℚ) * (1 / 10 ^ 50) ≤ 1 / 2))
  have hoff : P.rat / n * (2 * (n * (R.rat / 1200))) ≤ 1 / 10 ^ 30 := by
    calc P.rat / n * (2 * (n * (R.rat / 1200))) = 2 * (P.rat * (R.rat / 1200)) := by field_simp
      _ ≤ 2 * (10 ^ 8 * (1 / 10 ^ 50)) := by
          have := mul_le_mul hP hρ hρ0 (by norm_num)
          linarith
      _ ≤ 1 / 10 ^ 30 := by norm_num
  refine ⟨m, hm, hexp, ?_⟩
  rw [abs_sub_comm] at hplain
  have := abs_sub_le m.rat (P.rat / n) (exactPayment P.rat (R.rat / 1200) n)
  norm_num at herr hoff ⊢
  linarith

/-- Where the rate counts the `interestPayment` is the exact one to the cent. -/
theorem exists_interestPayment_near (h : Standard P R n) (hr : Earning r)
    (hnear : Near (3 / 10 ^ 27) (2 * speck) (R.rat / 1200) r.rat) :
    ∃ m, interestPayment P r n = .ok m ∧ m.exponent = -2 ∧
      |m.rat - exactPayment P.rat (R.rat / 1200) n| ≤ 5 / 1000 + 1 / 10 ^ 15 := by
  obtain ⟨m, hm, hexp, herr⟩ := hr.exists_interestPayment h
  have hr0 := hr.pos
  have hspeck := hr.speck_le_rate
  have hρle := h.monthly_le
  have hrise := hnear.le
  have hρ0 : r.rat / 2 ≤ R.rat / 1200 := by
    norm_num at hspeck hrise
    linarith
  have hrate := (hnear.absorb (b := 1 / 10 ^ 27) (by linarith)).mono (b := 4 / 10 ^ 27)
    (by linarith) (by norm_num) le_rfl
  have hA := le_trans (exactPayment_near h.principal_pos.le (by linarith) hr0 h.months_pos hrate)
    (by linarith [h.exactPayment_le] : _ ≤ 4 / 10 ^ 27 * (105 / 100 * 10 ^ 8 : ℚ))
  refine ⟨m, hm, hexp, ?_⟩
  have := abs_sub_le m.rat (exactPayment P.rat r.rat n) (exactPayment P.rat (R.rat / 1200) n)
  norm_num at herr hA ⊢
  linarith

/-- The monthly rate is computed for all terms that are accepted. -/
theorem Standard.exists_rate (h : Standard P R n) : ∃ r, monthlyRate R = .ok r ∧ 0 ≤ r.rat ∧
    r.rat ≤ 1 / 20 ∧ r.digits ≤ 28 ∧ Near (3 / 10 ^ 27) (2 * speck) (R.rat / 1200) r.rat := by
  obtain ⟨r, hr, hdigits, hr0, hnear⟩ := exists_monthlyRate h.annual_nonneg h.annual_le
  refine ⟨r, hr, hr0, ?_, hdigits, hnear⟩
  have h1 := hnear.le
  have h2 := h.monthly_le
  have h3 := speck_le 10 (by norm_num)
  norm_num at h1 h3
  linarith

/-- A rate that does not count as none is one that earns. -/
theorem earning_of_counts (hdigits : r.digits ≤ 28) (h0 : 0 ≤ r.rat) (hle : r.rat ≤ 1 / 20)
    (hz : r.isZero = false) (hzeros : leadingZeros r ≤ mostLeadingZeros) : Earning r := by
  refine ⟨hdigits, ?_, hle, ?_⟩
  · have hne : r.rat ≠ 0 := fun hr => (isZero_eq_false.mp hz).ne' (rat_eq_zero_iff.mp hr)
    exact lt_of_le_of_ne h0 hne.symm
  · unfold leadingZeros mostLeadingZeros at hzeros
    rw [hz] at hzeros
    simp only [Bool.false_eq_true, if_false] at hzeros
    omega

/-- The `payment` is computed for all terms that are accepted. -/
theorem exists_payment (h : Standard P R n) : ∃ r m, monthlyRate R = .ok r ∧ 0 ≤ r.rat ∧
    r.rat ≤ 1 / 20 ∧ r.digits ≤ 28 ∧ payment P R n = .ok m ∧ m.exponent = -2 ∧
      |m.rat - exactPayment P.rat (R.rat / 1200) n| ≤ 5 / 1000 + 1 / 10 ^ 15 := by
  obtain ⟨r, hr, hr0, hrle, hdigits, hnear⟩ := h.exists_rate
  have hpayment : payment P R n =
      if r.isZero || mostLeadingZeros < leadingZeros r then plainPayment P n
      else interestPayment P r n := by
    unfold payment
    rw [hr]
    rfl
  by_cases hz : r.isZero = true ∨ mostLeadingZeros < leadingZeros r
  · obtain ⟨m, hm, hexp, herr⟩ := exists_plainPayment_near h
      (monthly_le_of_negligible hz hnear hr0)
    refine ⟨r, m, hr, hr0, hrle, hdigits, ?_, hexp, herr⟩
    rw [hpayment, if_pos (by simpa using hz), hm]
  · rw [not_or, Bool.not_eq_true, not_lt] at hz
    have hearning := earning_of_counts hdigits hr0 hrle hz.1 hz.2
    obtain ⟨m, hm, hexp, herr⟩ := exists_interestPayment_near h hearning hnear
    refine ⟨r, m, hr, hr0, hrle, hdigits, ?_, hexp, herr⟩
    rw [hpayment, if_neg ?_, hm]
    simpa [hz.1] using hz.2

theorem months_int {term : ℤ} (h : 1 ≤ term) : months (.int term) = .ok term.toNat := by
  simp [months, months?, h]

theorem paymentFor_decimal {term : ℤ} (h : 1 ≤ term) (principal annual : Decimal) :
    paymentFor (.decimal (.finite principal)) (.decimal (.finite annual)) (.int term) =
      Fault.ofArithmetic (payment principal annual term.toNat) := by
  unfold paymentFor
  rw [months_int h]
  rfl

/-- The payment of every loan that is accepted has two decimals and is off the exact annuity by
half a cent at most, and by no more than `10 ^ -15` beyond that. -/
theorem paymentFor_to_the_cent (principal annual : Decimal) (term : ℤ)
    (h : Loan.Limits.standard.check
      ⟨.decimal (.finite principal), .decimal (.finite annual), .int term⟩ = .ok ()) :
    ∃ m, paymentFor (.decimal (.finite principal)) (.decimal (.finite annual)) (.int term) = .ok m ∧
      m.exponent = -2 ∧
      |m.rat - exactPayment principal.rat (annual.rat / 1200) term.toNat| ≤
        5 / 1000 + 1 / 10 ^ 15 := by
  obtain ⟨hstandard, hterm⟩ := standard_of_check h
  obtain ⟨r, m, -, -, -, -, hm, hexp, herr⟩ := exists_payment hstandard
  refine ⟨m, ?_, hexp, herr⟩
  rw [paymentFor_decimal hterm, hm]
  rfl

/-- Twenty thousand at a tenth of a millionth of a percent, over twenty years. -/
theorem paymentFor_to_the_cent_small_rate :
    Loan.Limits.standard.check
      ⟨.decimal (.finite ⟨false, 2, 4⟩), .decimal (.finite ⟨false, 1, -7⟩), .int 240⟩ = .ok () ∧
    ∃ m, paymentFor (.decimal (.finite ⟨false, 2, 4⟩)) (.decimal (.finite ⟨false, 1, -7⟩))
        (.int 240) = .ok m ∧ m.exponent = -2 ∧
      |m.rat - exactPayment (rat ⟨false, 2, 4⟩) (rat ⟨false, 1, -7⟩ / 1200) (240 : ℤ).toNat| ≤
        5 / 1000 + 1 / 10 ^ 15 := by
  have h : Loan.Limits.standard.check
      ⟨.decimal (.finite ⟨false, 2, 4⟩), .decimal (.finite ⟨false, 1, -7⟩), .int 240⟩ = .ok () := by
    rw [Loan.Limits.check_standard_iff]
    norm_num [rat, signed]
  exact ⟨h, paymentFor_to_the_cent _ _ _ h⟩

end Annuity
end LoanDesk
