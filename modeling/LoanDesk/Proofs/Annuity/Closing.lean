import LoanDesk.Proofs.Annuity.Quote

/-
# The last payment

What is outstanding of an exact annuity grows with the interest, falls by the payment and
comes to nothing with the last month. A schedule rounds the payment once and the interest
of every month, and each of these errors bears interest from then on. So its balance
drifts off the exact one by a geometric sum, and the last payment takes up that drift:
either it closes the last month, where the exact annuity has nothing left, or it closes
an earlier one, where it is no more than the usual payment.

Key definitions: `Annuity.accrued`, `Annuity.outstanding`, `Annuity.IsClosing`.
Key theorems: `Annuity.exactPayment_lipschitz`, `Annuity.outstanding_exactPayment`,
`Annuity.Month.drift`, `Annuity.Course.closing`, `Annuity.last_payment_near`.
-/

namespace LoanDesk
namespace Annuity

open Decimal Finset

/-! ### What payments of one come to -/

/-- What payments of one at the end of each month have come to at the end of the last. -/
def accrued (rate : ℚ) (months : ℕ) : ℚ := ∑ i ∈ range months, (1 + rate) ^ i

section accrued

variable {r s P : ℚ} {n k : ℕ}

@[simp]
theorem accrued_zero (r : ℚ) : accrued r 0 = 0 := rfl

theorem accrued_succ (r : ℚ) (n : ℕ) : accrued r (n + 1) = accrued r n + (1 + r) ^ n :=
  sum_range_succ ..

theorem accrued_nonneg (hr : 0 ≤ r) (n : ℕ) : 0 ≤ accrued r n :=
  sum_nonneg fun _ _ => by positivity

theorem accrued_mono (hr : 0 ≤ r) (hrs : r ≤ s) (n : ℕ) : accrued r n ≤ accrued s n :=
  sum_le_sum fun i _ => pow_le_pow_left₀ (by linarith) (by linarith) i

theorem mul_accrued (r : ℚ) (n : ℕ) : r * accrued r n = (1 + r) ^ n - 1 := by
  have h := mul_geom_sum (1 + r) n
  rwa [add_sub_cancel_left] at h

theorem one_le_accrued (hr : 0 ≤ r) (hn : 1 ≤ n) : 1 ≤ accrued r n := by
  obtain ⟨m, rfl⟩ : ∃ m, n = m + 1 := ⟨n - 1, by omega⟩
  have h := single_le_sum (f := fun i => (1 + r) ^ i) (s := range (m + 1))
    (fun i _ => by positivity) (mem_range.mpr (Nat.succ_pos m))
  simpa [accrued] using h

/-- What payments have `accrued` is their `presentValue`, with the interest since. -/
theorem pow_mul_presentValue (hr : 0 ≤ r) (n : ℕ) :
    (1 + r) ^ n * presentValue r n = accrued r n := by
  have h1 : (1 + r) ≠ 0 := by linarith
  induction n with
  | zero => simp [presentValue]
  | succ n ih =>
    have hsucc : presentValue r (n + 1) = presentValue r n + ((1 + r) ^ (n + 1))⁻¹ :=
      sum_range_succ ..
    have hstep : accrued r (n + 1) = (1 + r) * accrued r n + 1 := by
      rw [accrued_succ]
      linarith [mul_accrued r n]
    rw [hsucc, hstep, ← ih, pow_succ]
    field_simp

/-- A payment is the interest of the principal and a part that pays it back with what it earns
(`accrued`). -/
theorem exactPayment_eq_add (hr : 0 ≤ r) (hn : 1 ≤ n) :
    exactPayment P r n = P * r + P / accrued r n := by
  have hS : 0 < accrued r n := by linarith [one_le_accrued hr hn]
  have hG : (1 + r) ^ n = r * accrued r n + 1 := by linarith [mul_accrued r n]
  have hG0 : (1 + r) ^ n ≠ 0 := by positivity
  calc exactPayment P r n = P / presentValue r n := exactPayment_eq_div hr hn
    _ = (1 + r) ^ n * P / ((1 + r) ^ n * presentValue r n) := (mul_div_mul_left _ _ hG0).symm
    _ = (r * accrued r n + 1) * P / accrued r n := by rw [pow_mul_presentValue hr, hG]
    _ = P * r + P / accrued r n := by field_simp

/-- The payment moves by no more than the interest of the principal does. -/
theorem exactPayment_sub_le (hP : 0 ≤ P) (hr : 0 ≤ r) (hrs : r ≤ s) (hn : 1 ≤ n) :
    exactPayment P s n - exactPayment P r n ≤ P * (s - r) := by
  have hS : 0 < accrued r n := by linarith [one_le_accrued hr hn]
  have hpart : P / accrued s n ≤ P / accrued r n :=
    div_le_div_of_nonneg_left hP hS (accrued_mono hr hrs n)
  rw [exactPayment_eq_add hr hn, exactPayment_eq_add (hr.trans hrs) hn]
  linarith

theorem exactPayment_lipschitz (hP : 0 ≤ P) (hr : 0 ≤ r) (hs : 0 ≤ s) (hn : 1 ≤ n) :
    |exactPayment P s n - exactPayment P r n| ≤ P * |s - r| := by
  rcases le_total r s with hrs | hsr
  · rw [abs_of_nonneg (sub_nonneg.mpr (exactPayment_mono hP hr hrs hn)),
      abs_of_nonneg (sub_nonneg.mpr hrs)]
    exact exactPayment_sub_le hP hr hrs hn
  · rw [abs_sub_comm, abs_sub_comm s,
      abs_of_nonneg (sub_nonneg.mpr (exactPayment_mono hP hs hsr hn)),
      abs_of_nonneg (sub_nonneg.mpr hsr)]
    exact exactPayment_sub_le hP hs hsr hn

end accrued

/-! ### What is outstanding -/

/-- What is left of a balance after so many equal payments, without any rounding. -/
def outstanding (rate payment balance : ℚ) (months : ℕ) : ℚ :=
  balance * (1 + rate) ^ months - payment * accrued rate months

section outstanding

variable {r p q a b P : ℚ} {n k : ℕ}

theorem outstanding_zero (r p b : ℚ) : outstanding r p b 0 = b := by simp [outstanding]

theorem outstanding_succ (r p b : ℚ) (k : ℕ) :
    outstanding r p b (k + 1) = outstanding r p ((1 + r) * b - p) k := by
  unfold outstanding
  rw [accrued_succ, pow_succ]
  ring

/-- An error in the balance bears interest. -/
theorem outstanding_sub_balance (r p a b : ℚ) (k : ℕ) :
    outstanding r p a k - outstanding r p b k = (a - b) * (1 + r) ^ k := by
  unfold outstanding
  ring

/-- An error in the payment is made every month, and bears interest. -/
theorem outstanding_sub_payment (r p q b : ℚ) (k : ℕ) :
    outstanding r p b k - outstanding r q b k = (q - p) * accrued r k := by
  unfold outstanding
  ring

theorem outstanding_exactPayment (hr : 0 ≤ r) (hn : 1 ≤ n) (k : ℕ) :
    outstanding r (exactPayment P r n) P k =
      exactPayment P r n * ((1 + r) ^ k * (presentValue r n - presentValue r k)) := by
  have hP : P = exactPayment P r n * presentValue r n := by
    rw [exactPayment_eq_div hr hn, div_mul_cancel₀ _ (presentValue_pos hr hn).ne']
  unfold outstanding
  rw [← pow_mul_presentValue hr]
  calc P * (1 + r) ^ k - exactPayment P r n * ((1 + r) ^ k * presentValue r k)
      = exactPayment P r n * presentValue r n * (1 + r) ^ k -
          exactPayment P r n * ((1 + r) ^ k * presentValue r k) := by rw [← hP]
    _ = _ := by ring

/-- The exact annuity has nothing left after the last month, -/
theorem outstanding_exactPayment_self (hr : 0 ≤ r) (hn : 1 ≤ n) :
    outstanding r (exactPayment P r n) P n = 0 := by
  rw [outstanding_exactPayment hr hn, sub_self, mul_zero, mul_zero]

theorem presentValue_mono (hr : 0 ≤ r) (h : k ≤ n) : presentValue r k ≤ presentValue r n :=
  sum_le_sum_of_subset_of_nonneg (range_mono h) fun _ _ _ => by positivity

/-- and something that is not negative before. -/
theorem outstanding_exactPayment_nonneg (hP : 0 ≤ P) (hr : 0 ≤ r) (hn : 1 ≤ n) (h : k ≤ n) :
    0 ≤ outstanding r (exactPayment P r n) P k := by
  rw [outstanding_exactPayment hr hn]
  exact mul_nonneg (exactPayment_nonneg hP hr hn)
    (mul_nonneg (by positivity) (sub_nonneg.mpr (presentValue_mono hr h)))

end outstanding

/-! ### The drift of a schedule -/

/-- What the rounding of a month's interest adds to the balance or takes from it at most. -/
def monthlyDrift : ℚ := 5 / 1000 + 1 / 10 ^ 8

section drift

variable {payment rate balance : Decimal} {left : ℕ}

/-- The balance of a month is the one with its exact interest, but for the rounding, which is at
most `monthlyDrift`. -/
theorem Month.drift {e : Entry} (h : Month rate balance e) (hm : Modest payment rate)
    (hb : Bounded balance left) :
    |e.balance.rat - ((1 + rate.rat) * balance.rat - e.payment.rat)| ≤ monthlyDrift := by
  obtain ⟨product, hproduct, hinterest⟩ := h.interest
  have hx0 : 0 ≤ balance.rat * rate.rat := mul_nonneg hb.nonneg hm.rate_nonneg
  have hx : balance.rat * rate.rat ≤ 10 ^ 20 * (1 / 20) :=
    mul_le_mul hb.le hm.rate_le hm.rate_nonneg (by norm_num)
  have hround := mul_error (p := Money.precision) (by decide) hproduct
  have htiny := pow_tiniest_le (p := Money.precision) (by decide)
  have hspeck := speck_le 10 (by norm_num)
  have hoff : |product.rat - balance.rat * rate.rat| ≤ 1 / 10 ^ 8 := by
    rw [abs_of_nonneg hx0] at hround
    refine hround.trans ?_
    norm_num [Money.precision] at htiny hspeck hx ⊢
    linarith
  have hcents : |e.interest.rat - product.rat| ≤ 5 / 1000 := by
    refine (roundedAt_spec hinterest).2.2.trans_eq ?_
    norm_num [Money.centPlace]
  have hdrift : e.balance.rat - ((1 + rate.rat) * balance.rat - e.payment.rat) =
      e.interest.rat - balance.rat * rate.rat := by
    linarith [h.payment, h.balance]
  rw [hdrift]
  exact (abs_sub_le _ product.rat _).trans (add_le_add hcents hoff)

/-- A payment before the last month is the usual one, or less where it closes the schedule. -/
theorem entry_payment_le {e : Entry} {number : ℕ} (hm : Modest payment rate)
    (hb : Bounded balance (left + 1)) (hleft : left ≠ 0)
    (he : entry payment rate balance number left = .ok e) : e.payment.rat ≤ payment.rat := by
  have h0 := hb.nonneg
  have h20 := hb.le
  obtain ⟨product, interest, hproduct, hinterest, hiexp, hilow, hihigh⟩ := exists_interest hm hb
  have hismall : |interest.rat| ≤ 10 ^ 24 := abs_le.mpr (by constructor <;> linarith)
  obtain ⟨reduction, hreduction, -, hrrat⟩ := exists_sub_cents (a := payment) (b := interest)
    hm.payment_exponent hiexp
    (abs_le.mpr (by constructor <;> linarith [hm.payment_ge, hm.payment_le])) hismall
  obtain ⟨paid, hpaid, -, hprat⟩ := exists_add_cents (a := balance) (b := interest) hb.exponent
    hiexp (abs_le.mpr (by constructor <;> linarith)) hismall
  unfold entry at he
  simp only [bind, Except.bind, pure, Except.pure, hproduct, hinterest, hreduction, hpaid] at he
  split at he
  · rename_i hclose
    have habove := hclose.resolve_left hleft
    rw [order_eq_compare, compare_gt_iff_gt] at habove
    cases hrest : balance.sub Money.precision balance with
    | error => simp [hrest] at he
    | ok rest =>
      simp only [hrest, Except.ok.injEq] at he
      rw [← he]
      change paid.rat ≤ payment.rat
      linarith
  · cases hrest : balance.sub Money.precision reduction with
    | error => simp [hrest] at he
    | ok rest =>
      simp only [hrest, Except.ok.injEq] at he
      rw [← he]

/-- A schedule of at most so many months whose last payment is the usual one and what would be
outstanding after it, but for the rounding of each month's interest; where it closes early the last
payment is no more than the usual one. -/
structure IsClosing (payment rate balance : ℚ) (months : ℕ) (es : List Entry) (last : Entry) :
    Prop where
  getLast : es.getLast? = some last
  length_le : es.length ≤ months
  drift : |last.payment.rat - payment - outstanding rate payment balance es.length| ≤
    monthlyDrift * accrued rate es.length
  early : es.length ≠ months → last.payment.rat ≤ payment

/-- The month in which nothing is left closes a schedule of its own. -/
theorem IsClosing.single {e : Entry} {number : ℕ} (hm : Modest payment rate)
    (hb : Bounded balance (left + 1)) (he : entry payment rate balance number left = .ok e)
    (hmonth : Month rate balance e) (hzero : e.balance.rat = 0) :
    IsClosing payment.rat rate.rat balance.rat (left + 1) [e] e where
  getLast := rfl
  length_le := by simp
  drift := by
    have h := hmonth.drift hm hb
    rw [hzero, abs_sub_comm] at h
    rw [List.length_singleton, outstanding_succ, outstanding_zero, accrued_succ, accrued_zero,
      pow_zero]
    calc |e.payment.rat - payment.rat - ((1 + rate.rat) * balance.rat - payment.rat)|
        = |(1 + rate.rat) * balance.rat - e.payment.rat - 0| := by rw [abs_sub_comm]; ring_nf
      _ ≤ monthlyDrift * (0 + 1) := by linarith
  early := fun h => entry_payment_le hm hb (by rintro rfl; simp at h) he

/-- A month before the close moves what is outstanding by its own drift, with the interest since. -/
theorem IsClosing.cons {e last : Entry} {es : List Entry} (hm : Modest payment rate)
    (hb : Bounded balance (left + 2)) (hmonth : Month rate balance e) (hp : e.payment = payment)
    (h : IsClosing payment.rat rate.rat e.balance.rat (left + 1) es last) :
    IsClosing payment.rat rate.rat balance.rat (left + 2) (e :: es) last where
  getLast := by
    have hne : es ≠ [] := by
      rintro rfl
      simpa using h.getLast
    rw [List.getLast?_cons_of_ne_nil hne, h.getLast]
  length_le := by simpa using h.length_le
  drift := by
    have hr1 : 0 ≤ (1 + rate.rat) ^ es.length := pow_nonneg (by linarith [hm.rate_nonneg]) _
    have hstep := hmonth.drift hm hb
    rw [hp] at hstep
    have hmoved := outstanding_sub_balance rate.rat payment.rat e.balance.rat
      ((1 + rate.rat) * balance.rat - payment.rat) es.length
    have hgrown : |outstanding rate.rat payment.rat e.balance.rat es.length -
        outstanding rate.rat payment.rat ((1 + rate.rat) * balance.rat - payment.rat) es.length| ≤
          monthlyDrift * (1 + rate.rat) ^ es.length := by
      rw [hmoved, abs_mul, abs_of_nonneg hr1]
      exact mul_le_mul_of_nonneg_right hstep hr1
    rw [List.length_cons, outstanding_succ, accrued_succ, mul_add]
    calc _ ≤ _ + _ := abs_sub_le _ (outstanding rate.rat payment.rat e.balance.rat es.length) _
      _ ≤ _ := add_le_add h.drift hgrown
  early := fun hlen => h.early (by simpa using hlen)

/-- A `Course` closes near what the usual payments leave outstanding. -/
theorem Course.closing (hm : Modest payment rate) {number : ℕ} {es : List Entry}
    (h : Course payment rate left number balance es) :
    ∃ last, IsClosing payment.rat rate.rat balance.rat left es last := by
  induction h with
  | last hb he _ hmonth hzero => exact ⟨_, .single hm hb he hmonth hzero⟩
  | more hb _ hmonth hpayment _ _ ih =>
    obtain ⟨last, hclosing⟩ := ih
    exact ⟨last, hclosing.cons hm hb hmonth hpayment⟩

end drift

/-! ### The last payment of a loan -/

variable {P R : Decimal} {n : ℕ}

/-- The payment is the exact one at the rounded rate, to the cent. -/
theorem exists_payment_at_rate (h : Standard P R n) : ∃ r m, monthlyRate R = .ok r ∧
    payment P R n = .ok m ∧ Modest m r ∧
      |m.rat - exactPayment P.rat r.rat n| ≤ 5 / 1000 + 1 / 10 ^ 14 := by
  obtain ⟨r, m, hr, hm, hmodest⟩ := exists_modest h
  obtain ⟨-, m', -, -, -, -, hm', -, herr⟩ := exists_payment h
  obtain rfl : m = m' := Except.ok.inj (hm.symm.trans hm')
  obtain ⟨r', hr', -, -, -, hnear⟩ := h.exists_rate
  obtain rfl : r = r' := Except.ok.inj (hr.symm.trans hr')
  have hspeck := speck_le 30 (by norm_num)
  have hrate : |r.rat - R.rat / 1200| ≤ 1 / 10 ^ 27 := by
    have hle := h.monthly_le
    refine le_trans hnear ?_
    norm_num at hspeck hle ⊢
    linarith
  have hmoved : |exactPayment P.rat r.rat n - exactPayment P.rat (R.rat / 1200) n| ≤
      1 / 10 ^ 19 := by
    refine (exactPayment_lipschitz h.principal_pos.le h.monthly_nonneg hmodest.rate_nonneg
      h.months_pos).trans ?_
    calc P.rat * |r.rat - R.rat / 1200| ≤ 10 ^ 8 * (1 / 10 ^ 27) :=
          mul_le_mul h.principal_le hrate (abs_nonneg _) (by norm_num)
      _ = 1 / 10 ^ 19 := by norm_num
  refine ⟨r, m, hr, hm, hmodest, ?_⟩
  rw [abs_sub_comm] at hmoved
  have := abs_sub_le m.rat (exactPayment P.rat (R.rat / 1200) n) (exactPayment P.rat r.rat n)
  norm_num at herr hmoved ⊢
  linarith

/-- A balance to the cent and a payment to the cent leave nearly what the exact ones leave. -/
theorem outstanding_near {r p A b P : ℚ} (hr : 0 ≤ r) (hb : |b - P| ≤ 5 / 1000)
    (hp : |p - A| ≤ 5 / 1000 + 1 / 10 ^ 14) (k : ℕ) :
    |outstanding r p b k - outstanding r A P k| ≤
      5 / 1000 * (1 + r) ^ k + (5 / 1000 + 1 / 10 ^ 14) * accrued r k := by
  have hgrow : 0 ≤ (1 + r) ^ k := by positivity
  have hbalance : |outstanding r p b k - outstanding r p P k| ≤ 5 / 1000 * (1 + r) ^ k := by
    rw [outstanding_sub_balance, abs_mul, abs_of_nonneg hgrow]
    exact mul_le_mul_of_nonneg_right hb hgrow
  have hpayment : |outstanding r p P k - outstanding r A P k| ≤
      (5 / 1000 + 1 / 10 ^ 14) * accrued r k := by
    rw [outstanding_sub_payment, abs_mul, abs_of_nonneg (accrued_nonneg hr k), abs_sub_comm]
    exact mul_le_mul_of_nonneg_right hp (accrued_nonneg hr k)
  exact (abs_sub_le _ _ _).trans (add_le_add hbalance hpayment)

/-- The last payment of every loan that is accepted is off the usual one by no more than the
rounding of the principal, of the payment and of each month's interest come to by then, whether it
closes the last month of the term or an earlier one. -/
theorem last_payment_near (principal annual : Decimal) (term : ℤ)
    (h : Loan.Limits.standard.check
      ⟨.decimal (.finite principal), .decimal (.finite annual), .int term⟩ = .ok ()) :
    ∃ rate payment es last, rateFor (.decimal (.finite annual)) = .ok rate ∧
      paymentFor (.decimal (.finite principal)) (.decimal (.finite annual)) (.int term) =
        .ok payment ∧
      scheduleFor (.decimal (.finite principal)) (.decimal (.finite annual)) (.int term) = .ok es ∧
      es.getLast? = some last ∧
      |last.payment.rat - payment.rat| ≤ 5 / 1000 * (1 + rate.rat) ^ es.length +
        11 / 1000 * ∑ i ∈ range es.length, (1 + rate.rat) ^ i := by
  obtain ⟨hstandard, hterm⟩ := standard_of_check h
  obtain ⟨rate, payment, hrate, hpayment, hmodest, herr⟩ := exists_payment_at_rate hstandard
  obtain ⟨opening, hopening, hbounded⟩ := exists_opening hstandard
  have hr0 := hmodest.rate_nonneg
  have hP0 := hstandard.principal_pos.le
  have hstart : |opening.rat - principal.rat| ≤ 5 / 1000 := by
    refine (roundedAt_spec hopening).2.2.trans_eq ?_
    norm_num [Money.centPlace]
  obtain ⟨left, hleft⟩ : ∃ left, term.toNat = left + 1 := ⟨term.toNat - 1, by omega⟩
  have hn := hstandard.months_pos
  rw [hleft] at hbounded hpayment herr hn
  obtain ⟨es, hes, hcourse⟩ := exists_course hmodest left opening 1 hbounded
  obtain ⟨last, hclosing⟩ := hcourse.closing hmodest
  refine ⟨rate, payment, es, last, ?_, ?_, ?_, hclosing.getLast, ?_⟩
  · unfold rateFor
    simp only [Money.ofValue, Money.finite, bind, Except.bind, hrate]
    rfl
  · rw [paymentFor_decimal hterm, hleft, hpayment]
    rfl
  · rw [scheduleFor_decimal hterm, hleft]
    unfold schedule
    simp only [bind, Except.bind, hpayment, hopening, hrate, hes]
    rfl
  · change _ ≤ 5 / 1000 * (1 + rate.rat) ^ es.length + 11 / 1000 * accrued rate.rat es.length
    have hnear := outstanding_near hr0 hstart herr es.length
    have hdrift := hclosing.drift
    have hS := accrued_nonneg hr0 es.length
    have hG : 0 ≤ (1 + rate.rat) ^ es.length := by positivity
    have hleft0 := outstanding_exactPayment_nonneg hP0 hr0 hn hclosing.length_le
    obtain ⟨hlow, hhigh⟩ := abs_le.mp hdrift
    obtain ⟨hlow', hhigh'⟩ := abs_le.mp hnear
    norm_num [monthlyDrift] at hlow hhigh hlow' hhigh'
    refine abs_le.mpr ⟨by linarith, ?_⟩
    by_cases hend : es.length = left + 1
    · -- the last month of the term, where the exact annuity has nothing left
      have hnone : outstanding rate.rat (exactPayment principal.rat rate.rat (left + 1))
          principal.rat es.length = 0 := by
        rw [hend]
        exact outstanding_exactPayment_self hr0 hn
      linarith
    · -- an earlier month, which pays no more than the others
      have hless := hclosing.early hend
      linarith

/-- One unit without interest over 150 months: a cent a month has paid it back after a hundred. -/
theorem last_payment_near_early :
    Loan.Limits.standard.check
      ⟨.decimal (.finite ⟨false, 1, 0⟩), .decimal (.finite ⟨false, 0, 0⟩), .int 150⟩ = .ok () ∧
    ∃ rate payment es last, rateFor (.decimal (.finite ⟨false, 0, 0⟩)) = .ok rate ∧
      paymentFor (.decimal (.finite ⟨false, 1, 0⟩)) (.decimal (.finite ⟨false, 0, 0⟩)) (.int 150) =
        .ok payment ∧
      scheduleFor (.decimal (.finite ⟨false, 1, 0⟩)) (.decimal (.finite ⟨false, 0, 0⟩))
        (.int 150) = .ok es ∧
      es.getLast? = some last ∧
      |last.payment.rat - payment.rat| ≤ 5 / 1000 * (1 + rate.rat) ^ es.length +
        11 / 1000 * ∑ i ∈ range es.length, (1 + rate.rat) ^ i := by
  have h : Loan.Limits.standard.check
      ⟨.decimal (.finite ⟨false, 1, 0⟩), .decimal (.finite ⟨false, 0, 0⟩), .int 150⟩ = .ok () := by
    rw [Loan.Limits.check_standard_iff]
    norm_num [rat, signed]
  exact ⟨h, last_payment_near _ _ _ h⟩

end Annuity
end LoanDesk
