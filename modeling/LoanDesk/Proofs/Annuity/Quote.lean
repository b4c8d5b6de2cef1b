import LoanDesk.Proofs.Annuity.Schedule

/-
# Accepted terms always come to a result

The limits bound the amount and the rate as numbers, not the digits they are written
with: a rate may have hundreds of zeros behind the point, an amount thousands of
digits. Sums and products are rounded, so digits cost nothing there. The difference
`(1 + r) ^ n - 1` is near the exact one, which is at least `r`, and so it is never
nothing; and no amount on the way comes near the room that the cents have.

Key definitions: `Annuity.InCents`.
Key theorems: `Annuity.exists_earned_pos`, `Annuity.exists_quote`,
`Annuity.exists_schedule`, `Annuity.check_computes`.
-/

namespace LoanDesk
namespace Annuity

open Decimal

/-- An amount to the cent that has room in the digits of every amount. -/
structure InCents (d : Decimal) : Prop where
  exponent : d.exponent = Money.centPlace
  digits_le : d.digits ≤ Money.precision

theorem InCents.of_cents {d r : Decimal} (h : Money.cents d = .ok r) : InCents r :=
  ⟨(roundedAt_spec h).1, roundedAt_digits_le (by decide) h⟩

variable {P R : Decimal} {n : ℕ}

/-- The growth of a rate that counts always earns something. -/
theorem exists_earned_pos {r : Decimal} (h : Standard P R n) (hr : Earning r) :
    ∃ one growth earned, Decimal.add (workingPrecision r) 1 r = .ok one ∧
      one.pow (workingPrecision r) n = .ok growth ∧
      growth.sub (workingPrecision r) 1 = .ok earned ∧ 0 < earned.rat := by
  obtain ⟨one, hone, hrat, hdigits⟩ := hr.exists_one_add
  obtain ⟨growth, hgrowth, hnear⟩ := hr.exists_growth h.months_le hrat hdigits
  obtain ⟨earned, hearned, hoff⟩ := hr.exists_earned h.months_pos h.months_le hnear
  refine ⟨one, growth, earned, hone, hgrowth, hearned, ?_⟩
  have hlow := hoff.ge
  have hexact : 0 < (1 + r.rat) ^ n - 1 := hr.pos.trans_le (hr.le_earned h.months_pos)
  norm_num at hlow
  linarith

/-- The payment and the rate of accepted terms are `Modest`. -/
theorem exists_modest (h : Standard P R n) : ∃ rate m, monthlyRate R = .ok rate ∧
    payment P R n = .ok m ∧ Modest m rate := by
  obtain ⟨rate, m, hrate, hr0, hrle, -, hm, hexp, herr⟩ := exists_payment h
  have hexact := h.exactPayment_le
  have hexact0 := exactPayment_nonneg h.principal_pos.le h.monthly_nonneg h.months_pos
  obtain ⟨hlow, hhigh⟩ := abs_le.mp herr
  norm_num at hlow hhigh hexact
  exact ⟨rate, m, hrate, hm, hexp, by linarith, by linarith, hr0, hrle⟩

theorem Modest.inCents {m rate : Decimal} (h : Modest m rate) : InCents m := by
  have hlow := h.payment_ge
  have hhigh := h.payment_le
  refine ⟨h.payment_exponent, digits_le_of_cents h.payment_exponent (abs_le.mpr ⟨?_, ?_⟩)⟩
  · linarith
  · linarith

/-- The total of a modest payment is computed, and small. -/
theorem exists_total {m rate : Decimal} (hm : Modest m rate) (hn : n ≤ 240) :
    ∃ product total, m.mul Money.precision (ofNat n) = .ok product ∧
      Money.cents product = .ok total ∧ |total.rat| ≤ 10 ^ 12 := by
  have hn0 : (0 : ℚ) ≤ n := n.cast_nonneg
  have hn' : (n : ℚ) ≤ 240 := by exact_mod_cast hn
  have hmabs : |m.rat| ≤ 10 ^ 9 := abs_le.mpr ⟨by linarith [hm.payment_ge], hm.payment_le⟩
  have hx : |m.rat * (ofNat n).rat| ≤ 240 * 10 ^ 9 := by
    rw [rat_ofNat, abs_mul, abs_of_nonneg hn0, mul_comm]
    exact mul_le_mul hn' hmabs (abs_nonneg _) (by norm_num)
  have hvast : |m.rat * (ofNat n).rat| ≤ vast :=
    hx.trans ((by norm_num : (240 : ℚ) * 10 ^ 9 ≤ 10 ^ 12).trans (pow_le_vast 12 (by norm_num)))
  have hroom : (10 : ℚ) ^ (highest - 1) ≤ 10 ^ highest :=
    zpow_le_zpow_right₀ (by norm_num) (by omega)
  obtain ⟨product, hproduct⟩ := exists_mul (p := Money.precision) (by decide)
    ((lt_pow_highest hvast).trans_le hroom)
  have herr := mul_error (p := Money.precision) (by decide) hproduct
  have htiny := pow_tiniest_le (p := Money.precision) (by decide)
  have hspeck := speck_le 10 (by norm_num)
  have hle : |product.rat| ≤ 10 ^ 12 / 2 := by
    generalize m.rat * (ofNat n).rat = x at herr hx
    have hdiff := abs_sub_abs_le_abs_sub product.rat x
    norm_num [Money.precision] at herr htiny hspeck hx ⊢
    linarith
  obtain ⟨total, htotal, -, -, hcents⟩ := exists_cents_near (p := Money.precision) (d := product)
    (by decide) (by linarith)
  refine ⟨product, total, hproduct, htotal, ?_⟩
  linarith [abs_sub_abs_le_abs_sub total.rat product.rat]

/-- The `quote` of accepted terms is computed, with its sums to the cent. -/
theorem exists_quote (h : Standard P R n) : ∃ q, quote P R n = .ok q ∧
    payment P R n = .ok q.payment ∧ InCents q.payment ∧ InCents q.total ∧ InCents q.interest := by
  obtain ⟨rate, m, -, hm, hmodest⟩ := exists_modest h
  obtain ⟨product, total, hproduct, htotal, hle⟩ := exists_total hmodest h.months_le
  have hP : |P.negate.rat| ≤ 10 ^ 12 := by
    rw [rat_negate, abs_neg, abs_of_pos h.principal_pos]
    linarith [h.principal_le]
  have hroom : (2 : ℚ) * 10 ^ 12 < 10 ^ highest :=
    calc (2 : ℚ) * 10 ^ 12 ≤ 10 ^ (13 : ℤ) := by norm_num
      _ < 10 ^ highest := zpow_lt_zpow_right₀ (by norm_num) (by unfold highest; norm_num)
  obtain ⟨rest, hrest, hrestle⟩ := exists_add (p := Money.precision) (by decide) hle hP hroom
  have htiny := pow_tiniest_le (p := Money.precision) (by decide)
  have hspeck := speck_le 10 (by norm_num)
  obtain ⟨interest, hinterest, -⟩ := exists_cents_near (p := Money.precision) (d := rest)
    (by decide) (by linarith)
  refine ⟨⟨P, R, n, m, total, interest⟩, ?_, hm, hmodest.inCents, .of_cents htotal,
    .of_cents hinterest⟩
  unfold quote sub
  simp only [bind, Except.bind, hm, hproduct, htotal, hrest]
  rw [show Money.cents rest = .ok interest from hinterest]
  rfl

/-- The `schedule` of accepted terms is computed, with its balance and its interest to the cent. -/
theorem exists_schedule (h : Standard P R n) : ∃ opening es, Money.cents P = .ok opening ∧
    schedule P R n = .ok es ∧ ∀ e ∈ es, InCents e.interest := by
  obtain ⟨rate, m, hrate, hm, hmodest⟩ := exists_modest h
  obtain ⟨opening, hopening, hbounded⟩ := exists_opening h
  obtain ⟨left, rfl⟩ : ∃ left, n = left + 1 := ⟨n - 1, by have := h.months_pos; omega⟩
  obtain ⟨es, hes, hcourse⟩ := exists_course hmodest left opening 1 hbounded
  refine ⟨opening, es, hopening, ?_, ?_⟩
  · unfold schedule
    simp only [bind, Except.bind, hm, hopening, hrate, hes]
  · intro e he
    obtain ⟨k, hk, rfl⟩ := List.getElem_of_mem he
    obtain ⟨product, -, hinterest⟩ := (hcourse.ledger.month k hk).interest
    exact .of_cents hinterest

theorem quoteFor_decimal {term : ℤ} (h : 1 ≤ term) (principal annual : Decimal) :
    quoteFor (.decimal (.finite principal)) (.decimal (.finite annual)) (.int term) =
      Fault.ofArithmetic (quote principal annual term.toNat) := by
  unfold quoteFor
  rw [months_int h]
  rfl

/-- No arithmetic fails on terms that are accepted, whatever digits and exponents they are written
with: the rate, the payment, the quote and the schedule are computed; what is rounded to the cent
has room; and the growth of a rate that counts is not rounded to one. -/
theorem check_computes (principal annual : Decimal) (term : ℤ)
    (h : Loan.Limits.standard.check
      ⟨.decimal (.finite principal), .decimal (.finite annual), .int term⟩ = .ok ()) :
    ∃ rate opening q es, rateFor (.decimal (.finite annual)) = .ok rate ∧
      paymentFor (.decimal (.finite principal)) (.decimal (.finite annual)) (.int term) =
        .ok q.payment ∧
      quoteFor (.decimal (.finite principal)) (.decimal (.finite annual)) (.int term) = .ok q ∧
      scheduleFor (.decimal (.finite principal)) (.decimal (.finite annual)) (.int term) = .ok es ∧
      Money.cents principal = .ok opening ∧ InCents opening ∧ InCents q.payment ∧
      InCents q.total ∧ InCents q.interest ∧ (∀ e ∈ es, InCents e.interest) ∧
      (rate.isZero = false → leadingZeros rate ≤ mostLeadingZeros →
        ∃ one growth earned, Decimal.add (workingPrecision rate) 1 rate = .ok one ∧
          one.pow (workingPrecision rate) term.toNat = .ok growth ∧
          growth.sub (workingPrecision rate) 1 = .ok earned ∧ 0 < earned.rat) := by
  obtain ⟨hstandard, hterm⟩ := standard_of_check h
  obtain ⟨rate, hrate, hr0, hrle, hdigits, -⟩ := hstandard.exists_rate
  obtain ⟨q, hq, hpayment, hcents, htotal, hinterest⟩ := exists_quote hstandard
  obtain ⟨opening, es, hopening, hes, hentries⟩ := exists_schedule hstandard
  refine ⟨rate, opening, q, es, ?_, ?_, ?_, ?_, hopening, .of_cents hopening, hcents, htotal,
    hinterest, hentries, ?_⟩
  · unfold rateFor
    simp only [bind, Except.bind, Money.ofValue, Money.finite, hrate]
    rfl
  · rw [paymentFor_decimal hterm, hpayment]
    rfl
  · rw [quoteFor_decimal hterm, hq]
    rfl
  · rw [scheduleFor_decimal hterm, hes]
    rfl
  · intro hz hzeros
    exact exists_earned_pos hstandard (earning_of_counts hdigits hr0 hrle hz hzeros)

/-- Twenty thousand over twenty years, at a rate with nine hundred zeros behind the point. -/
theorem check_computes_tiny_rate :
    Loan.Limits.standard.check
      ⟨.decimal (.finite ⟨false, 2, 4⟩), .decimal (.finite ⟨false, 1, -900⟩), .int 240⟩ = .ok () ∧
    ∃ rate opening q es, rateFor (.decimal (.finite ⟨false, 1, -900⟩)) = .ok rate ∧
      paymentFor (.decimal (.finite ⟨false, 2, 4⟩)) (.decimal (.finite ⟨false, 1, -900⟩))
        (.int 240) = .ok q.payment ∧
      quoteFor (.decimal (.finite ⟨false, 2, 4⟩)) (.decimal (.finite ⟨false, 1, -900⟩))
        (.int 240) = .ok q ∧
      scheduleFor (.decimal (.finite ⟨false, 2, 4⟩)) (.decimal (.finite ⟨false, 1, -900⟩))
        (.int 240) = .ok es ∧
      Money.cents ⟨false, 2, 4⟩ = .ok opening ∧ InCents opening ∧ InCents q.payment ∧
      InCents q.total ∧ InCents q.interest ∧ (∀ e ∈ es, InCents e.interest) ∧
      (rate.isZero = false → leadingZeros rate ≤ mostLeadingZeros →
        ∃ one growth earned, Decimal.add (workingPrecision rate) 1 rate = .ok one ∧
          one.pow (workingPrecision rate) (240 : ℤ).toNat = .ok growth ∧
          growth.sub (workingPrecision rate) 1 = .ok earned ∧ 0 < earned.rat) := by
  have h : Loan.Limits.standard.check ⟨.decimal (.finite ⟨false, 2, 4⟩),
      .decimal (.finite ⟨false, 1, -900⟩), .int 240⟩ = .ok () := by
    have hrate : ((10 : ℚ) ^ 900)⁻¹ ≤ 50 :=
      (inv_le_one_of_one_le₀ (one_le_pow₀ (by norm_num))).trans (by norm_num)
    rw [Loan.Limits.check_standard_iff]
    norm_num [rat, signed, hrate]
  exact ⟨h, check_computes _ _ _ h⟩

end Annuity
end LoanDesk
