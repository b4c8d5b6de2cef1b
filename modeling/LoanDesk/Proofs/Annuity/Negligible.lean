import LoanDesk.Proofs.Annuity.Totals

/-
# Negligible rates

A rate up to a millionth of a millionth of a percent a year is faint, whether its payment
is computed with many digits or its zeros are too many and it counts as none. So it costs
nothing: the payment comes to the same cents as without interest. And it is the same
decimal, since a payment is written in cents and carries no sign, not even where it is
nothing.

Key theorems: `Annuity.roundedRate_le_faint`, `Annuity.payment_negative`,
`Annuity.payment_of_negligible`, `Annuity.paymentFor_negligible`.
-/

namespace LoanDesk
namespace Annuity

open Decimal

/-- The monthly rate of a negligible annual rate is faint. -/
theorem roundedRate_le_faint {ρ : ℚ} (h : ρ ≤ 1 / 10 ^ 12) : roundedRate ρ ≤ faint := by
  have hyear : nearest Money.precision (12 / 10 ^ 12 / 12) = 1 / 10 ^ 12 := by
    rw [show (12 : ℚ) / 10 ^ 12 / 12 = 1 / 10 ^ 12 by norm_num]
    exact nearest_eq_self (k := 1) (e := -12) (by decide) (by norm_num)
      (by norm_num [Money.precision])
  have hmonth : nearest Money.precision (1 / 10 ^ 12 / 100) = faint := by
    rw [show (1 : ℚ) / 10 ^ 12 / 100 = faint by norm_num [faint]]
    exact nearest_eq_self (k := 1) (e := -14) (by decide) (by norm_num [faint])
      (by norm_num [Money.precision, faint])
  calc roundedRate ρ ≤ roundedRate (12 / 10 ^ 12) := roundedRate_mono (by norm_num at h ⊢; linarith)
    _ = faint := by rw [roundedRate, hyear, hmonth]

section payment

variable {P R Z m : Decimal} {n : ℕ}

/-- A payment has no sign, be it nothing. -/
theorem payment_negative (h : Standard P R n) (hcents : IsWholeCents P)
    (hm : payment P R n = .ok m) : m.negative = false := by
  have hP := negative_eq_false_of_pos h.principal_pos
  obtain ⟨r, hr, -⟩ := h.exists_rate
  have hmonthly := h.monthly hr
  unfold payment at hm
  rw [hr] at hm
  obtain ⟨r', hr', hm⟩ := bind_eq_ok hm
  obtain rfl := Except.ok.inj hr'
  split at hm
  · -- without interest the sign is that of the share
    obtain ⟨share, hshare, hm⟩ := bind_eq_ok hm
    rw [(roundedAt_spec hm).2.1, div_negative hshare, hP]
    rfl
  · -- with interest it is that of an amount near the exact payment, which is something
    rename_i hcounts
    have hlow := mt (counts_as_none_iff hmonthly.nonneg).mpr hcounts
    have hearning := hmonthly.earning (not_lt.mp hlow)
    obtain ⟨q, hq, -, hnear⟩ := hearning.exists_interestAmount h
    rw [hq] at hm
    rw [(roundedAt_spec hm).2.1]
    have hleast := exactPayment_mono h.principal_pos.le le_rfl hmonthly.nonneg h.months_pos
    rw [exactPayment_zero] at hleast
    have hshare := h.le_share hcents
    have hge := hnear.ge
    norm_num at hge hshare
    exact negative_eq_false_of_pos (by linarith)

/-- Amounts to the cent that are equal and have no sign are the same decimal. -/
theorem InCents.eq_of_rat {a b : Decimal} (ha : InCents a) (hb : InCents b)
    (hna : a.negative = false) (hnb : b.negative = false) (h : a.rat = b.rat) : a = b := by
  have hunit : (0 : ℚ) < 10 ^ Money.centPlace := zpow_pos (by norm_num) _
  rw [rat_of_not_negative hna, rat_of_not_negative hnb, ha.exponent, hb.exponent,
    mul_left_inj' hunit.ne'] at h
  have hcoefficient : a.coefficient = b.coefficient := by exact_mod_cast h
  cases a
  cases b
  simp only [Decimal.mk.injEq]
  exact ⟨hna.trans hnb.symm, hcoefficient, ha.exponent.trans hb.exponent.symm⟩

/-- At a negligible rate the payment is the one without interest. -/
theorem payment_of_negligible (hnone : Standard P Z n) (hcents : IsWholeCents P) (hZ : Z.rat = 0)
    (hR : 0 ≤ R.rat) (hnegligible : R.rat ≤ 1 / 10 ^ 12) :
    ∃ m, payment P R n = .ok m ∧ payment P Z n = .ok m := by
  have h : Standard P R n :=
    { hnone with annual_nonneg := hR, annual_le := hnegligible.trans (by norm_num) }
  obtain ⟨r, m, hr, hm, hmodest⟩ := exists_modest h
  obtain ⟨_, m', -, hm', hmodest'⟩ := exists_modest hnone
  have hcost : m.rat = m'.rat := by
    rw [payment_rat h hr hm, payment_eq_toCents_share hnone hcents hm' hZ]
    exact roundedPayment_of_faint h hcents (h.monthly hr)
      ((monthlyRate_rat hr).trans_le (roundedRate_le_faint hnegligible))
  obtain rfl := hmodest.inCents.eq_of_rat hmodest'.inCents (payment_negative h hcents hm)
    (payment_negative hnone hcents hm') hcost
  exact ⟨m, hm, hm'⟩

end payment

/-- Rates up to a millionth of a millionth of a percent a year cost nothing: the payment of every
loan of whole cents that is accepted without interest is the same at such a rate, to the last
digit. -/
theorem paymentFor_negligible (principal annual zero : Decimal) (term : ℤ)
    (h : Loan.Limits.standard.check
      ⟨.decimal (.finite principal), .decimal (.finite zero), .int term⟩ = .ok ())
    (hcents : IsWholeCents principal) (hzero : zero.rat = 0) (hannual : 0 ≤ annual.rat)
    (hnegligible : annual.rat ≤ 1 / 10 ^ 12) :
    ∃ m, paymentFor (.decimal (.finite principal)) (.decimal (.finite annual)) (.int term) = .ok m ∧
      paymentFor (.decimal (.finite principal)) (.decimal (.finite zero)) (.int term) = .ok m := by
  obtain ⟨hnone, hterm⟩ := standard_of_check h
  obtain ⟨m, hm, hplain⟩ := payment_of_negligible hnone hcents hzero hannual hnegligible
  refine ⟨m, ?_, ?_⟩
  · rw [paymentFor_decimal hterm, hm]
    rfl
  · rw [paymentFor_decimal hterm, hplain]
    rfl

/-- One cent over two months at the highest negligible rate: the share of a month is half a cent,
and both payments are a cent. -/
theorem paymentFor_negligible_half_cent :
    Loan.Limits.standard.check ⟨.decimal (.finite ⟨false, 1, -2⟩),
      .decimal (.finite ⟨true, 0, 3⟩), .int 2⟩ = .ok () ∧
    IsWholeCents ⟨false, 1, -2⟩ ∧ rat ⟨true, 0, 3⟩ = 0 ∧ 0 ≤ rat ⟨false, 1, -12⟩ ∧
    rat ⟨false, 1, -12⟩ ≤ 1 / 10 ^ 12 ∧
    paymentFor (.decimal (.finite ⟨false, 1, -2⟩)) (.decimal (.finite ⟨false, 1, -12⟩)) (.int 2) =
      .ok ⟨false, 1, -2⟩ ∧
    paymentFor (.decimal (.finite ⟨false, 1, -2⟩)) (.decimal (.finite ⟨true, 0, 3⟩)) (.int 2) =
      .ok ⟨false, 1, -2⟩ := by
  have h : Loan.Limits.standard.check ⟨.decimal (.finite ⟨false, 1, -2⟩),
      .decimal (.finite ⟨true, 0, 3⟩), .int 2⟩ = .ok () := by
    rw [Loan.Limits.check_standard_iff]
    norm_num [rat, signed]
  have hcents : IsWholeCents ⟨false, 1, -2⟩ := ⟨1, by norm_num [rat, signed]⟩
  have hnone : rat ⟨true, 0, 3⟩ = 0 := by norm_num [rat, signed]
  have hrate : 0 ≤ rat ⟨false, 1, -12⟩ := by norm_num [rat, signed]
  have hnegligible : rat ⟨false, 1, -12⟩ ≤ 1 / 10 ^ 12 := by norm_num [rat, signed]
  obtain ⟨m, hm, hplain⟩ := paymentFor_negligible _ _ _ _ h hcents hnone hrate hnegligible
  have hcent : paymentFor (.decimal (.finite ⟨false, 1, -2⟩)) (.decimal (.finite ⟨true, 0, 3⟩))
      (.int 2) = .ok ⟨false, 1, -2⟩ := by
    have hpayment : payment ⟨false, 1, -2⟩ ⟨true, 0, 3⟩ 2 = .ok ⟨false, 1, -2⟩ := by decide +kernel
    rw [paymentFor_decimal (by decide)]
    exact congrArg Fault.ofArithmetic hpayment
  obtain rfl := Except.ok.inj (hplain.symm.trans hcent)
  exact ⟨h, hcents, hnone, hrate, hnegligible, hm, hplain⟩

end Annuity
end LoanDesk
