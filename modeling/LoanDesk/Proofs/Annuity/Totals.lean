import LoanDesk.Proofs.Annuity.Monotone
import LoanDesk.Proofs.Value.Fields

/-
# The interest of a quote

A quote multiplies the rounded payment by the months of the term, and with it what
rounding has added or taken. So its interest may be less than nothing: where there is
little or no interest and the cents of the amount cannot be shared out evenly among the
months, the total may fall short of the amount, by less than half a cent a month. It
does not where they can, since the payment is never less than the one without interest.

Key definitions: `Annuity.IsShared`.
Key theorems: `Annuity.quote_rat`, `Annuity.toCents_share_le_payment`,
`Annuity.quoteFor_interest`.
-/

namespace LoanDesk
namespace Annuity

open Decimal

/-- An amount that so many months share evenly to the cent. -/
def IsShared (d : Decimal) (months : ℕ) : Prop := ∃ k : ℤ, d.rat = months * (k / 100)

section amounts

variable {d : Decimal} {n : ℕ}

theorem InCents.isWholeCents (h : InCents d) : IsWholeCents d := by
  refine ⟨d.signed, ?_⟩
  rw [rat_eq_units, h.exponent]
  norm_num [Money.centPlace]
  ring

theorem IsWholeCents.negate (h : IsWholeCents d) : IsWholeCents d.negate := by
  obtain ⟨c, hc⟩ := h
  refine ⟨-c, ?_⟩
  rw [rat_negate, hc]
  push_cast
  ring

/-- Amounts in cents that are something and not vast have their leading digits close together. -/
theorem IsWholeCents.adjusted_between (h : IsWholeCents d) (hne : d.rat ≠ 0)
    (hle : |d.rat| ≤ 10 ^ 12) : -2 ≤ d.adjusted ∧ d.adjusted < 13 := by
  obtain ⟨c, hc⟩ := h
  have hc1 : 1 ≤ |c| := Int.one_le_abs fun h0 => hne (by rw [hc, h0]; norm_num)
  have hc1' : (1 : ℚ) ≤ |(c : ℚ)| := by exact_mod_cast hc1
  have habs : |d.rat| = |(c : ℚ)| / 100 := by
    rw [hc, abs_div]
    norm_num
  have hcoeff : 0 < d.coefficient := Nat.pos_of_ne_zero (mt rat_eq_zero_iff.mpr hne)
  refine ⟨le_adjusted ?_, adjusted_lt hcoeff (hle.trans_lt (by norm_num))⟩
  rw [habs]
  norm_num
  linarith

/-- An amount in cents has room at the precision. -/
theorem nearest_cents (c : ℤ) (h : |(c : ℚ) / 100| ≤ 10 ^ 12) :
    nearest Money.precision (c / 100) = c / 100 := by
  refine nearest_eq_self (k := c) (e := -2) (by decide) (by norm_num; ring) (h.trans_lt ?_)
  norm_num [Money.precision]

end amounts

/-! ### The sums of a quote are exact -/

section quote

variable {P R r m : Decimal} {n : ℕ}

theorem quote_rat {q : Quote} (h : Standard P R n) (hcents : IsWholeCents P)
    (hq : quote P R n = .ok q) : payment P R n = .ok q.payment ∧
      q.total.rat = q.payment.rat * n ∧ q.interest.rat = q.payment.rat * n - P.rat := by
  obtain ⟨c, hc, hc1, hmost⟩ := h.exists_cents hcents
  have hcent := h.cent_le hcents
  have hP8 := h.principal_le
  obtain ⟨rate, m', -, hm', hmodest⟩ := exists_modest h
  obtain ⟨m, hm, hq⟩ := bind_eq_ok hq
  obtain rfl : m = m' := Except.ok.inj (hm.symm.trans hm')
  obtain ⟨k, hk⟩ := hmodest.inCents.isWholeCents
  obtain ⟨product, hproduct, hq⟩ := bind_eq_ok hq
  obtain ⟨total, htotal, hq⟩ := bind_eq_ok hq
  obtain ⟨rest, hrest, hq⟩ := bind_eq_ok hq
  obtain ⟨interest, hinterest, hq⟩ := bind_eq_ok hq
  obtain rfl := Except.ok.inj hq
  have hn0 : (0 : ℚ) ≤ n := n.cast_nonneg
  have hn : (n : ℚ) ≤ 240 := by exact_mod_cast h.months_le
  have hx : |m.rat * n| ≤ 240 * 10 ^ 9 := by
    have hmabs : |m.rat| ≤ 10 ^ 9 :=
      abs_le.mpr ⟨by linarith [hmodest.payment_ge], hmodest.payment_le⟩
    rw [abs_mul, abs_of_nonneg hn0, mul_comm]
    exact mul_le_mul hn hmabs (abs_nonneg _) (by norm_num)
  have hxk : m.rat * n = (k * n : ℤ) / 100 := by
    rw [hk]
    push_cast
    ring
  have htotalrat : total.rat = m.rat * n := by
    rw [roundedAt_rat htotal, mul_rat (by decide) hproduct, rat_ofNat, hxk,
      nearest_cents _ (by rw [← hxk]; linarith), toCents_self]
  have hdue : m.rat * n - P.rat = (k * n - c : ℤ) / 100 := by
    rw [hxk, hc]
    push_cast
    ring
  have hclose : total.rat ≠ 0 → P.negate.rat ≠ 0 →
      total.adjusted - Money.precision - 1 ≤ P.negate.adjusted ∧
        P.negate.adjusted - Money.precision - 1 ≤ total.adjusted := by
    intro hne hne'
    obtain ⟨h1, h2⟩ := (InCents.of_cents htotal).isWholeCents.adjusted_between hne
      (by rw [htotalrat]; linarith)
    obtain ⟨h3, h4⟩ := hcents.negate.adjusted_between hne' (by
      rw [rat_negate, abs_neg, abs_of_pos (by linarith)]
      linarith)
    unfold Money.precision
    omega
  have hrestrat : rest.rat = m.rat * n - P.rat := by
    have hdueabs : |m.rat * n - P.rat| ≤ 10 ^ 12 := by
      have := abs_sub (m.rat * n) P.rat
      rw [abs_of_pos (by linarith : 0 < P.rat)] at this
      linarith
    rw [add_rat (by decide) hclose hrest, rat_negate, htotalrat, ← sub_eq_add_neg, hdue,
      nearest_cents _ (by rw [← hdue]; exact hdueabs)]
  refine ⟨hm, htotalrat, ?_⟩
  change interest.rat = m.rat * n - P.rat
  rw [roundedAt_rat hinterest, hrestrat, hdue, toCents_self]

/-! ### What the payment is at least -/

theorem monthly_zero : Monthly 0 := by
  have hrat : rat 0 = 0 := rat_ofNat 0
  refine ⟨by decide, hrat.ge, ?_⟩
  rw [hrat]
  norm_num

/-- The payment is never less than the one without interest, -/
theorem toCents_share_le_payment (h : Standard P R n) (hcents : IsWholeCents P)
    (hm : payment P R n = .ok m) : toPlace Money.centPlace (P.rat / n) ≤ m.rat := by
  obtain ⟨r, hr, hr0, -⟩ := h.exists_rate
  have hzero : rat 0 = 0 := rat_ofNat 0
  rw [payment_rat h hr hm, ← roundedPayment_of_faint h hcents monthly_zero (by
    rw [hzero, faint]
    norm_num)]
  exact roundedPayment_mono_rate h hcents monthly_zero (h.monthly hr) (hzero.trans_le hr0)

/-- and it is that one where there is none. -/
theorem payment_eq_toCents_share (h : Standard P R n) (hcents : IsWholeCents P)
    (hm : payment P R n = .ok m) (hR : R.rat = 0) :
    m.rat = toPlace Money.centPlace (P.rat / n) := by
  obtain ⟨r, hr, -⟩ := h.exists_rate
  have hrate : r.rat = 0 := by
    rw [monthlyRate_rat hr, hR, roundedRate, zero_div, nearest_zero, zero_div, nearest_zero]
  rw [payment_rat h hr hm, roundedPayment_of_faint h hcents (h.monthly hr) (by
    rw [hrate, faint]
    norm_num)]

theorem IsShared.toCents_share {d : Decimal} (h : IsShared d n) (hn : 1 ≤ n) :
    toPlace Money.centPlace (d.rat / n) * n = d.rat := by
  have hn' : (n : ℚ) ≠ 0 := by exact_mod_cast (show n ≠ 0 by omega)
  obtain ⟨k, hk⟩ := h
  rw [hk, mul_div_cancel_left₀ _ hn', toCents_self, mul_comm]

end quote

/-- The interest of a quote for an amount in whole cents is what the payments of the term come to
beyond the amount. It may be less than nothing, by less than half a cent for each month, but not
where the months share the amount evenly. Without interest it is nothing if and only if they do. -/
theorem quoteFor_interest (principal annual : Decimal) (term : ℤ)
    (h : Loan.Limits.standard.check
      ⟨.decimal (.finite principal), .decimal (.finite annual), .int term⟩ = .ok ())
    (hcents : IsWholeCents principal) :
    ∃ q, quoteFor (.decimal (.finite principal)) (.decimal (.finite annual)) (.int term) = .ok q ∧
      q.interest.rat = q.payment.rat * term - principal.rat ∧
      -(term / 200) < q.interest.rat ∧
      (IsShared principal term.toNat → 0 ≤ q.interest.rat) ∧
      (annual.rat = 0 → q.interest.rat ≤ term / 200 ∧
        (q.interest.rat = 0 ↔ IsShared principal term.toNat)) := by
  obtain ⟨hstandard, hterm⟩ := standard_of_check h
  obtain ⟨q, hq, -, hpayment, -⟩ := exists_quote hstandard
  obtain ⟨hm, -, hinterest⟩ := quote_rat hstandard hcents hq
  have hn := hstandard.months_pos
  have htermq : ((term.toNat : ℕ) : ℚ) = term := by
    exact_mod_cast Int.toNat_of_nonneg (by omega : 0 ≤ term)
  have hn0 : (0 : ℚ) < term.toNat := by exact_mod_cast hn
  have hshare0 : 0 ≤ principal.rat / term.toNat :=
    div_nonneg hstandard.principal_pos.le hn0.le
  have hleast := mul_le_mul_of_nonneg_right (toCents_share_le_payment hstandard hcents hm) hn0.le
  have hshare : principal.rat / term.toNat * term.toNat = principal.rat :=
    div_mul_cancel₀ _ hn0.ne'
  rw [← htermq]
  refine ⟨q, ?_, hinterest, ?_, fun hshared => ?_,
    fun hR => ⟨?_, fun hzero => ?_, fun hshared => ?_⟩⟩
  · rw [quoteFor_decimal hterm, hq]
    rfl
  · have := mul_lt_mul_of_pos_right (lt_toCents_add hshare0) hn0
    linarith
  · rw [hshared.toCents_share hn] at hleast
    linarith
  · have := mul_le_mul_of_nonneg_right (toCents_le_add hshare0) hn0.le
    rw [hinterest, payment_eq_toCents_share hstandard hcents hm hR]
    linarith
  · obtain ⟨k, hk⟩ := hpayment.isWholeCents
    refine ⟨k, ?_⟩
    rw [← hk]
    linarith
  · rw [hinterest, payment_eq_toCents_share hstandard hcents hm hR, hshared.toCents_share hn,
      sub_self]

/-- One hundred over four months at a rate with nine hundred zeros behind the point. -/
theorem quoteFor_interest_shared :
    Loan.Limits.standard.check ⟨.decimal (.finite ⟨false, 100, 0⟩),
      .decimal (.finite ⟨false, 1, -900⟩), .int 4⟩ = .ok () ∧
    IsWholeCents ⟨false, 100, 0⟩ ∧
    ∃ q, quoteFor (.decimal (.finite ⟨false, 100, 0⟩)) (.decimal (.finite ⟨false, 1, -900⟩))
        (.int 4) = .ok q ∧
      q.interest.rat = q.payment.rat * (4 : ℤ) - rat ⟨false, 100, 0⟩ ∧
      0 ≤ q.interest.rat := by
  have h : Loan.Limits.standard.check ⟨.decimal (.finite ⟨false, 100, 0⟩),
      .decimal (.finite ⟨false, 1, -900⟩), .int 4⟩ = .ok () := by
    have hrate : ((10 : ℚ) ^ 900)⁻¹ ≤ 50 :=
      (inv_le_one_of_one_le₀ (one_le_pow₀ (by norm_num))).trans (by norm_num)
    rw [Loan.Limits.check_standard_iff]
    norm_num [rat, signed, hrate]
  have hcents : IsWholeCents ⟨false, 100, 0⟩ := ⟨10000, by norm_num [rat, signed]⟩
  obtain ⟨q, hq, hinterest, -, hshared, -⟩ := quoteFor_interest _ _ _ h hcents
  exact ⟨h, hcents, q, hq, hinterest, hshared ⟨2500, by
    rw [show (4 : ℤ).toNat = 4 from rfl]
    norm_num [rat, signed]⟩⟩

/-- One hundred without interest over three months: three payments of a third, rounded down to the
cent, are a cent less than the amount. -/
theorem quoteFor_interest_negative :
    Loan.Limits.standard.check ⟨.decimal (.finite ⟨false, 100, 0⟩),
      .decimal (.finite ⟨false, 0, 0⟩), .int 3⟩ = .ok () ∧
    IsWholeCents ⟨false, 100, 0⟩ ∧
    ∃ q, quoteFor (.decimal (.finite ⟨false, 100, 0⟩)) (.decimal (.finite ⟨false, 0, 0⟩))
        (.int 3) = .ok q ∧ q.interest.rat = -(1 / 100) := by
  have hquote : quote ⟨false, 100, 0⟩ ⟨false, 0, 0⟩ 3 = .ok ⟨⟨false, 100, 0⟩, ⟨false, 0, 0⟩, 3,
      ⟨false, 3333, -2⟩, ⟨false, 9999, -2⟩, ⟨true, 1, -2⟩⟩ := by decide +kernel
  have hquoteFor := quoteFor_decimal (show 1 ≤ (3 : ℤ) by decide) ⟨false, 100, 0⟩ ⟨false, 0, 0⟩
  rw [show (3 : ℤ).toNat = 3 from rfl, hquote] at hquoteFor
  refine ⟨?_, ⟨10000, by norm_num [rat, signed]⟩, _, hquoteFor, ?_⟩
  · rw [Loan.Limits.check_standard_iff]
    norm_num [rat, signed]
  · norm_num [rat, signed]

end Annuity
end LoanDesk
