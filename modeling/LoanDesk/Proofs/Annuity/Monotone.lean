import LoanDesk.Proofs.Annuity.Faint

/-
# The payment is monotone

The exact payment grows with the principal and with the rate and falls with the term.
With the principal the computed one does so step by step, since rounding keeps the order
of amounts. The steps do not keep the order of rates and terms: the growth is in the
numerator and in the divisor, and its last digits are noise. But two rates that are not
the same differ in one of their digits, and so do the exact payments, by more than the
noise; only faint rates are closer, and they all come to the payment without interest.

Key theorems: `Annuity.exactPayment_gap_rate`, `Annuity.exactPayment_gap_term`,
`Annuity.Monthly.gap`, `Annuity.roundedPayment_mono_rate`,
`Annuity.roundedPayment_anti_term`, `Annuity.payment_mono`, `Annuity.paymentFor_mono`.
-/

namespace LoanDesk

/-- Errors do not turn the order of two numbers with a gap between them. -/
theorem Near.le_of_gap {δ τ γ x y v w : ℚ} (hx : Near δ τ x v) (hy : Near δ τ y w) (h0 : 0 ≤ x)
    (hδ0 : 0 ≤ δ) (hδ : 4 * δ ≤ γ) (hγ : γ ≤ 1) (hτ : 8 * τ ≤ γ * x)
    (hgap : x * (1 + γ) ≤ y) : v ≤ w := by
  have hv := hx.le
  have hw := hy.ge
  have hy' : x * (1 + γ) * (1 - δ) ≤ y * (1 - δ) :=
    mul_le_mul_of_nonneg_right hgap (by linarith)
  have hγδ : x * (γ * δ) ≤ x * δ := by
    refine mul_le_mul_of_nonneg_left ?_ h0
    exact mul_le_of_le_one_left hδ0 hγ
  have hδx : x * (4 * δ) ≤ x * γ := mul_le_mul_of_nonneg_left hδ h0
  linarith

namespace Annuity

open Decimal Finset

/-! ### The exact payment moves by a part that counts -/

section gaps

variable {r s P γ : ℚ} {k n : ℕ}

/-- A present value that is greater by a part of itself makes the payment less by that part. -/
theorem exactPayment_gap {r s : ℚ} {k n : ℕ} (hP : 0 ≤ P) (hr : 0 ≤ r) (hs : 0 ≤ s) (hk : 1 ≤ k)
    (hn : 1 ≤ n) (h : presentValue s k * (1 + γ) ≤ presentValue r n) :
    exactPayment P r n * (1 + γ) ≤ exactPayment P s k := by
  have hV := presentValue_pos hr hn
  have hW := presentValue_pos hs hk
  rw [exactPayment_eq_div hr hn, exactPayment_eq_div hs hk, div_mul_eq_mul_div,
    div_le_div_iff₀ hV hW]
  calc P * (1 + γ) * presentValue s k = P * (presentValue s k * (1 + γ)) := by ring
    _ ≤ P * presentValue r n := mul_le_mul_of_nonneg_left h hP

/-- The `exactPayment` grows with the rate, by a part that counts. -/
theorem exactPayment_gap_rate (hP : 0 ≤ P) (hr : 0 ≤ r) (hrs : r ≤ s) (hs : s ≤ 1 / 20)
    (hn : 1 ≤ n) : exactPayment P r n * (1 + (s - r) / (2 * n)) ≤ exactPayment P s n := by
  have hn' : (0 : ℚ) < n := by exact_mod_cast hn
  have hs0 := hr.trans hrs
  refine exactPayment_gap hP hr hs0 hn hn ?_
  have hfirst : (1 + r)⁻¹ - (1 + s)⁻¹ ≤ presentValue r n - presentValue s n := by
    have h := single_le_sum (f := fun i => ((1 + r) ^ (i + 1))⁻¹ - ((1 + s) ^ (i + 1))⁻¹)
      (s := range n) (fun i _ => sub_nonneg.mpr
        (inv_anti₀ (by positivity) (pow_le_pow_left₀ (by linarith) (by linarith) _)))
      (mem_range.mpr hn)
    simpa [presentValue, sum_sub_distrib] using h
  have hdiff : (s - r) / 2 ≤ (1 + r)⁻¹ - (1 + s)⁻¹ := by
    rw [inv_sub_inv (by linarith) (by linarith), add_sub_add_left_eq_sub]
    refine div_le_div_of_nonneg_left (by linarith) (by positivity) ?_
    calc (1 + r) * (1 + s) ≤ (21 / 20) * (21 / 20) :=
          mul_le_mul (by linarith) (by linarith) (by linarith) (by norm_num)
      _ ≤ 2 := by norm_num
  have hpart : presentValue s n * ((s - r) / (2 * n)) ≤ (s - r) / 2 := by
    calc presentValue s n * ((s - r) / (2 * n)) ≤ n * ((s - r) / (2 * n)) :=
          mul_le_mul_of_nonneg_right (presentValue_le hs0 n)
            (div_nonneg (by linarith) (by positivity))
      _ = (s - r) / 2 := by field_simp
  linarith

/-- The `exactPayment` falls with the term, by a part that counts. -/
theorem exactPayment_gap_term (hP : 0 ≤ P) (hr : 0 ≤ r) (hr' : r ≤ 1 / 20) (hk : 1 ≤ k)
    (hkn : k < n) (hn : n ≤ 240) :
    exactPayment P r n * (1 + 1 / 10 ^ 9) ≤ exactPayment P r k := by
  refine exactPayment_gap hP hr hr hk (by omega) ?_
  have hnext : presentValue r (k + 1) = presentValue r k + ((1 + r) ^ (k + 1))⁻¹ :=
    sum_range_succ ..
  have hmono := presentValue_mono hr (show k + 1 ≤ n by omega)
  have hk' : presentValue r k ≤ 240 := by
    have : (k : ℚ) ≤ 240 := by exact_mod_cast (show k ≤ 240 by omega)
    exact (presentValue_le hr k).trans this
  have hgrowth : (1 + r) ^ (k + 1) ≤ 10 ^ 6 := by
    calc (1 + r) ^ (k + 1) ≤ (21 / 20) ^ (k + 1) :=
          pow_le_pow_left₀ (by linarith) (by linarith) _
      _ ≤ (21 / 20) ^ 240 := pow_le_pow_right₀ (by norm_num) (by omega)
      _ ≤ 10 ^ 6 := by norm_num
  have hinv : ((10 : ℚ) ^ 6)⁻¹ ≤ ((1 + r) ^ (k + 1))⁻¹ := inv_anti₀ (by positivity) hgrowth
  norm_num at hinv ⊢
  linarith

end gaps

/-! ### And so does the computed one -/

section moves

variable {P Q R S r s : Decimal} {k n : ℕ}

/-- Two rates written with few digits that are not the same are not close. -/
theorem Monthly.gap (hr : Monthly r) (hs : Monthly s) (h : r.rat < s.rat) :
    r.rat / 10 ^ 28 ≤ s.rat - r.rat := by
  obtain ⟨a, ha⟩ := exists_finer r.signed (min_le_left r.exponent s.exponent)
  obtain ⟨b, hb⟩ := exists_finer s.signed (min_le_right r.exponent s.exponent)
  rw [← rat_eq_units] at ha hb
  have hunit : (0 : ℚ) < 10 ^ min r.exponent s.exponent := zpow_pos (by norm_num) _
  have hab : a + 1 ≤ b := by
    rw [ha, hb, mul_lt_mul_iff_of_pos_right hunit] at h
    exact_mod_cast h
  have hstep : (10 : ℚ) ^ min r.exponent s.exponent ≤ s.rat - r.rat := by
    have hab' : (a : ℚ) + 1 ≤ b := by exact_mod_cast hab
    have := mul_le_mul_of_nonneg_right hab' hunit.le
    rw [ha, hb]
    linarith
  have hmost : r.rat ≤ 10 ^ (min r.exponent s.exponent + 28) := by
    have hrdigits := hr.digits_le
    have hsdigits := hs.digits_le
    have hrlt := r.abs_rat_lt_pow
    have hslt := s.abs_rat_lt_pow
    rw [abs_of_nonneg hr.nonneg] at hrlt
    rw [abs_of_nonneg hs.nonneg] at hslt
    unfold adjusted at hrlt hslt
    rcases min_choice r.exponent s.exponent with hm | hm <;> rw [hm]
    · exact hrlt.le.trans (zpow_le_zpow_right₀ (by norm_num) (by omega))
    · exact (h.trans hslt).le.trans (zpow_le_zpow_right₀ (by norm_num) (by omega))
  rw [zpow_add₀ (by norm_num)] at hmost
  refine le_trans ?_ hstep
  rw [div_le_iff₀ (by positivity)]
  exact_mod_cast hmost

/-- A payment at a rate that is not faint is not below any that is less by a part that counts. -/
theorem Earning.le_unroundedPayment {γ x v : ℚ} (hs : Earning s) (h : Standard P S n)
    (hx : Near (1 / 10 ^ 46) (1 / 10 ^ 90) x v) (hx0 : 1 / 24000 ≤ x) (hγ : 1 / 10 ^ 45 ≤ γ)
    (hγ1 : γ ≤ 1) (hgap : x * (1 + γ) ≤ exactPayment P.rat s.rat n) :
    v ≤ unroundedPayment P.rat s.rat n := by
  refine hx.le_of_gap (hs.unroundedPayment_near h) (by linarith) (by norm_num) (by linarith) hγ1 ?_
    hgap
  have := mul_le_mul hγ hx0 (by norm_num) (by linarith)
  linarith

/-- So is one whose rate is greater by a difference that counts. -/
theorem Earning.le_unroundedPayment_of_gap {v : ℚ} (hs : Earning s) (h : Standard P S n)
    (hcents : IsWholeCents P) {ρ : ℚ} (hρ : 0 ≤ ρ) (hgap : 1 / 10 ^ 42 ≤ s.rat - ρ)
    (hv : Near (1 / 10 ^ 46) (1 / 10 ^ 90) (exactPayment P.rat ρ n) v) :
    v ≤ unroundedPayment P.rat s.rat n := by
  have hP0 := h.principal_pos
  have hn := h.months_pos
  have hnq : (1 : ℚ) ≤ n := by exact_mod_cast hn
  have hnq' : (n : ℚ) ≤ 240 := by exact_mod_cast h.months_le
  have hsle := hs.le
  have hshare := h.le_share hcents
  have hmore := exactPayment_mono hP0.le le_rfl hρ hn
  rw [exactPayment_zero] at hmore
  refine hs.le_unroundedPayment h (γ := (s.rat - ρ) / (2 * n)) hv (hshare.trans hmore) ?_ ?_
    (exactPayment_gap_rate hP0.le hρ (by norm_num at hgap; linarith) hs.le hn)
  · rw [le_div_iff₀ (by linarith)]
    have := mul_le_mul_of_nonneg_left hnq' (by norm_num : (0 : ℚ) ≤ 1 / 10 ^ 45)
    norm_num at hgap ⊢
    linarith
  · rw [div_le_iff₀ (by linarith)]
    linarith

theorem roundedPayment_mono_rate (h : Standard P R n) (hcents : IsWholeCents P) (hr : Monthly r)
    (hs : Monthly s) (hrs : r.rat ≤ s.rat) :
    roundedPayment P.rat r.rat n ≤ roundedPayment P.rat s.rat n := by
  rcases hrs.eq_or_lt with heq | hlt
  · rw [heq]
  rcases le_or_gt s.rat faint with hfaint | hclear
  · -- both come to the plain payment
    rw [roundedPayment_of_faint h hcents hr (by linarith),
      roundedPayment_of_faint h hcents hs hfaint]
  have hclear' : 1 / 10 ^ 14 < s.rat := hclear
  rcases le_or_gt r.rat faint with hfaint | hboth
  · -- the plain payment is the one without interest
    rw [roundedPayment_of_faint h hcents hr hfaint]
    refine toPlace_mono ((hs.earning_of_faint_lt hclear).le_unroundedPayment_of_gap h hcents
      (ρ := 0) le_rfl ?_ ?_)
    · norm_num at hclear' ⊢
      linarith
    · have := h.le_share hcents
      rw [exactPayment_zero, Near, sub_self, abs_zero]
      linarith
  · -- the rates are further apart than the errors
    have hboth' : 1 / 10 ^ 14 < r.rat := hboth
    have hapart := hr.gap hs hlt
    refine toPlace_mono ((hs.earning_of_faint_lt hclear).le_unroundedPayment_of_gap h hcents
      hr.nonneg ?_ ((hr.earning_of_faint_lt hboth).unroundedPayment_near h))
    norm_num at hapart hboth' ⊢
    linarith

theorem roundedPayment_anti_term (h : Standard P R n) (hcents : IsWholeCents P) (hr : Monthly r)
    (hk : 1 ≤ k) (hkn : k ≤ n) : roundedPayment P.rat r.rat n ≤ roundedPayment P.rat r.rat k := by
  have hP0 := h.principal_pos
  have hkq : (0 : ℚ) < k := by exact_mod_cast hk
  have hknq : (k : ℚ) ≤ n := by exact_mod_cast hkn
  have h' : Standard P R k := { h with months_pos := hk, months_le := hkn.trans h.months_le }
  rcases hkn.eq_or_lt with rfl | hlt
  · exact le_rfl
  rcases le_or_gt r.rat faint with hfaint | hclear
  · rw [roundedPayment_of_faint h hcents hr hfaint, roundedPayment_of_faint h' hcents hr hfaint]
    exact toPlace_mono (div_le_div_of_nonneg_left hP0.le hkq hknq)
  · have hearning := hr.earning_of_faint_lt hclear
    have hmore := exactPayment_mono hP0.le le_rfl hr.nonneg h.months_pos
    rw [exactPayment_zero] at hmore
    exact toPlace_mono (hearning.le_unroundedPayment h' (hearning.unroundedPayment_near h)
      ((h.le_share hcents).trans hmore) (γ := 1 / 10 ^ 9) (by norm_num) (by norm_num)
      (exactPayment_gap_term hP0.le hr.nonneg hr.le hk hlt h.months_le))

/-- The `payment` does not fall when the amount or the rate grows, and not when the term falls. -/
theorem payment_mono {k' : ℕ} {m w : Decimal} (h : Standard P R n) (h' : Standard Q S k')
    (hcents : IsWholeCents P) (hPQ : P.rat ≤ Q.rat) (hRS : R.rat ≤ S.rat) (hk : k' ≤ n)
    (hm : payment P R n = .ok m) (hw : payment Q S k' = .ok w) : m.rat ≤ w.rat := by
  obtain ⟨r, hr, -⟩ := h.exists_rate
  obtain ⟨s, hs, -⟩ := h'.exists_rate
  have hmr := h.monthly hr
  have hms := h'.monthly hs
  have hrs : r.rat ≤ s.rat := by
    rw [monthlyRate_rat hr, monthlyRate_rat hs]
    exact roundedRate_mono hRS
  calc m.rat = roundedPayment P.rat r.rat n := payment_rat h hr hm
    _ ≤ roundedPayment P.rat s.rat n := roundedPayment_mono_rate h hcents hmr hms hrs
    _ ≤ roundedPayment P.rat s.rat k' := roundedPayment_anti_term h hcents hms h'.months_pos hk
    _ ≤ roundedPayment Q.rat s.rat k' := roundedPayment_mono_principal hms hPQ
    _ = w.rat := (payment_rat h' hs hw).symm

end moves

/-- The payments of two loans that are accepted are ordered as their terms are: where the amount and
the rate are no less and the term is no longer, the payment is no less. The lesser amount is in
whole cents. -/
theorem paymentFor_mono (P Q R S : Decimal) (t u : ℤ)
    (h : Loan.Limits.standard.check
      ⟨.decimal (.finite P), .decimal (.finite R), .int t⟩ = .ok ())
    (h' : Loan.Limits.standard.check
      ⟨.decimal (.finite Q), .decimal (.finite S), .int u⟩ = .ok ())
    (hcents : IsWholeCents P) (hamount : P.rat ≤ Q.rat) (hrate : R.rat ≤ S.rat) (hterm : u ≤ t) :
    ∃ m w, paymentFor (.decimal (.finite P)) (.decimal (.finite R)) (.int t) = .ok m ∧
      paymentFor (.decimal (.finite Q)) (.decimal (.finite S)) (.int u) = .ok w ∧
      m.rat ≤ w.rat := by
  obtain ⟨hstandard, ht⟩ := standard_of_check h
  obtain ⟨hstandard', hu⟩ := standard_of_check h'
  obtain ⟨-, m, -, -, -, -, hm, -⟩ := exists_payment hstandard
  obtain ⟨-, w, -, -, -, -, hw, -⟩ := exists_payment hstandard'
  refine ⟨m, w, ?_, ?_, payment_mono hstandard hstandard' hcents hamount hrate (by omega) hm hw⟩
  · rw [paymentFor_decimal ht, hm]
    rfl
  · rw [paymentFor_decimal hu, hw]
    rfl

/-- One cent over two months is paid back with half a cent each, with no interest and at a rate
with nine hundred zeros behind the point. -/
theorem paymentFor_mono_half_cent :
    Loan.Limits.standard.check
      ⟨.decimal (.finite ⟨false, 1, -2⟩), .decimal (.finite ⟨false, 0, 0⟩), .int 2⟩ = .ok () ∧
    Loan.Limits.standard.check
      ⟨.decimal (.finite ⟨false, 1, -2⟩), .decimal (.finite ⟨false, 1, -900⟩), .int 2⟩ = .ok () ∧
    IsWholeCents ⟨false, 1, -2⟩ ∧ rat ⟨false, 0, 0⟩ ≤ rat ⟨false, 1, -900⟩ ∧
    ∃ m w, paymentFor (.decimal (.finite ⟨false, 1, -2⟩)) (.decimal (.finite ⟨false, 0, 0⟩))
        (.int 2) = .ok m ∧
      paymentFor (.decimal (.finite ⟨false, 1, -2⟩)) (.decimal (.finite ⟨false, 1, -900⟩))
        (.int 2) = .ok w ∧
      m.rat ≤ w.rat := by
  have hrate : ((10 : ℚ) ^ 900)⁻¹ ≤ 50 :=
    (inv_le_one_of_one_le₀ (one_le_pow₀ (by norm_num))).trans (by norm_num)
  have h : Loan.Limits.standard.check
      ⟨.decimal (.finite ⟨false, 1, -2⟩), .decimal (.finite ⟨false, 0, 0⟩), .int 2⟩ = .ok () := by
    rw [Loan.Limits.check_standard_iff]
    norm_num [rat, signed]
  have h' : Loan.Limits.standard.check
      ⟨.decimal (.finite ⟨false, 1, -2⟩), .decimal (.finite ⟨false, 1, -900⟩),
        .int 2⟩ = .ok () := by
    rw [Loan.Limits.check_standard_iff]
    norm_num [rat, signed, hrate]
  have hcents : IsWholeCents ⟨false, 1, -2⟩ := ⟨1, by norm_num [rat, signed]⟩
  have hle : rat ⟨false, 0, 0⟩ ≤ rat ⟨false, 1, -900⟩ := by
    rw [rat_of_not_negative rfl, rat_of_not_negative rfl]
    norm_num
  exact ⟨h, h', hcents, hle, paymentFor_mono _ _ _ _ _ _ h h' hcents le_rfl hle le_rfl⟩

end Annuity
end LoanDesk
