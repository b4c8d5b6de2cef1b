import LoanDesk.Proofs.Annuity.Faint

/-
# The shape of a schedule

In an annuity the interest falls from month to month, and what is repaid grows by as
much. In a schedule both are rounded, and the shape hangs on the first month alone:
where the payment covers its interest the balance falls, a smaller balance bears no more
interest, and so the payment covers the interest of every month after it.

The exact payment exceeds the interest of the principal by the principal over what
payments of one come to. For an amount in whole cents that is more than rounding can
take away. An amount with fractions of a cent is another matter: the payment is computed
from the amount, the interest from the amount to the cent, and where that is more, its
interest may be more than the whole payment. From ninety units on it is not.

Key definitions: `Annuity.interestOf`.
Key theorems: `Annuity.Ledger.interests`, `Annuity.Ledger.principals`,
`Annuity.Ledger.balances_fall`, `Annuity.Standard.covers`,
`Annuity.scheduleFor_shape`, `Annuity.scheduleFor_balances_fall_iff`.
-/

namespace LoanDesk
namespace Annuity

open Decimal

/-- The interest of a month that begins with a balance. -/
def interestOf (rate balance : ℚ) : ℚ :=
  toPlace Money.centPlace (nearest Money.precision (balance * rate))

theorem interestOf_mono {ρ a b : ℚ} (hρ : 0 ≤ ρ) (h : a ≤ b) : interestOf ρ a ≤ interestOf ρ b :=
  toPlace_mono (nearest_mono (by decide) (mul_le_mul_of_nonneg_right h hρ))

/-! ### The columns of a ledger -/

section ledger

variable {payment rate balance : Decimal} {k : ℕ} {e : Entry} {es : List Entry}

theorem Month.interest_rat (h : Month rate balance e) :
    e.interest.rat = interestOf rate.rat balance.rat := by
  obtain ⟨product, hproduct, hinterest⟩ := h.interest
  rw [roundedAt_rat hinterest, mul_rat (by decide) hproduct, interestOf]

namespace Ledger

theorem ne_nil (h : Ledger payment rate k balance es) : es ≠ [] :=
  List.length_pos_iff.mp h.length_pos

/-- Each month's interest is that of the balance the month before has left. -/
theorem interests (h : Ledger payment rate k balance es) :
    es.map (·.interest.rat) =
      (balance.rat :: es.map (·.balance.rat)).dropLast.map (interestOf rate.rat) := by
  induction h with
  | last _ hm => simp [hm.interest_rat]
  | more _ hm _ _ _ ih =>
    rw [List.map_cons, hm.interest_rat, ih]
    simp only [List.map_cons, List.dropLast_cons_cons]

/-- What is repaid is what the interest leaves of the payment, in every month but the last. -/
theorem principals (h : Ledger payment rate k balance es) :
    es.dropLast.map (·.principal.rat) =
      (es.map (·.interest.rat)).dropLast.map (payment.rat - ·) := by
  induction h with
  | last => rfl
  | more _ hm hp _ hl ih =>
    have hprincipal := hm.payment
    rw [hp] at hprincipal
    rw [List.dropLast_cons_of_ne_nil hl.ne_nil, List.map_cons, ih, List.map_cons,
      List.dropLast_cons_of_ne_nil (by simpa using hl.ne_nil), List.map_cons]
    congr 1
    linarith

/-- The balance falls from month to month if the payment covers the interest of the first. -/
theorem balances_fall (h : Ledger payment rate k balance es) (hr : 0 ≤ rate.rat)
    (h0 : 0 ≤ balance.rat) (hcover : interestOf rate.rat balance.rat ≤ payment.rat) :
    (balance.rat :: es.map (·.balance.rat)).IsChain (· ≥ ·) := by
  induction h with
  | last _ _ hz => simpa [hz] using h0
  | @more k balance e es _ hm hp _ _ ih =>
    have hinterest := hm.interest_rat
    have hpayment := hm.payment
    have hbalance := hm.balance
    rw [hp] at hpayment
    have hfall : e.balance.rat ≤ balance.rat := by linarith
    exact List.isChain_cons_cons.mpr
      ⟨hfall, ih hm.balance_nonneg ((interestOf_mono hr hfall).trans hcover)⟩

/-- Then the interest falls as well, and what is repaid grows until the last month. -/
theorem shape (h : Ledger payment rate k balance es) (hr : 0 ≤ rate.rat) (h0 : 0 ≤ balance.rat)
    (hcover : interestOf rate.rat balance.rat ≤ payment.rat) :
    (es.map (·.interest.rat)).Pairwise (· ≥ ·) ∧
      (es.dropLast.map (·.principal.rat)).Pairwise (· ≤ ·) := by
  have hinterests : (es.map (·.interest.rat)).Pairwise (· ≥ ·) := by
    rw [h.interests]
    refine List.Pairwise.map _ (fun a b hab => interestOf_mono hr hab) ?_
    exact (h.balances_fall hr h0 hcover).pairwise.sublist (List.dropLast_sublist _)
  refine ⟨hinterests, ?_⟩
  rw [h.principals]
  exact (hinterests.sublist (List.dropLast_sublist _)).map _ fun a b hab => by linarith

end Ledger

end ledger

/-! ### What the payment covers -/

section covers

variable {P R r : Decimal} {n : ℕ}

/-- No annual rate that is accepted comes to a greater monthly rate. -/
def highestRate : ℚ := 4166667 / 10 ^ 8

theorem growth_highestRate : (1 + highestRate) ^ 240 ≤ 17986 := by
  norm_num [highestRate]

theorem Standard.rate_le (h : Standard P R n) (hr : monthlyRate R = .ok r) :
    r.rat ≤ highestRate := by
  obtain ⟨r', hr', -, -, -, hnear⟩ := h.exists_rate
  obtain rfl : r = r' := Except.ok.inj (hr.symm.trans hr')
  have hle := h.annual_le
  have hspeck := speck_le 20 (by norm_num)
  have hrise := hnear.le
  norm_num [highestRate] at hrise hspeck ⊢
  linarith

theorem accrued_mono_months {ρ : ℚ} (hρ : 0 ≤ ρ) {k : ℕ} (h : k ≤ n) :
    accrued ρ k ≤ accrued ρ n :=
  Finset.sum_le_sum_of_subset_of_nonneg (Finset.range_mono h) fun _ _ _ => by positivity

/-- What payments of one come to over an accepted term. -/
theorem accrued_le {ρ : ℚ} (hρ : 0 ≤ ρ) (hle : ρ ≤ highestRate) (hn : n ≤ 240) :
    accrued ρ n ≤ 431700 ∧ ρ * accrued ρ n ≤ 17985 := by
  have hmost : (0 : ℚ) ≤ highestRate := hρ.trans hle
  have hall : accrued ρ n ≤ accrued highestRate 240 :=
    (accrued_mono hρ hle n).trans (accrued_mono_months hmost hn)
  have hgrowth := growth_highestRate
  have hearned := mul_accrued highestRate 240
  have hproduct : ρ * accrued ρ n ≤ highestRate * accrued highestRate 240 :=
    mul_le_mul hle hall (accrued_nonneg hρ n) hmost
  generalize accrued highestRate 240 = all at hall hearned hproduct
  generalize (1 + highestRate) ^ 240 = growth at hgrowth hearned
  refine ⟨hall.trans ?_, by linarith⟩
  unfold highestRate at hearned
  linarith

/-- A balance whose interest is less than the exact payment by more than rounding can take away
bears no more interest than the payment covers. -/
theorem interestOf_le_roundedPayment (h : Standard P R n) (hr : Monthly r) {b : ℚ} (hb0 : 0 ≤ b)
    (hb : b ≤ 2 * 10 ^ 8) (hcover : b * r.rat + 1 / 10 ^ 10 ≤ exactPayment P.rat r.rat n) :
    interestOf r.rat b ≤ roundedPayment P.rat r.rat n := by
  refine toPlace_mono ?_
  by_cases hnone : r.rat < 10 ^ (-mostLeadingZeros)
  · -- without interest: the interest is less than the share of a month
    have hP0 := h.principal_pos
    have hrise := exactPayment_sub_le (n := n) hP0.le le_rfl hr.nonneg h.months_pos
    have hPr : P.rat * r.rat ≤ 10 ^ 8 * (1 / 10 ^ 18) :=
      mul_le_mul h.principal_le (hnone.le.trans pow_mostLeadingZeros_le) hr.nonneg (by norm_num)
    rw [exactPayment_zero, sub_zero] at hrise
    rw [unroundedPayment, if_pos hnone]
    refine nearest_mono (by decide) ?_
    norm_num at hPr hcover
    linarith
  · have hearning := hr.earning (not_lt.mp hnone)
    have hlow := (hearning.unroundedPayment_near h).ge
    have hA := hearning.exactPayment_le h
    have herr := nearest_error Money.precision (b * r.rat)
    have htiny := pow_tiniest_le (p := Money.precision) (by decide)
    have hspeck := speck_le 20 (by norm_num)
    have hx0 : 0 ≤ b * r.rat := mul_nonneg hb0 hr.nonneg
    have hx : b * r.rat ≤ 2 * 10 ^ 8 * (1 / 20) := mul_le_mul hb hr.le hr.nonneg (by norm_num)
    rw [abs_of_nonneg hx0] at herr
    norm_num [Money.precision] at herr htiny hspeck hlow hA hx hcover ⊢
    linarith [(abs_le.mp herr).2]

/-- The payment covers the interest of the first month for every amount in whole cents, and for
every amount from ninety units on. -/
theorem Standard.covers (h : Standard P R n) (hr : monthlyRate R = .ok r) {opening m : Decimal}
    (hopening : Money.cents P = .ok opening) (hm : payment P R n = .ok m)
    (hP : IsWholeCents P ∨ 90 ≤ P.rat) : interestOf r.rat opening.rat ≤ m.rat := by
  have hmonthly := h.monthly hr
  have hr0 := hmonthly.nonneg
  have hP0 := h.principal_pos
  have hP8 := h.principal_le
  obtain ⟨hS, hrS⟩ := accrued_le hr0 (h.rate_le hr) h.months_le
  have hS1 := one_le_accrued hr0 h.months_pos
  have hoff : |opening.rat - P.rat| ≤ 5 / 1000 := by
    refine (roundedAt_spec hopening).2.2.trans_eq ?_
    norm_num [Money.centPlace]
  have hopening0 : 0 ≤ opening.rat := by
    have hzero := toCents_self 0
    rw [Int.cast_zero, zero_div] at hzero
    rw [roundedAt_rat hopening, ← hzero]
    exact toPlace_mono hP0.le
  -- what the rounding of the principal adds to the interest, over the whole term
  have hpart : ((opening.rat - P.rat) * r.rat + 1 / 10 ^ 10) * accrued r.rat n ≤ P.rat := by
    rcases hP with hcents | hninety
    · have hcent := h.cent_le hcents
      obtain ⟨c, hc⟩ := hcents
      have hsame : opening.rat = P.rat := by
        rw [roundedAt_rat hopening, hc, toCents_self]
      rw [hsame, sub_self, zero_mul, zero_add]
      linarith
    · have hadd := mul_le_mul_of_nonneg_right (abs_le.mp hoff).2 (mul_nonneg hr0 (by linarith :
        0 ≤ accrued r.rat n))
      linarith
  rw [payment_rat h hr hm]
  refine interestOf_le_roundedPayment h hmonthly hopening0 (by linarith [(abs_le.mp hoff).2]) ?_
  rw [exactPayment_eq_add hr0 h.months_pos]
  rw [← le_div_iff₀ (by linarith)] at hpart
  linarith

end covers

/-! ### The schedule of a loan -/

section schedule

variable {P R : Decimal} {n : ℕ}

/-- The schedule of accepted terms as a ledger that the principal to the cent opens. Its first month
pays no more than the usual payment, unless it is the only month of the term. -/
theorem exists_ledger (h : Standard P R n) : ∃ opening rate m first rest,
    Money.cents P = .ok opening ∧ monthlyRate R = .ok rate ∧ payment P R n = .ok m ∧
      schedule P R n = .ok (first :: rest) ∧ 0 ≤ opening.rat ∧ 0 ≤ rate.rat ∧
      Ledger m rate 1 opening (first :: rest) ∧ (first :: rest).length ≤ n ∧
      (n ≠ 1 → first.payment.rat ≤ m.rat) := by
  obtain ⟨rate, m, hrate, hm, hmodest⟩ := exists_modest h
  obtain ⟨opening, hopening, hbounded⟩ := exists_opening h
  obtain ⟨left, rfl⟩ : ∃ left, n = left + 1 := ⟨n - 1, by have := h.months_pos; omega⟩
  obtain ⟨es, hes, hcourse⟩ := exists_course hmodest left opening 1 hbounded
  obtain ⟨last, hclosing⟩ := hcourse.closing hmodest
  have hledger := hcourse.ledger
  obtain ⟨first, rest, rfl⟩ := List.exists_cons_of_ne_nil hledger.ne_nil
  refine ⟨opening, rate, m, first, rest, hopening, hrate, hm, ?_, hbounded.nonneg,
    hmodest.rate_nonneg, hledger, hcourse.length_le, fun hn => ?_⟩
  · unfold schedule
    simp only [bind, Except.bind, hm, hopening, hrate, hes]
  · cases hledger with
    | last =>
      obtain rfl : first = last := Option.some.inj hclosing.getLast
      exact hclosing.early (by simpa using hn.symm)
    | more _ _ hp => rw [hp]

theorem Ledger.first_month {m rate opening : Decimal} {k : ℕ} {first : Entry} {rest : List Entry}
    (h : Ledger m rate k opening (first :: rest)) : Month rate opening first := by
  cases h <;> assumption

/-- The schedule of an amount in whole cents has the shape of an annuity: the payment covers the
interest of the first month, the interest never rises from month to month, and what is repaid never
falls before the last month. -/
theorem scheduleFor_shape (principal annual : Decimal) (term : ℤ)
    (h : Loan.Limits.standard.check
      ⟨.decimal (.finite principal), .decimal (.finite annual), .int term⟩ = .ok ())
    (hcents : IsWholeCents principal) :
    ∃ payment first rest,
      paymentFor (.decimal (.finite principal)) (.decimal (.finite annual)) (.int term) =
        .ok payment ∧
      scheduleFor (.decimal (.finite principal)) (.decimal (.finite annual)) (.int term) =
        .ok (first :: rest) ∧
      first.interest.rat ≤ payment.rat ∧
      ((first :: rest).map (·.interest.rat)).Pairwise (· ≥ ·) ∧
      ((first :: rest).dropLast.map (·.principal.rat)).Pairwise (· ≤ ·) := by
  obtain ⟨hstandard, hterm⟩ := standard_of_check h
  obtain ⟨opening, rate, m, first, rest, hopening, hrate, hm, hes, h0, hr0, hledger, -, -⟩ :=
    exists_ledger hstandard
  have hcover := hstandard.covers hrate hopening hm (.inl hcents)
  refine ⟨m, first, rest, ?_, ?_, ?_, hledger.shape hr0 h0 hcover⟩
  · rw [paymentFor_decimal hterm, hm]
    rfl
  · rw [scheduleFor_decimal hterm, hes]
    rfl
  · rwa [hledger.first_month.interest_rat]

/-- A hundred million at fifty percent over twenty years, where the payment exceeds the interest of
the first month by about one part in eighteen thousand. -/
theorem scheduleFor_shape_highest :
    Loan.Limits.standard.check
      ⟨.decimal (.finite ⟨false, 1, 8⟩), .decimal (.finite ⟨false, 50, 0⟩), .int 240⟩ = .ok () ∧
    IsWholeCents ⟨false, 1, 8⟩ ∧
    ∃ payment first rest,
      paymentFor (.decimal (.finite ⟨false, 1, 8⟩)) (.decimal (.finite ⟨false, 50, 0⟩)) (.int 240) =
        .ok payment ∧
      scheduleFor (.decimal (.finite ⟨false, 1, 8⟩)) (.decimal (.finite ⟨false, 50, 0⟩))
        (.int 240) = .ok (first :: rest) ∧
      first.interest.rat ≤ payment.rat ∧
      ((first :: rest).map (·.interest.rat)).Pairwise (· ≥ ·) ∧
      ((first :: rest).dropLast.map (·.principal.rat)).Pairwise (· ≤ ·) := by
  have h : Loan.Limits.standard.check
      ⟨.decimal (.finite ⟨false, 1, 8⟩), .decimal (.finite ⟨false, 50, 0⟩), .int 240⟩ = .ok () := by
    rw [Loan.Limits.check_standard_iff]
    norm_num [rat, signed]
  have hcents : IsWholeCents ⟨false, 1, 8⟩ := ⟨10 ^ 10, by norm_num [rat, signed]⟩
  exact ⟨h, hcents, scheduleFor_shape _ _ _ h hcents⟩

/-- The balances of a schedule never rise and never exceed the amount to the cent if and only if the
term is a single month or the payment covers the interest of the first month. It does so for amounts
in whole cents and from ninety units on. -/
theorem scheduleFor_balances_fall_iff (principal annual : Decimal) (term : ℤ)
    (h : Loan.Limits.standard.check
      ⟨.decimal (.finite principal), .decimal (.finite annual), .int term⟩ = .ok ()) :
    ∃ opening payment first rest, Money.cents principal = .ok opening ∧
      paymentFor (.decimal (.finite principal)) (.decimal (.finite annual)) (.int term) =
        .ok payment ∧
      scheduleFor (.decimal (.finite principal)) (.decimal (.finite annual)) (.int term) =
        .ok (first :: rest) ∧
      ((opening.rat :: (first :: rest).map (·.balance.rat)).Pairwise (· ≥ ·) ↔
        term = 1 ∨ first.interest.rat ≤ payment.rat) ∧
      (IsWholeCents principal ∨ 90 ≤ principal.rat → first.interest.rat ≤ payment.rat) := by
  obtain ⟨hstandard, hterm⟩ := standard_of_check h
  obtain ⟨opening, rate, m, first, rest, hopening, hrate, hm, hes, h0, hr0, hledger, hlength,
    hfirst⟩ := exists_ledger hstandard
  have hmonth := hledger.first_month
  have hinterest := hmonth.interest_rat
  refine ⟨opening, m, first, rest, hopening, ?_, ?_, ⟨fun hfall => ?_, ?_⟩, fun hP => ?_⟩
  · rw [paymentFor_decimal hterm, hm]
    rfl
  · rw [scheduleFor_decimal hterm, hes]
    rfl
  · -- a balance that has not risen is paid down by a payment that is the usual one at most
    by_cases hone : term = 1
    · exact .inl hone
    · have hdown := List.rel_of_pairwise_cons hfall (List.mem_cons_self ..)
      have hless := hfirst (by omega)
      exact .inr (by linarith [hmonth.payment, hmonth.balance])
  · rintro (rfl | hcover)
    · cases hledger with
      | last _ _ hz => simpa [hz] using h0
      | more _ _ _ _ hl =>
        have := hl.length_pos
        simp only [List.length_cons, Int.toNat_one] at hlength
        omega
    · exact (hledger.balances_fall hr0 h0 (hinterest ▸ hcover)).pairwise
  · rw [hinterest]
    exact hstandard.covers hrate hopening hm hP

/-- Ninety units and a tenth of a cent at fifty percent over twenty years. -/
theorem scheduleFor_balances_fall_iff_ninety :
    Loan.Limits.standard.check
      ⟨.decimal (.finite ⟨false, 90001, -3⟩), .decimal (.finite ⟨false, 50, 0⟩), .int 240⟩ =
        .ok () ∧
    ∃ opening payment first rest, Money.cents ⟨false, 90001, -3⟩ = .ok opening ∧
      paymentFor (.decimal (.finite ⟨false, 90001, -3⟩)) (.decimal (.finite ⟨false, 50, 0⟩))
        (.int 240) = .ok payment ∧
      scheduleFor (.decimal (.finite ⟨false, 90001, -3⟩)) (.decimal (.finite ⟨false, 50, 0⟩))
        (.int 240) = .ok (first :: rest) ∧
      (opening.rat :: (first :: rest).map (·.balance.rat)).Pairwise (· ≥ ·) ∧
      first.interest.rat ≤ payment.rat := by
  have h : Loan.Limits.standard.check ⟨.decimal (.finite ⟨false, 90001, -3⟩),
      .decimal (.finite ⟨false, 50, 0⟩), .int 240⟩ = .ok () := by
    rw [Loan.Limits.check_standard_iff]
    norm_num [rat, signed]
  obtain ⟨opening, payment, first, rest, hopening, hpayment, hes, hiff, hcovers⟩ :=
    scheduleFor_balances_fall_iff _ _ _ h
  have hcover := hcovers (.inr (by norm_num [rat, signed]))
  exact ⟨h, opening, payment, first, rest, hopening, hpayment, hes, hiff.mpr (.inr hcover), hcover⟩

/-- Eleven cents and a half at fifty percent over seventy-eight months: the payment comes to
nothing, the amount to the cent is twelve cents and bears a cent of interest in the first month, and
the balance rises above it. -/
theorem scheduleFor_balance_rises :
    Loan.Limits.standard.check ⟨.decimal (.finite ⟨false, 115, -3⟩),
      .decimal (.finite ⟨false, 50, 0⟩), .int 78⟩ = .ok () ∧
    ¬∃ opening es, Money.cents ⟨false, 115, -3⟩ = .ok opening ∧
      scheduleFor (.decimal (.finite ⟨false, 115, -3⟩)) (.decimal (.finite ⟨false, 50, 0⟩))
        (.int 78) = .ok es ∧
      (opening.rat :: es.map (·.balance.rat)).Pairwise (· ≥ ·) := by
  constructor
  · rw [Loan.Limits.check_standard_iff]
    norm_num [rat, signed]
  · rintro ⟨opening, es, hopening, hes, hfall⟩
    have hcents : Money.cents ⟨false, 115, -3⟩ = .ok ⟨false, 12, -2⟩ := by decide +kernel
    have hhead : (scheduleFor (.decimal (.finite ⟨false, 115, -3⟩))
        (.decimal (.finite ⟨false, 50, 0⟩)) (.int 78)).toOption.bind List.head? =
          some ⟨1, ⟨false, 0, -2⟩, ⟨true, 1, -2⟩, ⟨false, 1, -2⟩, ⟨false, 13, -2⟩⟩ := by
      decide +kernel
    obtain rfl : opening = ⟨false, 12, -2⟩ := Except.ok.inj (hopening.symm.trans hcents)
    rw [hes] at hhead
    obtain ⟨rest, rfl⟩ : ∃ rest, es = ⟨1, ⟨false, 0, -2⟩, ⟨true, 1, -2⟩, ⟨false, 1, -2⟩,
        ⟨false, 13, -2⟩⟩ :: rest := by
      cases es with
      | nil => cases hhead
      | cons e rest => exact ⟨rest, by rw [Option.some.inj hhead]⟩
    have hrose := List.rel_of_pairwise_cons hfall (List.mem_cons_self ..)
    norm_num [rat, signed] at hrose

end schedule

end Annuity
end LoanDesk
