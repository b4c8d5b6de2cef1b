import LoanDesk.Proofs.Annuity.Payment

/-
# A schedule is a ledger

Amounts in cents are added and subtracted without rounding as long as they have no more
digits than the precision. The balance is never above what it would be without any
payment, which 240 months cannot bring there; so every month of a schedule splits its
payment exactly, and the balance goes down by exactly the part that is repaid.

Key definitions: `Annuity.Month`, `Annuity.Ledger`, `Annuity.Course`,
`Annuity.balanceBefore`.
Key theorems: `Annuity.exists_entry`, `Annuity.exists_course`,
`Annuity.scheduleFor_is_ledger`.
-/

namespace LoanDesk
namespace Annuity

open Decimal

/-! ### The ledger -/

/-- The entry of a month that begins with a balance: the interest is what the balance bears,
rounded to the precision and to the cent; the payment is the interest and what is repaid; and the
balance goes down by what is repaid. -/
structure Month (rate balance : Decimal) (e : Entry) : Prop where
  interest : ∃ product, balance.mul Money.precision rate = .ok product ∧
    Money.cents product = .ok e.interest
  payment : e.payment.rat = e.principal.rat + e.interest.rat
  balance : e.balance.rat = balance.rat - e.principal.rat
  balance_nonneg : 0 ≤ e.balance.rat

/-- Entries numbered from `k` on that bring a balance down to zero: every month but the last pays
the same and leaves something, and the last leaves nothing. -/
inductive Ledger (payment rate : Decimal) : ℕ → Decimal → List Entry → Prop
  | last {k : ℕ} {balance : Decimal} {e : Entry} : e.number = k → Month rate balance e →
      e.balance.rat = 0 → Ledger payment rate k balance [e]
  | more {k : ℕ} {balance : Decimal} {e : Entry} {es : List Entry} : e.number = k →
      Month rate balance e → e.payment = payment → e.balance.rat ≠ 0 →
      Ledger payment rate (k + 1) e.balance es → Ledger payment rate k balance (e :: es)

/-- The balance that a month begins with: the opening one, or what the month before has left. -/
def balanceBefore (opening : Decimal) (es : List Entry) : ℕ → Decimal
  | 0 => opening
  | k + 1 => (es[k]?.map Entry.balance).getD opening

theorem balanceBefore_cons {e : Entry} {es : List Entry} {k : ℕ} (hk : k < es.length)
    (opening : Decimal) :
    balanceBefore opening (e :: es) (k + 1) = balanceBefore e.balance es k := by
  cases k with
  | zero => rfl
  | succ k =>
    have hk' : k < es.length := by omega
    simp [balanceBefore, hk']

namespace Ledger

variable {payment rate balance : Decimal} {k : ℕ} {es : List Entry}

theorem length_pos (h : Ledger payment rate k balance es) : 1 ≤ es.length := by
  cases h <;> simp

theorem numbers (h : Ledger payment rate k balance es) :
    es.map Entry.number = List.range' k es.length := by
  induction h with
  | last hk => simp [hk]
  | more hk _ _ _ _ ih => simp [hk, ih, List.range'_succ]

theorem month (h : Ledger payment rate k balance es) : ∀ i (hi : i < es.length),
    Month rate (balanceBefore balance es i) es[i] := by
  induction h with
  | last _ hm =>
    intro i hi
    obtain rfl : i = 0 := by simpa using hi
    exact hm
  | more _ hm _ _ _ ih =>
    intro i hi
    cases i with
    | zero => exact hm
    | succ i =>
      have hi' : i < _ := Nat.lt_of_succ_lt_succ hi
      rw [balanceBefore_cons hi']
      exact ih i hi'

theorem regular (h : Ledger payment rate k balance es) : ∀ i (hi : i + 1 < es.length),
    es[i].payment = payment ∧ es[i].balance.rat ≠ 0 := by
  induction h with
  | last => intro i hi; simp at hi
  | more _ _ hp hb _ ih =>
    intro i hi
    cases i with
    | zero => exact ⟨hp, hb⟩
    | succ i => exact ih i (by simpa using hi)

theorem settled (h : Ledger payment rate k balance es) :
    es.getLast?.map (·.balance.rat) = some 0 := by
  induction h with
  | last _ _ hz => simp [hz]
  | more _ _ _ _ hl ih =>
    cases hl <;> simpa [List.getLast?_cons_cons] using ih

/-- The parts that are repaid add up to the balance that there was, over any `Ledger`. -/
theorem sum_principal (h : Ledger payment rate k balance es) :
    (es.map (·.principal.rat)).sum = balance.rat := by
  induction h with
  | last _ hm hz =>
    have := hm.balance
    simp only [List.map_cons, List.map_nil, List.sum_cons, List.sum_nil]
    linarith
  | more _ hm _ _ _ ih =>
    have := hm.balance
    rw [List.map_cons, List.sum_cons, ih]
    linarith

end Ledger

/-! ### Amounts in cents -/

variable {a b : Decimal}

theorem digits_le_of_cents (ha : a.exponent = -2) (h : |a.rat| ≤ 10 ^ 24) : a.digits ≤ 28 := by
  refine digits_le_of_abs_rat_lt (by norm_num) (h.trans_lt ?_)
  rw [ha]
  norm_num

theorem exists_add_cents (ha : a.exponent = -2) (hb : b.exponent = -2) (hal : |a.rat| ≤ 10 ^ 24)
    (hbl : |b.rat| ≤ 10 ^ 24) :
    ∃ r, a.add Money.precision b = .ok r ∧ r.exponent = -2 ∧ r.rat = a.rat + b.rat := by
  refine exists_add_same_unit (by decide) ha hb (digits_le_of_cents ha hal)
    (digits_le_of_cents hb hbl) (by decide) (by decide) ?_
  refine (abs_add_le _ _).trans_lt ((add_le_add hal hbl).trans_lt ?_)
  norm_num [Money.precision]

theorem exists_sub_cents (ha : a.exponent = -2) (hb : b.exponent = -2) (hal : |a.rat| ≤ 10 ^ 24)
    (hbl : |b.rat| ≤ 10 ^ 24) :
    ∃ r, a.sub Money.precision b = .ok r ∧ r.exponent = -2 ∧ r.rat = a.rat - b.rat := by
  rw [sub_eq_add_neg, ← rat_negate]
  exact exists_add_cents ha hb hal (by rwa [rat_negate, abs_neg])

/-! ### One month -/

/-- A payment and a monthly rate as they come from terms that are accepted. -/
structure Modest (payment rate : Decimal) : Prop where
  payment_exponent : payment.exponent = -2
  payment_ge : -(1 / 100) ≤ payment.rat
  payment_le : payment.rat ≤ 10 ^ 9
  rate_nonneg : 0 ≤ rate.rat
  rate_le : rate.rat ≤ 1 / 20

/-- A balance in cents that may still grow for so many months. -/
structure Bounded (balance : Decimal) (left : ℕ) : Prop where
  exponent : balance.exponent = -2
  nonneg : 0 ≤ balance.rat
  room : (balance.rat + 1) * (21 / 20) ^ left ≤ 10 ^ 20

variable {payment rate balance : Decimal} {left : ℕ}

theorem Bounded.le (h : Bounded balance left) : balance.rat ≤ 10 ^ 20 := by
  have hpow : (1 : ℚ) ≤ (21 / 20) ^ left := one_le_pow₀ (by norm_num)
  have := h.room
  have := le_mul_of_one_le_right (by linarith [h.nonneg] : 0 ≤ balance.rat + 1) hpow
  linarith

/-- The interest of a month is the balance times the rate, to the cent: `mul` and then
`Money.cents`. -/
theorem exists_interest (hm : Modest payment rate) (hb : Bounded balance left) :
    ∃ product interest, balance.mul Money.precision rate = .ok product ∧
      Money.cents product = .ok interest ∧ interest.exponent = -2 ∧
      -(1 / 100) ≤ interest.rat ∧ interest.rat ≤ balance.rat / 20 + 1 / 100 := by
  have h0 := hb.nonneg
  have h20 := hb.le
  have hx0 : 0 ≤ balance.rat * rate.rat := mul_nonneg h0 hm.rate_nonneg
  have hx : balance.rat * rate.rat ≤ balance.rat / 20 := by
    have := mul_le_mul_of_nonneg_left hm.rate_le h0
    linarith
  have hvast := pow_le_vast 20 (by norm_num)
  have hlt := lt_pow_highest (x := balance.rat * rate.rat) (by linarith)
  have hstep : (10 : ℚ) ^ (highest - 1) ≤ 10 ^ highest :=
    zpow_le_zpow_right₀ (by norm_num) (by omega)
  obtain ⟨product, hproduct⟩ := exists_mul (p := Money.precision) (by decide)
    (by rw [abs_of_nonneg hx0]; exact hlt.trans_le hstep)
  have herr := mul_error (p := Money.precision) (by decide) hproduct
  have htiny := pow_tiniest_le (p := Money.precision) (by decide)
  have hspeck := speck_le 10 (by norm_num)
  have hoff : |product.rat - balance.rat * rate.rat| ≤ 1 / 1000 := by
    rw [abs_of_nonneg hx0] at herr
    refine herr.trans ?_
    norm_num [Money.precision] at htiny hspeck ⊢
    linarith
  obtain ⟨hlow, hhigh⟩ := abs_le.mp hoff
  obtain ⟨interest, hinterest, hexp, -, hcents⟩ := exists_cents_near (p := Money.precision)
    (d := product) (by decide) (abs_le.mpr (by constructor <;> linarith))
  obtain ⟨hlow', hhigh'⟩ := abs_le.mp hcents
  exact ⟨product, interest, hproduct, hinterest, hexp, by linarith, by linarith⟩

/-- Every month has an entry. It leaves nothing, or the usual payment is made and the balance stays
bounded. -/
theorem exists_entry (hm : Modest payment rate) (hb : Bounded balance (left + 1)) (number : ℕ) :
    ∃ e, entry payment rate balance number left = .ok e ∧ e.number = number ∧
      Month rate balance e ∧ (e.balance.rat = 0 ∨
        left ≠ 0 ∧ e.payment = payment ∧ Bounded e.balance left) := by
  have h0 := hb.nonneg
  have h20 := hb.le
  have hexp := hb.exponent
  have hpexp := hm.payment_exponent
  have hplow := hm.payment_ge
  have hphigh := hm.payment_le
  obtain ⟨product, interest, hproduct, hinterest, hiexp, hilow, hihigh⟩ := exists_interest hm hb
  obtain ⟨reduction, hreduction, hrexp, hrrat⟩ := exists_sub_cents (a := payment) (b := interest)
    hpexp hiexp (abs_le.mpr (by constructor <;> linarith))
    (abs_le.mpr (by constructor <;> linarith))
  unfold entry
  simp only [bind, Except.bind, pure, Except.pure, hproduct, hinterest, hreduction]
  by_cases hlast : left = 0 ∨ order reduction balance = .gt
  · -- the balance is paid off, whatever the usual payment is
    obtain ⟨paid, hpaid, -, hprat⟩ := exists_add_cents (a := balance) (b := interest) hexp hiexp
      (abs_le.mpr (by constructor <;> linarith)) (abs_le.mpr (by constructor <;> linarith))
    obtain ⟨rest, hrest, -, hrrat'⟩ := exists_sub_cents (a := balance) (b := balance) hexp hexp
      (abs_le.mpr (by constructor <;> linarith)) (abs_le.mpr (by constructor <;> linarith))
    have hzero : rest.rat = 0 := by rw [hrrat', sub_self]
    rw [if_pos hlast, hpaid, hrest]
    exact ⟨_, rfl, rfl, ⟨⟨product, hproduct, hinterest⟩, hprat, hrrat', hzero.ge⟩, .inl hzero⟩
  · rw [not_or, order_eq_compare, compare_gt_iff_gt, not_lt] at hlast
    obtain ⟨rest, hrest, hrexp', hrrat'⟩ := exists_sub_cents (a := balance) (b := reduction) hexp
      hrexp (abs_le.mpr (by constructor <;> linarith)) (abs_le.mpr (by constructor <;> linarith))
    have hrest0 : 0 ≤ rest.rat := by linarith [hlast.2]
    rw [if_neg (by rw [not_or, order_eq_compare, compare_gt_iff_gt, not_lt]; exact hlast), hrest]
    refine ⟨_, rfl, rfl, ⟨⟨product, hproduct, hinterest⟩, ?_, hrrat', hrest0⟩,
      .inr ⟨hlast.1, rfl, ?_⟩⟩
    · change payment.rat = reduction.rat + interest.rat
      linarith
    · refine ⟨hrexp', hrest0, ?_⟩
      have hgrow : rest.rat + 1 ≤ (balance.rat + 1) * (21 / 20) := by linarith
      calc (rest.rat + 1) * (21 / 20) ^ left
          ≤ (balance.rat + 1) * (21 / 20) * (21 / 20) ^ left :=
            mul_le_mul_of_nonneg_right hgrow (by positivity)
        _ = (balance.rat + 1) * (21 / 20) ^ (left + 1) := by ring
        _ ≤ 10 ^ 20 := hb.room

/-! ### A course of months -/

/-- The months that the loop of `entries` goes through with a bounded balance and so many months
left: one that leaves nothing, or one after which the usual payment has been made and the loop goes
on. -/
inductive Course (payment rate : Decimal) : ℕ → ℕ → Decimal → List Entry → Prop
  | last {left number : ℕ} {balance : Decimal} {e : Entry} : Bounded balance (left + 1) →
      entry payment rate balance number left = .ok e → e.number = number → Month rate balance e →
      e.balance.rat = 0 → Course payment rate (left + 1) number balance [e]
  | more {left number : ℕ} {balance : Decimal} {e : Entry} {es : List Entry} :
      Bounded balance (left + 2) → e.number = number → Month rate balance e →
      e.payment = payment → e.balance.rat ≠ 0 →
      Course payment rate (left + 1) (number + 1) e.balance es →
      Course payment rate (left + 2) number balance (e :: es)

/-- The loop runs through its course. -/
theorem exists_course (hm : Modest payment rate) (left : ℕ) : ∀ (balance : Decimal) (number : ℕ),
    Bounded balance (left + 1) → ∃ es, entries payment rate (left + 1) balance number = .ok es ∧
      Course payment rate (left + 1) number balance es := by
  induction left with
  | zero =>
    intro balance number hb
    obtain ⟨e, he, hnumber, hmonth, hrest⟩ := exists_entry hm hb number
    have hzero : e.balance.rat = 0 := hrest.resolve_right fun h => h.1 rfl
    refine ⟨[e], ?_, .last hb he hnumber hmonth hzero⟩
    rw [entries, he]
    simp only [bind, Except.bind, isZero_iff_rat.mpr hzero, if_true]
    rfl
  | succ left ih =>
    intro balance number hb
    obtain ⟨e, he, hnumber, hmonth, hrest⟩ := exists_entry hm hb number
    rw [entries, he]
    simp only [bind, Except.bind]
    by_cases hzero : e.balance.rat = 0
    · refine ⟨[e], ?_, .last hb he hnumber hmonth hzero⟩
      rw [if_pos (isZero_iff_rat.mpr hzero)]
      rfl
    · obtain ⟨-, hpayment, hbounded⟩ := hrest.resolve_left hzero
      obtain ⟨es, hes, hcourse⟩ := ih e.balance (number + 1) hbounded
      refine ⟨e :: es, ?_, .more hb hnumber hmonth hpayment hzero hcourse⟩
      rw [if_neg (fun h => hzero (isZero_iff_rat.mp h)), hes]
      rfl

namespace Course

variable {number : ℕ} {es : List Entry}

theorem length_le (h : Course payment rate left number balance es) : es.length ≤ left := by
  induction h with
  | last => simp
  | more _ _ _ _ _ _ ih => simpa using ih

/-- The months of a course make up a ledger. -/
theorem ledger (h : Course payment rate left number balance es) :
    Ledger payment rate number balance es := by
  induction h with
  | last _ _ hnumber hmonth hzero => exact .last hnumber hmonth hzero
  | more _ hnumber hmonth hpayment hbalance _ ih =>
    exact .more hnumber hmonth hpayment hbalance ih

end Course

/-! ### The schedule of a loan -/

variable {P R : Decimal} {n : ℕ}

/-- The principal to the cent is a balance that 240 months leave bounded. -/
theorem exists_opening (h : Standard P R n) :
    ∃ opening, Money.cents P = .ok opening ∧ Bounded opening n := by
  have hP0 := h.principal_pos
  have hP := h.principal_le
  obtain ⟨opening, hopening, hexp, hneg, herr⟩ := exists_cents_near (p := Money.precision) (d := P)
    (by decide) (abs_le.mpr (by constructor <;> linarith))
  obtain ⟨-, hhigh⟩ := abs_le.mp herr
  refine ⟨opening, hopening, hexp, rat_nonneg (hneg.trans (negative_eq_false_of_pos hP0)), ?_⟩
  calc (opening.rat + 1) * (21 / 20) ^ n ≤ (10 ^ 8 + 2) * (21 / 20) ^ 240 := by
        refine mul_le_mul (by linarith) ?_ (by positivity) (by norm_num)
        exact pow_le_pow_right₀ (by norm_num) h.months_le
    _ ≤ 10 ^ 20 := by norm_num

theorem scheduleFor_decimal {term : ℤ} (h : 1 ≤ term) (principal annual : Decimal) :
    scheduleFor (.decimal (.finite principal)) (.decimal (.finite annual)) (.int term) =
      Fault.ofArithmetic (schedule principal annual term.toNat) := by
  unfold scheduleFor
  rw [months_int h]
  rfl

/-- The schedule of every loan that is accepted is an exact ledger: months numbered from one on
split each payment into interest and what is repaid, pay the same until the last, leave something
until the last, and repay the principal to the cent. -/
theorem scheduleFor_is_ledger (principal annual : Decimal) (term : ℤ)
    (h : Loan.Limits.standard.check
      ⟨.decimal (.finite principal), .decimal (.finite annual), .int term⟩ = .ok ()) :
    ∃ opening rate payment es, Money.cents principal = .ok opening ∧
      monthlyRate annual = .ok rate ∧
      paymentFor (.decimal (.finite principal)) (.decimal (.finite annual)) (.int term) =
        .ok payment ∧
      scheduleFor (.decimal (.finite principal)) (.decimal (.finite annual)) (.int term) = .ok es ∧
      1 ≤ es.length ∧ (es.length : ℤ) ≤ term ∧
      es.map Entry.number = List.range' 1 es.length ∧
      (∀ k (hk : k < es.length), Month rate (balanceBefore opening es k) es[k]) ∧
      (∀ k (hk : k + 1 < es.length), es[k].payment = payment ∧ es[k].balance.rat ≠ 0) ∧
      es.getLast?.map (·.balance.rat) = some 0 ∧
      (es.map (·.principal.rat)).sum = opening.rat := by
  obtain ⟨hstandard, hterm⟩ := standard_of_check h
  obtain ⟨rate, payment, hrate, hr0, hrle, -, hpayment, hpexp, herr⟩ := exists_payment hstandard
  obtain ⟨opening, hopening, hbounded⟩ := exists_opening hstandard
  have hA0 := exactPayment_nonneg hstandard.principal_pos.le hstandard.monthly_nonneg
    hstandard.months_pos
  have hA := hstandard.exactPayment_le
  have hmodest : Modest payment rate := by
    obtain ⟨hlow, hhigh⟩ := abs_le.mp herr
    refine ⟨hpexp, ?_, ?_, hr0, hrle⟩ <;> norm_num at hlow hhigh hA ⊢ <;> linarith
  obtain ⟨left, hleft⟩ : ∃ left, term.toNat = left + 1 := ⟨term.toNat - 1, by omega⟩
  rw [hleft] at hbounded
  obtain ⟨es, hes, hcourse⟩ := exists_course hmodest left opening 1 hbounded
  have hlength := hcourse.length_le
  have hledger := hcourse.ledger
  refine ⟨opening, rate, payment, es, hopening, hrate, ?_, ?_, hledger.length_pos, by omega,
    hledger.numbers, hledger.month, hledger.regular, hledger.settled, hledger.sum_principal⟩
  · rw [paymentFor_decimal hterm, hpayment]
    rfl
  · rw [scheduleFor_decimal hterm]
    rw [hleft] at hpayment ⊢
    unfold schedule
    simp only [bind, Except.bind, hpayment, hopening, hrate, hes]
    rfl

/-- A hundred million at fifty percent over twenty years. -/
theorem scheduleFor_is_ledger_highest :
    Loan.Limits.standard.check
      ⟨.decimal (.finite ⟨false, 1, 8⟩), .decimal (.finite ⟨false, 50, 0⟩), .int 240⟩ = .ok () ∧
    ∃ opening rate payment es, Money.cents ⟨false, 1, 8⟩ = .ok opening ∧
      monthlyRate ⟨false, 50, 0⟩ = .ok rate ∧
      paymentFor (.decimal (.finite ⟨false, 1, 8⟩)) (.decimal (.finite ⟨false, 50, 0⟩)) (.int 240) =
        .ok payment ∧
      scheduleFor (.decimal (.finite ⟨false, 1, 8⟩)) (.decimal (.finite ⟨false, 50, 0⟩))
        (.int 240) = .ok es ∧
      1 ≤ es.length ∧ (es.length : ℤ) ≤ 240 ∧
      es.map Entry.number = List.range' 1 es.length ∧
      (∀ k (hk : k < es.length), Month rate (balanceBefore opening es k) es[k]) ∧
      (∀ k (hk : k + 1 < es.length), es[k].payment = payment ∧ es[k].balance.rat ≠ 0) ∧
      es.getLast?.map (·.balance.rat) = some 0 ∧
      (es.map (·.principal.rat)).sum = opening.rat := by
  have h : Loan.Limits.standard.check
      ⟨.decimal (.finite ⟨false, 1, 8⟩), .decimal (.finite ⟨false, 50, 0⟩), .int 240⟩ = .ok () := by
    rw [Loan.Limits.check_standard_iff]
    norm_num [rat, signed]
  exact ⟨h, scheduleFor_is_ledger _ _ _ h⟩

end Annuity
end LoanDesk
