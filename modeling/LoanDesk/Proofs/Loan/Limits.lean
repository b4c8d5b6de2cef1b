import LoanDesk.Loan.Request
import LoanDesk.Proofs.Decimal.Amount

/-
# What the standard limits accept

A request in decimals is accepted exactly if its amount, its rate and its term lie
within the bounds as numbers, however they are written.

Key theorems: `Loan.compareAmounts_finite`, `Loan.Limits.check_standard_iff`.
-/

namespace LoanDesk
namespace Loan

variable {a b : Value} {x y : Decimal}

theorem compareAmounts_finite (ha : a.amount? = some (.finite x))
    (hb : b.amount? = some (.finite y)) :
    compareAmounts a b = .ok (some (compare x.rat y.rat)) := by
  unfold compareAmounts
  rw [ha, hb]
  simp only [Decimal.Extended.order?, Decimal.order_eq_compare]

theorem isBelow_finite (ha : a.amount? = some (.finite x)) (hb : b.amount? = some (.finite y)) :
    isBelow a b = .ok (decide (x.rat < y.rat)) := by
  unfold isBelow
  rw [compareAmounts_finite ha hb]
  rcases lt_trichotomy x.rat y.rat with h | h | h
  · rw [compare_lt_iff_lt.mpr h]
    simp [Except.map, h]
  · rw [h]
    simp [Except.map]
  · rw [compare_gt_iff_gt.mpr h]
    simp [Except.map, h.le]

theorem isAbove_finite (ha : a.amount? = some (.finite x)) (hb : b.amount? = some (.finite y)) :
    isAbove a b = .ok (decide (y.rat < x.rat)) := isBelow_finite hb ha

namespace Limits

variable (amount rate : Decimal) (term : ℤ)

theorem checkAmount_standard_iff : standard.checkAmount (.decimal (.finite amount)) = .ok () ↔
    0 < amount.rat ∧ amount.rat ≤ 100000000 := by
  have h0 : (Decimal.rat 0) = 0 := Decimal.rat_ofNat 0
  have hmost : (Decimal.ofNat 100000000).rat = 100000000 := Decimal.rat_ofNat _
  unfold checkAmount standard
  rw [compareAmounts_finite (x := amount) (y := 0) rfl rfl,
    isAbove_finite (x := amount) (y := Decimal.ofNat 100000000) rfl rfl, h0, hmost]
  simp only [bind, Except.bind]
  rcases lt_trichotomy 0 amount.rat with h | h | h
  · rw [compare_gt_iff_gt.mpr h]
    by_cases hm : 100000000 < amount.rat
    · simp [hm, refuse]
    · simp [hm, h, not_lt.mp hm, pure, Except.pure]
  · rw [← h]
    simp [refuse]
  · rw [compare_lt_iff_lt.mpr h]
    simp [refuse, h.le]

theorem checkRate_standard_iff : standard.checkRate (.decimal (.finite rate)) = .ok () ↔
    0 ≤ rate.rat ∧ rate.rat ≤ 50 := by
  have h0 : (Decimal.ofNat 0).rat = 0 := by rw [Decimal.rat_ofNat]; rfl
  have hmost : (Decimal.ofNat 50).rat = 50 := by rw [Decimal.rat_ofNat]; rfl
  have houtside : standard.rateOutside (.decimal (.finite rate)) =
      .ok (decide (rate.rat < 0 ∨ 50 < rate.rat)) := by
    unfold rateOutside standard
    rw [isBelow_finite (x := rate) (y := Decimal.ofNat 0) rfl rfl,
      isAbove_finite (x := rate) (y := Decimal.ofNat 50) rfl rfl, h0, hmost]
    by_cases h : rate.rat < 0 <;> simp [bind, Except.bind, pure, Except.pure, h]
  unfold checkRate
  rw [houtside]
  simp only [bind, Except.bind]
  by_cases h : rate.rat < 0 ∨ 50 < rate.rat
  · have hnot : ¬(0 ≤ rate.rat ∧ rate.rat ≤ 50) := by
      rintro ⟨h1, h2⟩
      rcases h with h | h <;> linarith
    simp only [h, decide_true, if_true, hnot, iff_false]
    cases percentText standard.leastRate <;> cases percentText standard.mostRate <;> simp [refuse]
  · rw [not_or, not_lt, not_lt] at h
    simp [h, pure, Except.pure]

theorem checkTerm_standard_iff : standard.checkTerm (.int term) = .ok () ↔
    1 ≤ term ∧ term ≤ 240 := by
  have houtside : standard.termOutside (.int term) = .ok (decide (term < 1 ∨ 240 < term)) := by
    have hlow : ((Decimal.ofInt term).rat < (Decimal.ofInt 1).rat) ↔ term < 1 := by
      rw [Decimal.rat_ofInt, Decimal.rat_ofInt, Int.cast_lt]
    have hhigh : ((Decimal.ofInt 240).rat < (Decimal.ofInt term).rat) ↔ 240 < term := by
      rw [Decimal.rat_ofInt, Decimal.rat_ofInt, Int.cast_lt]
    unfold termOutside standard
    rw [isBelow_finite (x := Decimal.ofInt term) (y := Decimal.ofInt 1) rfl rfl,
      isAbove_finite (x := Decimal.ofInt term) (y := Decimal.ofInt 240) rfl rfl]
    by_cases h : term < 1 <;>
      simp [bind, Except.bind, pure, Except.pure, Value.isInt, hlow, hhigh, h]
  unfold checkTerm
  rw [houtside]
  simp only [bind, Except.bind]
  by_cases h : term < 1 ∨ 240 < term
  · have hnot : ¬(1 ≤ term ∧ term ≤ 240) := by omega
    simp [h, refuse, hnot]
  · rw [not_or, not_lt, not_lt] at h
    simp [h, pure, Except.pure]

/-- A request in decimals is accepted if and only if it lies within the bounds as numbers. -/
theorem check_standard_iff :
    standard.check ⟨.decimal (.finite amount), .decimal (.finite rate), .int term⟩ = .ok () ↔
      (0 < amount.rat ∧ amount.rat ≤ 100000000) ∧ (0 ≤ rate.rat ∧ rate.rat ≤ 50) ∧
        1 ≤ term ∧ term ≤ 240 := by
  rw [← checkAmount_standard_iff, ← checkRate_standard_iff, ← checkTerm_standard_iff]
  unfold check
  simp only [bind, Except.bind]
  cases standard.checkAmount (.decimal (.finite amount)) <;>
    cases standard.checkRate (.decimal (.finite rate)) <;> simp

end Limits
end Loan
end LoanDesk
