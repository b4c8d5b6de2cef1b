import LoanDesk.Annuity
import LoanDesk.Proofs.Decimal.Rounding
import LoanDesk.Proofs.Value.Fields

/-
# Payments can be written

A payment is counted in cents and has no more digits than its working precision, which is
bounded since rates too small for it are left to the plain payment. So whatever is asked
for, a payment that is computed has an exponent that a written number can have.

Key theorems: `Annuity.withinReach_of_centsAt`, `Annuity.paymentFor_withinReach`.
-/

namespace LoanDesk
namespace Annuity

open Decimal

variable {d r : Decimal} {p : ℕ}

theorem withinReach_of_centsAt (hp : 1 ≤ p) (hmost : p ≤ 10 ^ 6)
    (h : Money.centsAt p d = .ok r) : r.withinReach = true := by
  have hdigits : r.digits ≤ p := roundedAt_digits_le hp h
  have hexponent : r.exponent = -2 := (roundedAt_spec h).1
  have hadjusted : r.adjusted = r.exponent + r.digits - 1 := rfl
  unfold withinReach
  rw [Bool.and_eq_true, decide_eq_true_eq, decide_eq_true_eq]
  omega

theorem payment_withinReach {principal annual : Decimal} {months : ℕ}
    (h : payment principal annual months = .ok r) : r.withinReach = true := by
  obtain ⟨rate, -, h⟩ := bind_eq_ok h
  split at h
  · obtain ⟨quotient, -, h⟩ := bind_eq_ok h
    exact withinReach_of_centsAt (by decide) (by decide) h
  · next hzeros =>
    have hsmall : leadingZeros rate ≤ 1000 := by
      rw [Bool.or_eq_true, decide_eq_true_eq, not_or, not_lt] at hzeros
      exact hzeros.2
    have hleast : 1 ≤ workingPrecision rate := by
      unfold workingPrecision Money.precision
      omega
    have hmost : workingPrecision rate ≤ 10 ^ 6 := by
      unfold workingPrecision Money.precision guardDigits
      omega
    obtain ⟨next, -, h⟩ := bind_eq_ok h
    obtain ⟨growth, -, h⟩ := bind_eq_ok h
    obtain ⟨charged, -, h⟩ := bind_eq_ok h
    obtain ⟨weighted, -, h⟩ := bind_eq_ok h
    obtain ⟨earned, -, h⟩ := bind_eq_ok h
    obtain ⟨quotient, -, h⟩ := bind_eq_ok h
    exact withinReach_of_centsAt hleast hmost h

/-- A payment for values can be written. -/
theorem paymentFor_withinReach {principal annual term : Value}
    (h : paymentFor principal annual term = .ok r) : r.withinReach = true := by
  obtain ⟨n, -, h⟩ := bind_eq_ok h
  obtain ⟨p, -, h⟩ := bind_eq_ok h
  obtain ⟨a, -, h⟩ := bind_eq_ok h
  cases hr : payment p a n with
  | error f =>
    rw [hr] at h
    cases h
  | ok q =>
    rw [hr] at h
    obtain rfl := Except.ok.inj h
    exact payment_withinReach hr

end Annuity
end LoanDesk
