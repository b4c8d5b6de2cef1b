import LoanDesk.Loan.Basic

/-
# The review of a loan

A pending loan is approved or rejected, once. What was asked for and when stays as
it was.

Key definitions: `Loan.Status.parse`, `Loan.review`.
-/

namespace LoanDesk
namespace Loan

/-- The status that a value stands for: itself, or its word in any case (`LoanStatus.parse`). -/
def Status.parse (v : Value) : Except Fault Status :=
  match v with
  | .status s => .ok s
  | .text s =>
    match ofLooseWord? s with
    | some st => .ok st
    | none => refuse (.unknownStatus v)
  | _ => refuse (.unknownStatus v)

/-- The loan after its review. -/
def reviewedAs (l : Loan) (target : Status) (comments : Value) (at_ : Stamp) : Loan :=
  { l with status := target, reviewed := some at_, comments := comments, updated := at_ }

/-- Reviews a loan: it must be pending, and the target must end the review
(`LoanLifecycle.review`). -/
def review (l : Loan) (target : Status) (comments : Value) (at_ : Stamp) : Except Refusal Loan :=
  if !l.isPending then .error (.reviewed l.id l.status)
  else if !target.isFinal then .error (.targetPending l.id)
  else .ok (l.reviewedAs target comments at_)

end Loan
end LoanDesk
