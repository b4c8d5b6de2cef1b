import LoanDesk.Text.Case

/-
# The status of a loan

A loan is pending until it is reviewed, and approved or rejected from then on.

Key definitions: `Loan.Status`, `Loan.Status.word`, `Loan.Status.label`,
`Loan.Status.ofWord?`, `Loan.Status.isFinal`.
-/

namespace LoanDesk
namespace Loan

/-- Where a loan stands in its review (`LoanStatus`). -/
inductive Status where
  | pending
  | approved
  | rejected
deriving DecidableEq, Repr

namespace Status

/-- All of them, in the order of the review. -/
def all : List Status := [pending, approved, rejected]

/-- The word that records and requests use. -/
def word : Status → String
  | pending => "pending"
  | approved => "approved"
  | rejected => "rejected"

/-- The word shown to people (`status_label`). -/
def label : Status → String
  | pending => "Pending"
  | approved => "Approved"
  | rejected => "Rejected"

/-- The name in capitals. -/
def name : Status → String
  | pending => "PENDING"
  | approved => "APPROVED"
  | rejected => "REJECTED"

/-- The name with the family that it belongs to. -/
def qualified (s : Status) : String :=
  "LoanStatus." ++ s.name

/-- The form in which messages quote it. -/
def quoted (s : Status) : String :=
  "<" ++ s.qualified ++ ": '" ++ s.word ++ "'>"

/-- The status of a word, spelled exactly. -/
def ofWord? (s : String) : Option Status :=
  all.find? fun st => st.word == s

/-- The status of a word in any case and between blanks. -/
def ofLooseWord? (s : String) : Option Status :=
  ofWord? (Text.lowered (Text.trimmed s))

/-- The review is over. -/
def isFinal : Status → Bool
  | pending => false
  | _ => true

end Status
end Loan
end LoanDesk
