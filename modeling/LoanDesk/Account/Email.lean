import LoanDesk.Refusal

/-
# Email addresses

Two addresses are the same account if they are equal in small letters and without
the blanks around them.

Key definitions: `Account.normalEmail`, `Account.onText`, `Account.normalAddress`.
-/

namespace LoanDesk
namespace Account

/-- The form in which addresses are compared: `Text.lowered` behind `Text.trimmed`. -/
def normalEmail (s : String) : String :=
  Text.lowered (Text.trimmed s)

/-- What becomes of a value that must be a text: `whole` changes a text of characters, `torn` a torn
one. -/
def onText (whole : String → String) (torn : Text.Torn → Text.Torn) : Value → Except Fault Value
  | .text s => .ok (.text (whole s))
  | .torn t => .ok (.torn (torn t))
  | _ => .error .missingPart

/-- The form of a value that must be an address (`normalize_email`). -/
def normalAddress : Value → Except Fault Value :=
  onText normalEmail fun t => t.trimmed.lowered

end Account
end LoanDesk
