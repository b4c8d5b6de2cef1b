import LoanDesk.Form
import LoanDesk.Loan.Request
import LoanDesk.Web.Message

/-
# The bodies of requests

What a request carries is checked against the form that its route asks for. Names that
the form does not know are passed over.

Key definitions: `Web.Content.checked`, `Web.Registration`, `Web.Credentials`,
`Web.LoanForm`, `Web.ReviewForm`.
-/

namespace LoanDesk
namespace Web

/-- The content read by a form: it must be there, and be an object. -/
def Content.checked {α : Type} (c : Content) (read : Fields → Form.Checked α) : Form.Checked α :=
  Form.within (.text "body") <|
    match c with
    | .nothing => Form.problem "missing" .null
    | .json (.record fs) => read fs
    | .json v => Form.problem "model_attributes_type" v
    | .unread s => Form.problem "model_attributes_type" (.text s)

/-- Who registers, in texts that may be torn (`RegisterRequest`). -/
structure Registration where
  name : Value
  email : Value
  password : Value
deriving Repr

/-- A registration in named values. -/
def Registration.read (fs : Fields) : Form.Checked Registration := do
  let field (name : String) := Form.required fs name Form.anyText
  let (name, email, password) ←
    Form.both (field "full_name") (Form.both (field "email") (field "password"))
  return ⟨name, email, password⟩

/-- Who logs in, in texts that may be torn (`LoginRequest`). -/
structure Credentials where
  email : Value
  password : Value
deriving Repr

/-- Credentials in named values. -/
def Credentials.read (fs : Fields) : Form.Checked Credentials := do
  let field (name : String) := Form.required fs name Form.anyText
  let (email, password) ← Form.both (field "email") (field "password")
  return ⟨email, password⟩

/-- The loan that is asked for (`CreateLoanRequest`). -/
structure LoanForm where
  amount : Decimal
  rate : Decimal
  months : Int
deriving DecidableEq, Repr

namespace LoanForm

/-- A loan in named values. -/
def read (fs : Fields) : Form.Checked LoanForm := do
  let amount (name : String) := Form.required fs name Form.amount
  let (amount, rate, months) ←
    Form.both (amount "amount") <|
    Form.both (amount "interest_rate")
      (Form.required fs "term_in_months" Form.whole)
  return ⟨amount, rate, months⟩

/-- The request that a form makes. -/
def request (f : LoanForm) : Except Fault Loan.Request :=
  Loan.Request.of (.decimal (.finite f.amount)) (.decimal (.finite f.rate)) (.int f.months)

end LoanForm

/-- The outcome of a review (`ReviewLoanRequest`). -/
structure ReviewForm where
  status : String
  comments : Option String
deriving DecidableEq, Repr

namespace ReviewForm

/-- The longest comment. -/
def longestComment : Nat := 500

/-- The word of a status (`status_is_known`). -/
def statusWord (v : Value) : Form.Checked String := do
  let s ← Form.text v
  match Loan.Status.ofLooseWord? s with
  | some _ => return s
  | none => Form.problem "value_error" v

/-- A comment, or none. A torn text has no length. -/
def comment : Value → Form.Checked (Option String)
  | .null => .ok none
  | .torn t => Form.problem "string_unicode" (.torn t)
  | v => do
    let s ← Form.text v
    if longestComment < s.length then Form.problem "string_too_long" v else return some s

/-- A review in named values. -/
def read (fs : Fields) : Form.Checked ReviewForm := do
  let (status, comments) ←
    Form.both (Form.required fs "status" statusWord)
      (Form.optional "admin_comments" (Fields.get? fs "admin_comments") comment none)
  return ⟨status, comments⟩

/-- The comments as a loan keeps them. -/
def commentsValue (f : ReviewForm) : Value :=
  match f.comments with
  | some s => .text s
  | none => .null

end ReviewForm
end Web
end LoanDesk
