import LoanDesk.Desk.Lending
import LoanDesk.Web.Body

/-
# Who may ask

Most routes want a caller, known by the token of the request; some want an
administrator; a loan is shown to its owner and to administrators. What a route needs
is settled in order: content that can be read at all, then the caller, then the form
of the content. The first that fails makes the reply.

Key definitions: `Web.attempt`, `Web.caller`, `Web.withCaller`, `Web.withAdmin`,
`Web.withContent`, `Web.withBody`, `Web.withOwnLoan`.
-/

namespace LoanDesk
namespace Web

/-- Work whose refusal is kept for the reply, as for `http_error`; any other fault goes on. -/
def attempt {α : Type} (w : Work α) : Work (Except Refusal α) :=
  ExceptT.mk fun d =>
    match w.run d with
    | (.ok a, d) => (.ok (.ok a), d)
    | (.error (.refused r), d) => (.ok (.error r), d)
    | (.error f, d) => (.error f, d)

/-- The journal of those who answer. -/
def logger : String := "loan_simulator.api"

/-- An entry about what a user did. -/
def entry (level message : String) (user : Value) (action resource : String) : Journal.Entry :=
  { level, logger, message := .text message
    marks := Journal.Marks.substantial
      { user, action := .text action, resource := .text resource } }

/-- The name under which entries tell of a loan. -/
def loanResource (id : String) : String :=
  "loan:" ++ id

/-- The caller of a request: the stored user whom its token names (`get_current_user`). -/
def caller (r : Request) : Work (Except Reply User) := do
  match r.bearer? with
  | none => return .error (.saying 401 "Not authenticated")
  | some token =>
    match ← attempt (Desk.readToken (.text token)) with
    | .error refusal => return .error (.saying 401 refusal.message)
    | .ok id =>
      match ← Desk.user? id with
      | none => return .error (.saying 401 Refusal.tokenInvalid.message)
      | some u => return .ok u

/-- A reply that needs a `caller`. -/
def withCaller (r : Request) (k : User → Work Reply) : Work Reply := do
  match ← caller r with
  | .error reply => return reply
  | .ok u => k u

/-- A reply that needs an administrator (`require_admin`). -/
def withAdmin (r : Request) (k : User → Work Reply) : Work Reply :=
  withCaller r fun u =>
    if u.isAdministrator then k u else return .saying 403 "Administrator role required"

/-- A reply that needs content that can be read. -/
def withContent (r : Request) (k : Content → Work Reply) : Work Reply :=
  match r.content with
  | .ok c => k c
  | .error .malformed => return .malformed [⟨"json_invalid", [.text "body"], .null⟩]
  | .error _ => return .saying 400 "There was an error parsing the body"

/-- A reply that needs content of a form. -/
def withBody {α : Type} (c : Content) (read : Fields → Form.Checked α) (k : α → Work Reply) :
    Work Reply :=
  match c.checked read with
  | .error problems => return .malformed problems
  | .ok a => k a

/-- A reply that needs a loan which the user may see (`_load_owned_loan`). -/
def withOwnLoan (id : String) (u : User) (k : Loan.Sheet → Work Reply) : Work Reply := do
  match ← attempt (Desk.loanSheet (.text id)) with
  | .error refusal => return .refusal refusal
  | .ok sheet =>
    if u.isAdministrator || sheet.loan.isOwnedBy u.id then k sheet
    else
      return (Reply.saying 403 "Not allowed to access this loan").noting
        (entry "WARNING" "Access to another user's loan denied" u.id "loan_access_denied"
          (loanResource id))

end Web
end LoanDesk
