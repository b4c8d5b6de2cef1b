import LoanDesk.Web.Access

/-
# Lending on the web

Callers ask for loans, see their own and remove them; administrators see all loans and
review them; quotes and schedules are there for everyone.

Key definitions: `Web.lend`, `Web.createLoan`, `Web.myLoans`, `Web.calculate`, `Web.schedule`,
`Web.listLoans`, `Web.showLoan`, `Web.reviewLoan`, `Web.deleteLoan`.
-/

namespace LoanDesk
namespace Web

/-- The body for sheets. -/
def sheetsBody (sheets : List Loan.Sheet) : Value :=
  .list (sheets.map fun s => .record s.record)

/-- The entry about a loan that was asked for. -/
def requestedEntry (u : User) (s : Loan.Sheet) : Except Fault Journal.Entry := do
  let amount ← Money.shownValue (.decimal s.loan.amount)
  let payment ← Money.shownValue (.decimal s.loan.payment)
  let e := entry "INFO"
    ("Loan requested: " ++ amount ++ " over " ++ Value.intText s.loan.months ++ " months")
    u.id "create_loan" (loanResource s.loan.id.shown)
  return { e with marks := { e.marks with extra := .record [("monthly_payment", .text payment)] } }

/-- Asks for the loan in the content, in the name of a user, by `Desk.createLoan`. -/
def lend (content : Content) (u : User) : Work Reply :=
  withBody content LoanForm.read fun form => do
    match ← attempt (do Desk.createLoan u.id (← Desk.lifted form.request)) with
    | .error refusal =>
      return (Reply.refusal refusal).noting
        (entry "WARNING" ("Loan request rejected: " ++ refusal.message) u.id "create_loan_failed"
          "loan")
    | .ok sheet =>
      return Reply.noting { code := 201, body := .value (.record sheet.record) }
        (← Desk.lifted (requestedEntry u sheet))

/-- Asks for a loan in the name of the caller: `lend` behind the checks of content and caller. -/
def createLoan (r : Request) : Work Reply :=
  withContent r fun content => withCaller r (lend content)

/-- The loans of the caller (`get_my_loans`). -/
def myLoans (r : Request) : Work Reply :=
  withCaller r fun u => do return .ok (sheetsBody (← Desk.loansOfUser u.id))

/-- The record of a quote (`PaymentQuoteModel`). -/
def quoteRecord (q : Annuity.Quote) : Fields := [
  ("amount", .text q.amount.text),
  ("interest_rate", .text q.rate.text),
  ("term_in_months", .int q.months),
  ("monthly_payment", .text q.payment.text),
  ("total_payment", .text q.total.text),
  ("total_interest", .text q.interest.text)]

/-- The record of an entry of a schedule (`AmortizationEntryModel`). -/
def scheduleRecord (e : Annuity.Entry) : Fields := [
  ("payment_number", .int e.number),
  ("payment_amount", .text e.payment.text),
  ("principal_amount", .text e.principal.text),
  ("interest_amount", .text e.interest.text),
  ("remaining_balance", .text e.balance.text)]

/-- The quote of a loan that is not asked for yet (`calculate_payment`). -/
def calculate (r : Request) : Work Reply :=
  withContent r fun content =>
  withBody content LoanForm.read fun form => do
    match ← attempt (do Desk.quoteFor (← Desk.lifted form.request)) with
    | .error refusal => return .refusal refusal
    | .ok quote => return .ok (.record (quoteRecord quote))

/-- The schedule of a loan that is not asked for yet (`get_payment_schedule`). -/
def schedule (r : Request) : Work Reply :=
  withContent r fun content =>
  withBody content LoanForm.read fun form => do
    match ← attempt (do Desk.scheduleFor (← Desk.lifted form.request)) with
    | .error refusal => return .refusal refusal
    | .ok entries =>
      return .ok (.record [("schedule", .list (entries.map fun e => .record (scheduleRecord e)))])

/-- The status that a list is asked for, if any. -/
def wantedStatus (r : Request) : Except Fault (Option Loan.Status) :=
  match r.parameter? "status" with
  | none | some "" => .ok none
  | some s => (Loan.Status.parse (.text s)).map some

/-- All loans, or those with a status (`get_all_loans`). -/
def listLoans (r : Request) : Work Reply :=
  withAdmin r fun _ => do
    match ← attempt (Desk.lifted (wantedStatus r)) with
    | .error refusal => return .refusal refusal
    | .ok status => return .ok (sheetsBody (← Desk.allLoans status))

/-- A loan (`get_loan`). -/
def showLoan (id : String) (r : Request) : Work Reply :=
  withCaller r fun u =>
  withOwnLoan id u fun sheet => return .ok (.record sheet.record)

/-- Reviews a loan (`review_loan`). -/
def reviewLoan (id : String) (r : Request) : Work Reply :=
  withContent r fun content =>
  withAdmin r fun u =>
  withBody content ReviewForm.read fun form => do
    let review : Work Loan.Sheet := do
      let status ← Desk.lifted (Loan.Status.parse (.text form.status))
      Desk.reviewLoan (.text id) status form.commentsValue
    match ← attempt review with
    | .error refusal =>
      return (Reply.refusal refusal).noting
        (entry "WARNING" ("Loan review failed: " ++ refusal.message) u.id "review_loan_failed"
          (loanResource id))
    | .ok sheet =>
      return (Reply.ok (.record sheet.record)).noting
        (entry "INFO" ("Loan reviewed as " ++ sheet.loan.status.label) u.id "review_loan"
          (loanResource id))

/-- Removes a loan (`delete_loan`). -/
def deleteLoan (id : String) (r : Request) : Work Reply :=
  withCaller r fun u =>
  withOwnLoan id u fun _ => do
    match ← attempt (Desk.deleteLoan (.text id)) with
    | .error refusal => return .refusal refusal
    | .ok _ =>
      return Reply.noting { code := 204 }
        (entry "INFO" "Loan deleted" u.id "delete_loan" (loanResource id))

end Web
end LoanDesk
