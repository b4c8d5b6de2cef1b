import LoanDesk.Annuity
import LoanDesk.Desk.Accounts

/-
# Lending at the desk

Loans are asked for, looked at, reviewed and removed. Who may do what is not settled
here; only that users and loans exist. A review reads a copy of the loan, decides on
the copy, and writes it back only if the stored loan is still pending, so of several
reviewers one succeeds. A removal looks first, too.

Key definitions: `Loan.Sheet`, `Desk.createLoan`, `Desk.reviewLoan`,
`Desk.concludeReview`, `Desk.loanSheet`, `Desk.allLoans`, `Desk.loansOfUser`,
`Desk.deleteLoan`, `Desk.countPending`, `Desk.Summary`, `Desk.summarize`.
-/

namespace LoanDesk

/-- A loan as it is shown to callers, with its owner's name and address (`LoanRecord`). -/
structure Loan.Sheet where
  loan : Loan
  amountText : String
  rateText : String
  ownerName : Value
  ownerEmail : Value
deriving Repr

namespace Loan.Sheet

/-- The sheet of a loan and its owner, if there still is one (`LoanRecord.from_loan`). -/
def of (l : Loan) (owner : Option User) : Loan.Sheet :=
  match owner with
  | some u => ⟨l, l.amount.text, l.rate.text, u.name, u.email⟩
  | none => ⟨l, l.amount.text, l.rate.text, .text "Unknown user", .text ""⟩

/-- The record of a sheet. -/
def record (s : Loan.Sheet) : Fields := [
  ("id", s.loan.id),
  ("amount", .text s.amountText),
  ("interest_rate", .text s.rateText),
  ("term_in_months", .int s.loan.months),
  ("monthly_payment", .text s.loan.payment.text),
  ("status", .text s.loan.status.word),
  ("status_label", .text s.loan.status.label),
  ("request_date", .text s.loan.requested.iso),
  ("review_date", Loan.stampValue s.loan.reviewed),
  ("admin_comments", s.loan.comments),
  ("owner_id", s.loan.owner),
  ("owner_name", s.ownerName),
  ("owner_email", s.ownerEmail)]

end Loan.Sheet

namespace Desk

/-- The copy of a loan that a reader gets. -/
def loan? (id : Value) : Work (Option Loan) := do
  match (← get).pinned with
  | some l => return some l
  | none => reading fun s => LoanBook.get? s id

/-- The copy of a loan, which must exist: the first half of `review_loan`. -/
def readLoan (id : Value) : Work Loan := do
  match ← loan? id with
  | some l => return l
  | none => lifted (refuse (.missing "loan" id))

/-- A user, who must exist. -/
def readUser (id : Value) : Work User := do
  match ← user? id with
  | some u => return u
  | none => lifted (refuse (.missing "user" id))

/-- The pending loan that an accepted request makes. -/
def loanOf (id : String) (at_ : Stamp) (owner : User) (amount rate : Decimal.Extended)
    (months : Int) (payment : Decimal) : Loan :=
  { id := .text id, created := at_, updated := at_, owner := owner.id, amount, rate, months,
    payment := .finite payment, status := .pending, requested := at_, reviewed := none,
    comments := .null }

/-- What a checked request comes to: amount, rate, months and payment. -/
def worth (r : Loan.Request) :
    Except Fault (Decimal.Extended × Decimal.Extended × Nat × Decimal) := do
  let payment ← Annuity.paymentFor r.amount r.rate r.term
  let months ← Annuity.months r.term
  return (← r.amount.toDecimal, ← r.rate.toDecimal, months, payment)

/-- Asks for a loan in the name of a user (`LoanApplicationService.create_loan`). -/
def createLoan (userId : Value) (r : Loan.Request) : Work Loan.Sheet := do
  let user ← readUser userId
  lifted ((← get).terms.limits.check r)
  let (amount, rate, months, payment) ← lifted (worth r)
  let at_ ← now
  let id ← freshId
  let l := loanOf id at_ user amount rate months payment
  writing fun s => LoanBook.add s l
  return ⟨l, r.amount.shown, r.rate.shown, user.name, user.email⟩

/-- The sheet of a loan (`LoanApplicationService._record`). -/
def sheetOf (l : Loan) : Work Loan.Sheet := do
  return .of l (← user? l.owner)

/-- Decides on the copy of a loan and writes it back if the stored one is still pending: the second
half of `review_loan`. -/
def concludeReview (id : Value) (l : Loan) (target : Loan.Status) (comments : Value) :
    Work Loan.Sheet := do
  match l.review target comments (← now) with
  | .error r => lifted (refuse r)
  | .ok reviewed =>
    if ← changing fun s => LoanBook.updateIf s reviewed .pending then sheetOf reviewed
    else lifted (refuse (.reviewLost id))

/-- Reviews a loan (`LoanApplicationService.review_loan`). -/
def reviewLoan (id : Value) (target : Loan.Status) (comments : Value) : Work Loan.Sheet := do
  concludeReview id (← readLoan id) target comments

/-- The sheet of the loan of an id (`LoanApplicationService.get_loan_by_id`). -/
def loanSheet (id : Value) : Work Loan.Sheet := do
  sheetOf (← readLoan id)

/-- The sheets of the loans of a user (`LoanApplicationService.get_loans_for_user`). -/
def loansOfUser (userId : Value) : Work (List Loan.Sheet) := do
  let owner ← user? userId
  let ls ← reading fun s => LoanBook.ofOwner s userId
  return ls.map fun l => .of l owner

/-- The owner that was looked up for an equal owner field before, or who is looked up now. -/
def ownerAmong (seen : Store.Table Value (Option User)) (owner : Value) :
    Work (Option User) := do
  match seen.get? (← lifted owner.asKey) with
  | some u => return u
  | none => user? owner

/-- The sheets of loans, in order. Each owner is looked up once. -/
def sheetsOf (seen : Store.Table Value (Option User)) : List Loan → Work (List Loan.Sheet)
  | [] => return []
  | l :: rest => do
    let owner ← ownerAmong seen l.owner
    return .of l owner :: (← sheetsOf (seen.put l.owner owner) rest)

/-- The sheets of all loans, or of those with a status (`LoanApplicationService.get_all_loans`). -/
def allLoans (status : Option Loan.Status) : Work (List Loan.Sheet) := do
  let ls ← reading fun s =>
    match status with
    | none => LoanBook.all s
    | some st => LoanBook.ofStatus s st
  sheetsOf [] ls

/-- Looks whether there is a loan to remove: the first half of `delete_loan`. -/
def confirmLoan (id : Value) : Work Unit := do
  if !(← reading fun s => LoanBook.has s id) then lifted (refuse (.missing "loan" id))

/-- Removes a loan and says whether there was one: the second half of `delete_loan`. -/
def removeLoan (id : Value) : Work Bool :=
  changing fun s => LoanBook.remove s id

/-- Removes a loan, which must exist (`LoanApplicationService.delete_loan`). -/
def deleteLoan (id : Value) : Work Bool := do
  confirmLoan id
  removeLoan id

/-- The number of loans that wait for their review (`LoanApplicationService.count_pending`). -/
def countPending : Work Nat :=
  reading LoanBook.countPending

/-- A user and the numbers of the user's loans (`UserSummary`). -/
structure Summary where
  user : User
  total : Nat
  pending : Nat
  approved : Nat
  rejected : Nat
deriving Repr

/-- The record of a summary. -/
def Summary.record (s : Summary) : Fields := [
  ("user_id", s.user.id),
  ("full_name", s.user.name),
  ("email", s.user.email),
  ("is_admin", s.user.isAdmin),
  ("created_at", .text s.user.created.iso),
  ("total_loans", .int s.total),
  ("pending_loans", .int s.pending),
  ("approved_loans", .int s.approved),
  ("rejected_loans", .int s.rejected)]

/-- The number of loans with a status. -/
def countOf (status : Loan.Status) (ls : List Loan) : Nat :=
  ls.countP fun l => l.status == status

/-- The summary of a user (`LoanApplicationService.summarize_user`). -/
def summarize (userId : Value) : Work Summary := do
  let user ← readUser userId
  let ls ← reading fun s => LoanBook.ofOwner s userId
  return ⟨user, ls.length, countOf .pending ls, countOf .approved ls, countOf .rejected ls⟩

/-- The quote of a request within the limits (`LoanApplicationService.quote_payment`). -/
def quoteFor (r : Loan.Request) : Work Annuity.Quote := do
  lifted ((← get).terms.limits.check r)
  lifted (Annuity.quoteFor r.amount r.rate r.term)

/-- The schedule of a request within the limits (`LoanApplicationService.schedule_for`). -/
def scheduleFor (r : Loan.Request) : Work (List Annuity.Entry) := do
  lifted ((← get).terms.limits.check r)
  lifted (Annuity.scheduleFor r.amount r.rate r.term)

/-- Takes the stored loan of an id for all reads to come; where there is none, loans are read from
the store again. -/
def pin (id : Value) : Work (Option Loan) := do
  let l ← reading fun s => LoanBook.get? s id
  modify fun d => { d with pinned := l }
  return l

/-- Reads loans from the store again. -/
def unpin : Work Unit :=
  modify fun d => { d with pinned := none }

end Desk
end LoanDesk
