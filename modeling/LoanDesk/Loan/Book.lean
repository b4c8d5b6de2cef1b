import LoanDesk.Loan.Review
import LoanDesk.Store.Basic

/-
# The book of loans

The loans of a store, in its table of loans. Lists run from the newest request to the
oldest; requests of the same time stand in the order in which their loans first came.
Requests with and without an offset in one list cannot be put in order.

Key definitions: `LoanBook.get?`, `LoanBook.all`, `LoanBook.ofOwner`,
`LoanBook.ofStatus`, `LoanBook.add`, `LoanBook.update`, `LoanBook.updateIf`,
`LoanBook.remove`, `newestFirst`.
-/

namespace LoanDesk

namespace Loan

/-- All requests have an offset, or none has. -/
def areComparable : List Loan → Bool
  | [] => true
  | l :: rest => rest.all fun m => m.requested.offset.isSome == l.requested.offset.isSome

/-- The first loan was asked for no earlier than the second. -/
def notOlder (a b : Loan) : Bool :=
  b.requested.instant ≤ a.requested.instant

/-- The loans from the newest request to the oldest. -/
def newestFirst (ls : List Loan) : Except Fault (List Loan) :=
  if areComparable ls then .ok (ls.mergeSort notOlder) else .error .wrongKind

end Loan

namespace LoanBook

/-- The table of loans. -/
def table : Value := .text "loans"

/-- The loans that records hold, read in order. -/
def readAll : List Value → Except Fault (List Loan)
  | [] => .ok []
  | v :: rest => do return (← Loan.ofRecord v) :: (← readAll rest)

/-- The loan of a record; an empty one counts as none. -/
def read? : Option Value → Except Fault (Option Loan)
  | some v => if v.truthy then (Loan.ofRecord v).map some else .ok none
  | none => .ok none

/-- The loan of an id (`LoanStore.get_by_id`). -/
def get? (s : Storage) (id : Value) : Except Fault (Option Loan) := do
  read? (← s.load table id)

/-- The loans that records hold, newest request first (`LoanStore._sorted`). -/
def ordered (records : List Value) : Except Fault (List Loan) := do
  Loan.newestFirst (← readAll records)

/-- All loans, newest request first (`LoanStore.get_all`). -/
def all (s : Storage) : Except Fault (List Loan) := do
  ordered (← s.loadAll table)

/-- The loans of an owner, newest request first (`LoanStore.get_all_for_user`). -/
def ofOwner (s : Storage) (owner : Value) : Except Fault (List Loan) := do
  ordered (← s.find table [("owner_id", owner)])

/-- The filter for a status. -/
def statusFilter (status : Loan.Status) : Fields :=
  [("status", .text status.word)]

/-- The loans with a status, newest request first (`LoanStore.get_by_status`). -/
def ofStatus (s : Storage) (status : Loan.Status) : Except Fault (List Loan) := do
  ordered (← s.find table (statusFilter status))

/-- The number of loans that wait for their review (`LoanStore.count_pending`). -/
def countPending (s : Storage) : Except Fault Nat :=
  (s.find table (statusFilter .pending)).map List.length

/-- An id has a loan (`LoanStore.exists`). -/
def has (s : Storage) (id : Value) : Except Fault Bool :=
  s.has table id

/-- The store with the loan written down (`LoanStore.update`). -/
def update (s : Storage) (l : Loan) : Except Fault Storage :=
  s.save table l.id (.record l.record)

/-- The store with a new loan (`LoanStore.create`). -/
def add (s : Storage) (l : Loan) : Except Fault Storage := do
  if ← s.has table l.id then refuse (.loanExists l.id)
  update s l

/-- Writes the loan down if the stored copy still has a status; says whether it did
(`LoanStore.update_if_status`). -/
def updateIf (s : Storage) (l : Loan) (expected : Loan.Status) : Except Fault (Bool × Storage) :=
  s.saveIfMatch table l.id (.record l.record) (statusFilter expected)

/-- Removes a loan; says whether there was one (`LoanStore.delete`). -/
def remove (s : Storage) (id : Value) : Except Fault (Bool × Storage) :=
  s.delete table id

end LoanBook
end LoanDesk
