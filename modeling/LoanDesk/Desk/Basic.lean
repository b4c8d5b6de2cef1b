import LoanDesk.Account.Book
import LoanDesk.Account.Password
import LoanDesk.Account.Token
import LoanDesk.Loan.Book
import LoanDesk.Loan.Request

/-
# The desk

The desk has a store, a clock, and counters for what must be unique: ids, salts and
request numbers. It works under fixed terms. A task that fails leaves the desk as far
as it had come.

Key definitions: `Desk.Terms`, `Desk`, `Work`, `Desk.reading`, `Desk.writing`,
`Desk.freshId`, `Desk.freshSalt`.
-/

namespace LoanDesk

/-- The terms that a desk works under. -/
structure Desk.Terms where
  limits : Loan.Limits := .standard
  tokens : Account.TokenTerms
  passwordLeast : Value := .int 6
  hashing : Account.Hashing := Account.scryptHashing
  /-- The web sites whose pages may send requests. -/
  origins : List String := []

/-- A desk at work. -/
structure Desk where
  terms : Desk.Terms
  storage : Storage := .ofKind .memory
  clock : Stamp
  ids : Nat := 0
  salts : Nat := 0
  requests : Nat := 0
  /-- The copy of a loan that is read in place of the stored one, whichever is asked for. -/
  pinned : Option Loan := none

/-- Work at a desk, which may fail and keeps what was done before. -/
abbrev Work := ExceptT Fault (StateM Desk)

namespace Desk

/-- Work that only looks at the store. -/
def reading {α : Type} (look : Storage → Except Fault α) : Work α := do
  match look (← get).storage with
  | .ok a => return a
  | .error f => throw f

/-- Work that changes the store and gives an answer. -/
def changing {α : Type} (change : Storage → Except Fault (α × Storage)) : Work α := do
  match change (← get).storage with
  | .ok (a, s) =>
    modify fun d => { d with storage := s }
    return a
  | .error f => throw f

/-- Work that changes the store. -/
def writing (change : Storage → Except Fault Storage) : Work Unit :=
  changing fun s => (change s).map fun t => ((), t)

/-- Work that does not need the desk. -/
def lifted {α : Type} : Except Fault α → Work α
  | .ok a => return a
  | .error f => throw f

/-- The time. -/
def now : Work Stamp := do return (← get).clock

/-- An id that was not used before. -/
def freshId : Work String := do
  let n := (← get).ids + 1
  modify fun d => { d with ids := n }
  return "id-" ++ String.ofList (Text.natDigits n)

/-- A salt that was not used before. -/
def freshSalt : Work String := do
  let n := (← get).salts + 1
  modify fun d => { d with salts := n }
  return String.ofList (Text.hexDigits 32 n)

/-- An id of a request that was not used before. -/
def freshRequest : Work String := do
  let n := (← get).requests + 1
  modify fun d => { d with requests := n }
  return "req-" ++ String.ofList (Text.natDigits n)

/-- Sets the clock. -/
def setClock (t : Stamp) : Work Stamp := do
  modify fun d => { d with clock := t }
  return t

end Desk
end LoanDesk
