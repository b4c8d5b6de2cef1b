import LoanDesk.Account.Email
import LoanDesk.Account.User
import LoanDesk.Store.Basic

/-
# The book of users

The users of a store, in its table of users. An email address belongs to one user at
most, whatever the case of its letters and the blanks around it.

Key definitions: `UserBook.get?`, `UserBook.byEmail?`, `UserBook.add`,
`UserBook.update`, `UserBook.remove`.
-/

namespace LoanDesk
namespace UserBook

/-- The table of users. -/
def table : Value := .text "users"

/-- The user of a record; an empty one counts as none. -/
def read? : Option Value → Except Fault (Option User)
  | some v => if v.truthy then (User.ofRecord v).map some else .ok none
  | none => .ok none

/-- The user of an id (`UserStore.get_by_id`). -/
def get? (s : Storage) (id : Value) : Except Fault (Option User) := do
  read? (← s.load table id)

/-- The first user with an email address (`UserStore.get_by_email`). -/
def byEmail? (s : Storage) (email : Value) : Except Fault (Option User) := do
  match ← s.find table [("email", ← Account.normalAddress email)] with
  | [] => return none
  | v :: _ => return some (← User.ofRecord v)

/-- An email address has a user (`UserStore.email_exists`). -/
def hasEmail (s : Storage) (email : Value) : Except Fault Bool :=
  (byEmail? s email).map Option.isSome

/-- The store with the user written down (`UserStore.update`). -/
def update (s : Storage) (u : User) : Except Fault Storage :=
  s.save table u.id (.record u.record)

/-- The store with a new user, whose email address must be free (`UserStore.create`). -/
def add (s : Storage) (u : User) : Except Fault Storage := do
  if ← hasEmail s u.email then refuse (.emailTaken u.email)
  update s u

/-- Removes a user; says whether there was one (`UserStore.delete`). -/
def remove (s : Storage) (id : Value) : Except Fault (Bool × Storage) :=
  s.delete table id

end UserBook
end LoanDesk
