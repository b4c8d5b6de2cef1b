import LoanDesk.Desk.Basic

/-
# Accounts at the desk

Registering checks the address, the name and the password, writes the user down and
gives out a token; logging in checks the password and gives out a token. A user that
is needed in any case is created unless the address is taken.

Key definitions: `Account.Pass`, `Desk.register`, `Desk.login`, `Desk.ensureUser`,
`Desk.issueToken`, `Desk.readToken`.
-/

namespace LoanDesk

/-- What a user gets who has registered or logged in (`AuthResult`). -/
structure Account.Pass where
  user : User
  token : String
deriving Repr

/-- The record of a pass. -/
def Account.Pass.record (p : Account.Pass) : Fields := [
  ("user_id", p.user.id),
  ("full_name", p.user.name),
  ("email", p.user.email),
  ("is_admin", p.user.isAdmin),
  ("token", .text p.token)]

namespace Desk

/-- The value, or the empty text in place of one that counts as false. -/
def orEmpty (v : Value) : Value :=
  if v.truthy then v else .text ""

/-- The value without the blanks around it; it must be a text. -/
def trimmedText : Value → Except Fault Value :=
  Account.onText Text.trimmed Text.Torn.trimmed

/-- The value counts as false or is a blank text. -/
def isMissing (v : Value) : Except Fault Bool :=
  if v.truthy then (trimmedText v).map fun t => t.same (.text "") else .ok true

/-- The number of parts that a value has. -/
def sizeOf : Value → Except Fault Int
  | .text s => .ok s.length
  | .torn t => .ok t.length
  | .list items => .ok items.length
  | .record fields => .ok fields.length
  | _ => .error .wrongKind

/-- The user of an id. -/
def user? (id : Value) : Work (Option User) :=
  reading fun s => UserBook.get? s id

/-- A token for a user, by `Account.Token.issue` at the time of the clock. -/
def issueToken (u : User) : Work String := do
  lifted (Account.Token.issue (← get).terms.tokens u (← now))

/-- The user that a token names; nothing but a text can be a token. -/
def readToken (token : Value) : Work Value := do
  match token with
  | .text s => lifted (Account.Token.userId (← get).terms.tokens (← now) s)
  | .torn _ => throw .notEncodable
  | _ => lifted (refuse .tokenInvalid)

/-- A user with a new id and salt, created now (`AuthService._new_user`). -/
def newUser (name email password isAdmin : Value) : Work User := do
  let created ← now
  let salt ← freshSalt
  let id ← freshId
  let address ← lifted (Account.normalAddress email)
  let digest ← lifted ((← get).terms.hashing.digest password (.text salt))
  return { id := .text id, created, updated := created, name, email := address,
           passwordHash := .text digest, passwordSalt := .text salt, isAdmin }

/-- Writes a new user down, by `UserBook.add`. -/
def addUser (u : User) : Work User := do
  writing fun s => UserBook.add s u
  return u

/-- The pass of a user (`AuthService._result_for`). -/
def passFor (u : User) : Work Account.Pass := do
  return ⟨u, ← issueToken u⟩

/-- The password is missing, or shorter than the least length. -/
def isTooShort (password least : Value) : Except Fault Bool := do
  if !password.truthy then return true
  Loan.isBelow (.int (← sizeOf password)) least

/-- The first thing wrong with a registration whose address is free. -/
def registrationFlaw? (name email password least : Value) : Except Fault (Option Refusal) := do
  if ← isMissing name then return some .nameMissing
  else if ← isMissing email then return some .emailMissing
  else if ← isTooShort password least then return some (.passwordTooShort least)
  else return none

/-- Registers a user without special rights (`AuthService.register`). -/
def register (name email password : Value) : Work Account.Pass := do
  if email.truthy then
    if ← reading fun s => UserBook.hasEmail s email then
      lifted (refuse (.emailTaken (← lifted (Account.normalAddress email))))
  match ← lifted (registrationFlaw? name email password (← get).terms.passwordLeast) with
  | some r => lifted (refuse r)
  | none =>
    let u ← newUser (← lifted (trimmedText name)) email password (.bool false)
    let u ← addUser u
    passFor u

/-- The password is the user's. -/
def passwordFits (u : User) (password : Value) : Work Bool := do
  lifted ((← get).terms.hashing.fits password u.passwordHash u.passwordSalt)

/-- Logs a user in (`AuthService.login`). -/
def login (email password : Value) : Work Account.Pass := do
  match ← reading fun s => UserBook.byEmail? s (orEmpty email) with
  | none => lifted (refuse .credentialsWrong)
  | some u =>
    if ← passwordFits u (orEmpty password) then passFor u
    else lifted (refuse .credentialsWrong)

/-- The user with an address, created unless there is one (`AuthService.ensure_user`). -/
def ensureUser (name email password isAdmin : Value) : Work User := do
  match ← reading fun s => UserBook.byEmail? s email with
  | some u => return u
  | none => addUser (← newUser name email password isAdmin)

/-- Removes a user; says whether there was one. -/
def removeUser (id : Value) : Work Bool :=
  changing fun s => UserBook.remove s id

end Desk
end LoanDesk
