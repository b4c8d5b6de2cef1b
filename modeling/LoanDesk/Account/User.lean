import LoanDesk.Value.Number
import LoanDesk.Loan.Basic

/-
# Users

A user has a name, an email address, a digest of a password with its salt, and may be
an administrator, who reviews loans. Records tell what they hold for these and nothing
checks it, so each is a value of any kind; most often all are texts but the last, which
is a truth value, and whatever counts as true makes an administrator. Only the stamps
must be stamps.

Key definitions: `User`, `User.isAdministrator`, `User.role`, `User.record`,
`User.ofRecord`, `User.set`, `Account.Document`.
-/

namespace LoanDesk

/-- A registered user. -/
structure User where
  id : Value
  created : Stamp
  updated : Stamp
  name : Value
  email : Value
  passwordHash : Value := .text ""
  passwordSalt : Value := .text ""
  isAdmin : Value := .bool false
deriving Repr

namespace User

/-- The word for what users may do. -/
def roleWord (isAdmin : Bool) : String :=
  if isAdmin then "Admin" else "User"

/-- The user may review loans. -/
def isAdministrator (u : User) : Bool :=
  u.isAdmin.truthy

/-- The word for what the user may do. -/
def role (u : User) : String :=
  roleWord u.isAdministrator

/-- The record of a user. -/
def record (u : User) : Fields := [
  ("id", u.id.recorded),
  ("created_at", .text u.created.iso),
  ("updated_at", .text u.updated.iso),
  ("full_name", u.name.recorded),
  ("email", u.email.recorded),
  ("password_hash", u.passwordHash.recorded),
  ("password_salt", u.passwordSalt.recorded),
  ("is_admin", u.isAdmin.recorded)]

end User

namespace Account

/-- A user put together from values of any kind, named by its fields. -/
structure Document where
  fields : Fields
deriving Repr

namespace Document

/-- The names that a document must have. -/
def required : List String := ["id", "created_at", "updated_at", "full_name", "email"]

/-- The names that a document may have, and what they are otherwise. -/
def optional : List (String × Value) :=
  [("password_hash", .text ""), ("password_salt", .text ""), ("is_admin", .bool false)]

/-- A stamp that may be written as a text. -/
def readStamp : Value → Except Fault Value
  | .text s =>
    match Stamp.ofIso? s with
    | some t => .ok (.moment t)
    | none => .error .noMeaning
  | .torn _ => .error .noMeaning
  | v => .ok v

/-- A name and a value in one: a list of two, a text of two characters, or the names of a record
of two. -/
def pair : Value → Except Fault (Value × Value)
  | .list [a, b] => .ok (a, b)
  | .list _ => .error .noMeaning
  | .text s =>
    match s.toList with
    | [a, b] => .ok (.text (String.singleton a), .text (String.singleton b))
    | _ => .error .noMeaning
  | .record [(a, _), (b, _)] => .ok (.text a, .text b)
  | .record _ => .error .noMeaning
  | _ => .error .wrongKind

/-- The pairs of a list, one after the other. -/
def pairs : List Value → Except Fault (List (Value × Value))
  | [] => .ok []
  | v :: rest => do
    let (a, b) ← pair v
    return (← a.asKey, b) :: (← pairs rest)

/-- The fields that pairs name by texts, and whether others are among them. -/
def fieldsOfPairs : List (Value × Value) → List (String × Value) × Bool
  | [] => ([], false)
  | (.text name, v) :: rest => ((name, v) :: (fieldsOfPairs rest).1, (fieldsOfPairs rest).2)
  | _ :: rest => ((fieldsOfPairs rest).1, true)

/-- The fields that a value holds, and whether it names others by no texts: those of a record, or
the pairs of a list. A text is a row of characters, none of which is a pair. -/
def fieldsOf : Value → Except Fault (Fields × Bool)
  | .record fs => .ok (fs, false)
  | .text s => if s = "" then .ok ([], false) else .error .noMeaning
  | .list items => do
    let (fs, others) := fieldsOfPairs (← pairs items)
    return (Fields.ofPairs fs, others)
  | _ => .error .wrongKind

/-- The document of a value: stamps are read first, then no name may be missing or unknown. -/
def of (v : Value) : Except Fault Document := do
  let (fs, others) ← fieldsOf v
  let created ← readStamp (Fields.get fs "created_at")
  let updated ← readStamp (Fields.get fs "updated_at")
  let known := required ++ optional.map (·.1)
  if others then throw .wrongKind
  if required.all (fun n => (Fields.get? fs n).isSome) && fs.all (fun f => known.contains f.1) then
    return ⟨[("id", Fields.get fs "id"), ("created_at", created), ("updated_at", updated),
      ("full_name", Fields.get fs "full_name"), ("email", Fields.get fs "email")] ++
      optional.map fun o => (o.1, (Fields.get? fs o.1).getD o.2)⟩
  else throw .wrongKind

/-- The value of a field. -/
def get (d : Document) (name : String) : Value :=
  Fields.get d.fields name

/-- The record of a document; its stamps must be stamps by now. -/
def record (d : Document) : Except Fault Fields := do
  let created ← Loan.Draft.stampField (d.get "created_at")
  let updated ← Loan.Draft.stampField (d.get "updated_at")
  return d.fields.map fun (n, v) =>
    if n = "created_at" then (n, created)
    else if n = "updated_at" then (n, updated)
    else (n, v.recorded)

/-- The word for what the user of a document may do. -/
def role (d : Document) : String :=
  User.roleWord (d.get "is_admin").truthy

end Document
end Account

namespace User

/-- A value that must be a stamp. -/
def stampOf : Value → Except Fault Stamp
  | .moment t => .ok t
  | _ => .error .missingPart

/-- The user that a record holds (`User.from_dict`). -/
def ofRecord (v : Value) : Except Fault User := do
  let d ← Account.Document.of v
  let created ← stampOf (d.get "created_at")
  let updated ← stampOf (d.get "updated_at")
  return { id := d.get "id", created, updated, name := d.get "full_name", email := d.get "email",
           passwordHash := d.get "password_hash", passwordSalt := d.get "password_salt",
           isAdmin := d.get "is_admin" }

/-- The user with another value for what a name in records stands for. The role follows from the
rest and cannot be set; a name that users do not have is passed over. -/
def set (u : User) (name : String) (v : Value) : Except Fault User :=
  match name with
  | "id" => .ok { u with id := v }
  | "created_at" => (stampOf v).map fun t => { u with created := t }
  | "updated_at" => (stampOf v).map fun t => { u with updated := t }
  | "full_name" => .ok { u with name := v }
  | "email" => .ok { u with email := v }
  | "password_hash" => .ok { u with passwordHash := v }
  | "password_salt" => .ok { u with passwordSalt := v }
  | "is_admin" => .ok { u with isAdmin := v }
  | "role" => .error .missingPart
  | _ => .ok u

/-- The user with other values, one set after the other. -/
def setAll (u : User) : Fields → Except Fault User
  | [] => .ok u
  | (name, v) :: rest => do (← u.set name v).setAll rest

end User
end LoanDesk
