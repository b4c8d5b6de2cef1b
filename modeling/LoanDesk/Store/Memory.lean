import LoanDesk.Store.Table
import LoanDesk.Value.Number

/-
# A store in memory

Records are kept as a document keeps them. Ids and names of tables may be of any kind
that does not change: numbers that are equal are one id, and a list or a record is
none. Filters name fields that a document must have, with values equal to theirs. Only
a record has fields; to ask another document for one is a fault, unless it is a text or
a list that does not hold the name at all.

Key definitions: `Store.Memory`, `Store.Memory.equals?`,
`Store.Memory.holds?`, `Store.Memory.matches?`, `Store.Memory.save`,
`Store.Memory.saveIfMatch`, `Store.Memory.find`, `Store.Memory.delete`.
-/

namespace LoanDesk
namespace Store

instance : Alike Value := ⟨Value.same⟩

/-- Documents by table and id (`InMemoryStorage`). -/
structure Memory where
  tables : Tables Value Value Value := []
deriving Repr, Inhabited

namespace Memory

mutual

/-- The values are equal: as amounts, as texts, or part by part. Nothing can be compared with a
number that no operation accepts, so it is a fault to come upon one beside a number. -/
def equals? : Value → Value → Except Fault Bool
  | .list as, .list bs => if as.length = bs.length then equalItems? as bs else .ok false
  | .record as, .record bs => if as.length = bs.length then equalFields? as bs else .ok false
  | a, .decimal (.nan _ true _) =>
    if a.amount?.isSome then .error (.arithmetic .invalidOperation) else .ok false
  | a, b => .ok (a.same b)

/-- Two lists are equal item by item, up to the first difference. -/
def equalItems? : List Value → List Value → Except Fault Bool
  | a :: as, b :: bs => do if ← equals? a b then equalItems? as bs else return false
  | _, _ => .ok true

/-- Every field of the first record has an equal one of its name in the second, up to the first
that has not. -/
def equalFields? : List (String × Value) → Fields → Except Fault Bool
  | [], _ => .ok true
  | (n, a) :: rest, bs =>
    match Fields.get? bs n with
    | none => .ok false
    | some b => do if ← equals? a b then equalFields? rest bs else return false

end

/-- The text has the other one within it. -/
def isWithin (part : List Char) : List Char → Bool
  | [] => part.isEmpty
  | c :: rest => part.isPrefixOf (c :: rest) || isWithin part rest

/-- The document has a field of a name with an equal value. -/
def holds? (document : Value) (name : String) (wanted : Value) : Except Fault Bool :=
  match document with
  | .record fs =>
    match Fields.get? fs name with
    | some found => equals? found wanted
    | none => .ok false
  | .text s => if isWithin name.toList s.toList then .error .wrongKind else .ok false
  | .list items => if items.any (·.same (.text name)) then .error .wrongKind else .ok false
  | _ => .error .wrongKind

/-- The document has every wanted value; the first that it lacks settles it (`_matches`). -/
def matches? (document : Value) : Fields → Except Fault Bool
  | [] => .ok true
  | (name, wanted) :: rest => do
    if ← holds? document name wanted then matches? document rest else return false

/-- The documents of a table (`InMemoryStorage._table`). -/
def table (m : Memory) (name : Value) : Except Fault (Table Value Value) :=
  name.asKey.map m.tables.get

/-- The store with a document under an id. -/
def save (m : Memory) (name id data : Value) : Except Fault Memory := do
  if !data.isWritable then throw .noMeaning
  let t ← m.table name
  return ⟨m.tables.set name (t.put (← id.asKey) data.stored)⟩

/-- A document; null counts as none. -/
def load (m : Memory) (name id : Value) : Except Fault (Option Value) := do
  let t ← m.table name
  match t.get? (← id.asKey) with
  | some .null => return none
  | r => return r

/-- Replaces a document that has every wanted value; says whether it did
(`InMemoryStorage.save_if_match`). -/
def saveIfMatch (m : Memory) (name id data : Value) (wanted : Fields) :
    Except Fault (Bool × Memory) := do
  match ← m.load name id with
  | none => return (false, m)
  | some current =>
    if ← matches? current wanted then return (true, ← m.save name id data) else return (false, m)

/-- All documents of a table. -/
def loadAll (m : Memory) (name : Value) : Except Fault (List Value) :=
  (m.table name).map Table.entries

/-- The documents of a table that have every wanted value, `chosen` in order. -/
def find (m : Memory) (name : Value) (wanted : Fields) : Except Fault (List Value) := do
  chosen (fun v => matches? v wanted) (← m.loadAll name)

/-- Removes a document; says whether there was one. -/
def delete (m : Memory) (name id : Value) : Except Fault (Bool × Memory) := do
  let t ← m.table name
  return ((← m.load name id).isSome, ⟨m.tables.set name (t.erase id)⟩)

/-- An id has a document. -/
def has (m : Memory) (name id : Value) : Except Fault Bool := do
  let t ← m.table name
  return t.has (← id.asKey)

/-- The number of documents of a table. -/
def count (m : Memory) (name : Value) : Except Fault Nat :=
  (m.table name).map List.length

end Memory
end Store
end LoanDesk
