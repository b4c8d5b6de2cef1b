import LoanDesk.Decimal.Rounding
import LoanDesk.Json.Parser
import LoanDesk.Store.Catalog
import LoanDesk.Store.Path
import LoanDesk.Store.Table

/-
# A store in a database

Each record is a row with its text in JSON. Table names are names of the database's
language, upper and lower case alike. Ids are handed over as values and kept as texts,
so a number and its text are one id, and null is no id at all: every row with it is a
row of its own. A filter extracts a part of the text and compares it with a value
handed over: null with what is null or missing, numbers by amount, texts with texts.
A statement that is too deep, and what cannot be handed over, is refused before any row
is looked at.

Key definitions: `Store.Database`, `Store.bind`, `Store.rowId`,
`Store.Database.request`, `Store.Database.save`, `Store.Database.saveIfMatch`,
`Store.Database.find`, `Store.Database.delete`, `Store.Database.close`,
`Store.Database.reopen`.
-/

namespace LoanDesk
namespace Store

/-- The value that a database gets for one handed over. -/
def bind : Value → Except Fault Extract
  | .null => .ok .null
  | .bool b => .ok (.integer (if b then 1 else 0))
  | .int i => if fitsWord i then .ok (.integer i) else .error .outOfRange
  | .float .nan => .ok .null
  | .float x => .ok (.real x)
  | .text s => .ok (.text s)
  | .torn _ => .error .notEncodable
  | .moment t => .ok (.text t.spaced)
  | _ => .error .binding

/-- The digits of the fifteen that a real number is kept with as a text, and the power of ten of
the first. -/
def realDigits (d : Decimal) : List Char × Int :=
  let c :=
    if d.digits ≤ 15 then d.coefficient else dropHalfEven d.coefficient (d.digits - 15)
  (Binary64.significant c, d.adjusted + if 15 < digitCount c then 1 else 0)

/-- A real number as a text. -/
def realText : Binary64 → String
  | .finite negative m e =>
    let (ds, place) := realDigits (Binary64.exactFinite negative m e)
    if m = 0 then "0.0"
    else
      String.ofList <| Decimal.signChars negative ++
        (if -4 ≤ place ∧ place < 15 then Binary64.positional ds (place + 1)
         else Binary64.scientific (if ds.length = 1 then ds ++ ['0'] else ds) place)
  | .infinity negative => if negative then "-Inf" else "Inf"
  | .nan => ""

/-- The id of a row for a value handed over. -/
def rowId (v : Value) : Except Fault (Option String) := do
  match ← bind v with
  | .null => return none
  | .integer i => return some (Value.intText i)
  | .real x => return some (realText x)
  | .text s => return some s
  | .torn _ => throw .notEncodable

/-- Row ids are the same if their texts are; a row without an id is like no other. -/
instance : Alike (Option String) where
  alike
    | some a, some b => a == b
    | _, _ => false

/-- One condition of a filter: a path, and the value that it must lead to. -/
structure Condition where
  key : String
  wanted : Option Extract
deriving DecidableEq, Repr

/-- The conditions of a filter (`SQLiteStorage._where`). Null is not handed over but asked for. -/
def conditions : Fields → Except Fault (List Condition)
  | [] => .ok []
  | (key, .null) :: rest => do return ⟨key, none⟩ :: (← conditions rest)
  | (key, v) :: rest => do
    let wanted ← bind v
    return ⟨key, some wanted⟩ :: (← conditions rest)

/-- Two extracts are equal: numbers by amount, texts with texts, and null with nothing. -/
def Extract.equals : Extract → Extract → Bool
  | .integer i, .integer j => i == j
  | .integer i, .real y => Value.sameAmount (.int i) (.float y)
  | .real x, .integer j => Value.sameAmount (.float x) (.int j)
  | .real x, .real y => Value.sameAmount (.float x) (.float y)
  | .text s, .text t => s == t
  | _, _ => false

/-- A document meets a condition. -/
def Condition.holds (c : Condition) (document : Value) : Except Fault Bool := do
  let found ← extract document c.key
  match c.wanted with
  | none => return found == .null
  | some wanted => return found.equals wanted

/-- A document meets all conditions; the first that fails settles it. -/
def allHold (document : Value) : List Condition → Except Fault Bool
  | [] => .ok true
  | c :: rest => do
    if ← c.holds document then allHold document rest else return false

/-- The most conditions that a statement may join, beside the one on an id if there is one. -/
def mostConditions (withId : Bool) : Nat :=
  if withId then 997 else 998

/-- The filter makes a statement that is not too deep. -/
def checkDepth (wanted : Fields) (withId : Bool) : Except Fault Unit :=
  if wanted.length ≤ mostConditions withId then .ok () else .error .statement

/-- Texts of documents by table and id, while the connection is open (`SQLiteStorage`). A database
in a file outlives its connection. -/
structure Database where
  catalog : Catalog := {}
  tables : Tables String (Option String) String := []
  inFile : Bool
  isOpen : Bool := true
deriving DecidableEq, Repr

namespace Database

/-- The text of a document. -/
def write (v : Value) : String :=
  Json.print .wide v

/-- The document of a text. -/
def read (s : String) : Value :=
  (Json.parse? s).getD .null

/-- The table that a value names. -/
def nameOf (name : Value) : Except Fault String :=
  match name with
  | .list _ | .record _ | .decimal (.nan _ true _) => .error .wrongKind
  | v => tableName v.shown

/-- Asks for a table: its name, if it can be used, and what has been made on the way. -/
def request (d : Database) (name : Value) : Except Fault String × Database :=
  match nameOf name with
  | .error .wrongKind => (.error .wrongKind, d)
  | r =>
    if !d.isOpen then (.error .missingPart, d)
    else
      match r with
      | .error f => (.error f, d)
      | .ok table =>
        ((d.catalog.request table).1.map fun _ => table,
          { d with catalog := (d.catalog.request table).2 })

/-- A table and its rows, and the database that has it. -/
def table (d : Database) (name : Value) :
    Except Fault (String × Table (Option String) String × Database) := do
  let table ← (d.request name).1
  return (table, d.tables.get table, (d.request name).2)

/-- The database with the rows of a table. -/
def withRows (d : Database) (table : String) (rows : Table (Option String) String) : Database :=
  { d with tables := d.tables.set table rows }

/-- The database with a document under an id. -/
def save (d : Database) (name id data : Value) : Except Fault Database := do
  let (table, rows, d) ← d.table name
  if !data.isWritable then throw .noMeaning
  return d.withRows table (rows.put (← rowId id) (write data))

/-- Replaces a document that meets a filter; says whether it did (`SQLiteStorage.save_if_match`). -/
def saveIfMatch (d : Database) (name id data : Value) (wanted : Fields) :
    Except Fault (Bool × Database) := do
  let (table, rows, d) ← d.table name
  if !data.isWritable then throw .noMeaning
  checkDepth wanted true
  let id ← rowId id
  let cs ← conditions wanted
  match rows.get? id with
  | none => return (false, d)
  | some current =>
    if ← allHold (read current) cs then
      return (true, d.withRows table (rows.put id (write data)))
    else return (false, d)

/-- A document. -/
def load (d : Database) (name id : Value) : Except Fault (Option Value) := do
  let (_, rows, _) ← d.table name
  match rows.get? (← rowId id) with
  | none => return none
  | some s =>
    match read s with
    | .null => return none
    | v => return some v

/-- All documents of a table. -/
def loadAll (d : Database) (name : Value) : Except Fault (List Value) := do
  let (_, rows, _) ← d.table name
  return rows.entries.map read

/-- The documents of a table that meet a filter, `chosen` in order. -/
def find (d : Database) (name : Value) (wanted : Fields) : Except Fault (List Value) := do
  let (_, rows, _) ← d.table name
  checkDepth wanted false
  let cs ← conditions wanted
  chosen (fun v => allHold v cs) (rows.entries.map read)

/-- Removes a row; says whether there was one. -/
def delete (d : Database) (name id : Value) : Except Fault (Bool × Database) := do
  let (table, rows, d) ← d.table name
  let id ← rowId id
  return (rows.has id, d.withRows table (rows.erase id))

/-- An id has a row. -/
def has (d : Database) (name id : Value) : Except Fault Bool := do
  let (_, rows, _) ← d.table name
  return rows.has (← rowId id)

/-- The number of rows of a table. -/
def count (d : Database) (name : Value) : Except Fault Nat := do
  let (_, rows, _) ← d.table name
  return rows.length

/-- The database with its connection closed. -/
def close (d : Database) : Database :=
  { d with isOpen := false }

/-- The database with a new connection. -/
def reopen (d : Database) : Database :=
  if d.inFile then { d with isOpen := true } else { inFile := false }

end Database
end Store
end LoanDesk
