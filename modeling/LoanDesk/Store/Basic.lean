import LoanDesk.Store.Database
import LoanDesk.Store.Memory

/-
# Stores

A store keeps records under ids in tables, in memory or in a database. Both answer
alike on texts for ids, plain records and filters.

Key definitions: `Storage`, `Storage.Kind`, `Storage.ofKind`, and the operations
`asked`, `save`, `saveIfMatch`, `load`, `loadAll`, `find`, `delete`, `has`, `count`,
`close` and `reopen`.
-/

namespace LoanDesk

/-- A store of records (`StorageInterface`). -/
inductive Storage where
  | memory (m : Store.Memory)
  | database (d : Store.Database)
deriving Repr

namespace Storage

/-- The places where a store can be. -/
inductive Kind where
  | memory
  | database (inFile : Bool)
deriving DecidableEq, Repr

/-- An empty store. -/
def ofKind : Kind → Storage
  | .memory => .memory {}
  | .database inFile => .database { inFile := inFile }

instance : Inhabited Storage := ⟨ofKind .memory⟩

/-- The directories in which databases can be opened. -/
def directories : List String :=
  ["", "./", "../", "/", "/tmp/", "/var/", "/var/tmp/", "/home/", "/usr/", "/opt/", "/root/"]

/-- A database can be opened at a place: in memory, for a while where no place is named, or in a
file of a directory that is there. -/
def isReachable (place : String) : Bool :=
  let name := (place.toList.reverse.takeWhile (· != '/')).reverse
  let directory := place.toList.take (place.length - name.length)
  place == "" ||
    (directories.contains (String.ofList directory) && !name.isEmpty &&
      !directories.contains (place ++ "/"))

/-- The place of a database can be used. -/
def checkPlace (place : Value) : Except Fault Unit :=
  match place with
  | .torn _ => .error .notEncodable
  | v =>
    if v.shown.toList.any fun c => c.toNat == 0 then .error .noMeaning
    else if isReachable v.shown then .ok ()
    else .error .statement

/-- The kind of store that goes by a name, which can be opened at a place, as `create_storage`
chooses it. -/
def Kind.ofName (name place : Value) : Except Fault Kind :=
  match name with
  | .text "memory" => .ok .memory
  | .text "sqlite" => (checkPlace place).map fun _ => .database false
  | v => .error (.unknownStore v.shown)

/-- The store once a table has been asked for, whatever came of it: a database makes a table at
its first use. -/
def asked (s : Storage) (table : Value) : Storage :=
  match s with
  | memory m => memory m
  | database d => database (d.request table).2

/-- The store with a record under an id (`StorageInterface.save`). -/
def save (s : Storage) (table id data : Value) : Except Fault Storage :=
  match s with
  | memory m => (m.save table id data).map memory
  | database d => (d.save table id data).map database

/-- Replaces a record that has every wanted value; says whether it did
(`StorageInterface.save_if_match`). The look and the write are one step. -/
def saveIfMatch (s : Storage) (table id data : Value) (wanted : Fields) :
    Except Fault (Bool × Storage) :=
  match s with
  | memory m => (m.saveIfMatch table id data wanted).map fun r => (r.1, memory r.2)
  | database d => (d.saveIfMatch table id data wanted).map fun r => (r.1, database r.2)

/-- The record of an id (`StorageInterface.load`). -/
def load (s : Storage) (table id : Value) : Except Fault (Option Value) :=
  match s with
  | memory m => m.load table id
  | database d => d.load table id

/-- All records of a table, in the order in which their ids first came
(`StorageInterface.load_all`). -/
def loadAll (s : Storage) (table : Value) : Except Fault (List Value) :=
  match s with
  | memory m => m.loadAll table
  | database d => d.loadAll table

/-- The records of a table that have every wanted value, in order (`StorageInterface.find`). -/
def find (s : Storage) (table : Value) (wanted : Fields) : Except Fault (List Value) :=
  match s with
  | memory m => m.find table wanted
  | database d => d.find table wanted

/-- Removes a record; says whether there was one (`StorageInterface.delete`). -/
def delete (s : Storage) (table id : Value) : Except Fault (Bool × Storage) :=
  match s with
  | memory m => (m.delete table id).map fun r => (r.1, memory r.2)
  | database d => (d.delete table id).map fun r => (r.1, database r.2)

/-- An id has a record (`StorageInterface.exists`). -/
def has (s : Storage) (table id : Value) : Except Fault Bool :=
  match s with
  | memory m => m.has table id
  | database d => d.has table id

/-- The number of records of a table (`StorageInterface.count`). -/
def count (s : Storage) (table : Value) : Except Fault Nat :=
  match s with
  | memory m => m.count table
  | database d => d.count table

/-- The store after its resources are given back (`StorageInterface.close`). -/
def close (s : Storage) : Storage :=
  match s with
  | memory m => memory m
  | database d => database d.close

/-- The store opened anew; only what is in a file is still there. -/
def reopen (s : Storage) : Storage :=
  match s with
  | memory _ => ofKind .memory
  | database d => database d.reopen

end Storage
end LoanDesk
