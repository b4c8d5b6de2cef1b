/-
# Tables

A table keeps one entry for each id, in the order in which the ids first came. An
entry that is replaced keeps its place; one that is removed and put again moves to
the end. Which ids are the same is settled by the kind of id: an id that is not even
the same as itself finds nothing and is put anew each time.

Key definitions: `Store.Alike`, `Store.Table`, `Store.Table.get?`, `Store.Table.put`,
`Store.Table.erase`, `Store.Tables`, `Store.chosen`.
-/

namespace LoanDesk
namespace Store

/-- Ids of a kind can be told to be the same. -/
class Alike (κ : Type) where
  /-- The ids are the same. -/
  alike : κ → κ → Bool

instance : Alike String := ⟨fun a b => a == b⟩

/-- Entries by id, in the order of their first coming. -/
abbrev Table (κ α : Type) := List (κ × α)

namespace Table

variable {κ α : Type} [Alike κ]

/-- The entry of an id. -/
def get? (t : Table κ α) (id : κ) : Option α :=
  (t.find? fun p => Alike.alike p.1 id).map (·.2)

/-- An id has an entry. -/
def has (t : Table κ α) (id : κ) : Bool :=
  (get? t id).isSome

/-- The table with an entry under an id, in its place or at the end. -/
def put : Table κ α → κ → α → Table κ α
  | [], id, a => [(id, a)]
  | (i, b) :: rest, id, a => if Alike.alike i id then (i, a) :: rest else (i, b) :: put rest id a

/-- The table without an id. -/
def erase (t : Table κ α) (id : κ) : Table κ α :=
  t.filter fun p => !Alike.alike p.1 id

/-- The entries, in order. -/
def entries (t : Table κ α) : List α :=
  t.map (·.2)

/-- The ids, in order. -/
def ids (t : Table κ α) : List κ :=
  t.map (·.1)

end Table

/-- Tables by name; a name that was never used has an empty table. -/
abbrev Tables (ν κ α : Type) := List (ν × Table κ α)

namespace Tables

variable {ν κ α : Type} [Alike ν]

/-- The table of a name. -/
def get (ts : Tables ν κ α) (name : ν) : Table κ α :=
  (Table.get? ts name).getD []

/-- The tables with one of them changed. -/
def set (ts : Tables ν κ α) (name : ν) (t : Table κ α) : Tables ν κ α :=
  Table.put ts name t

end Tables

/-- Those of a list that pass a test. The test may fail, and all are tested. -/
def chosen {ε α : Type} (test : α → Except ε Bool) : List α → Except ε (List α)
  | [] => .ok []
  | a :: rest => do
    let here ← test a
    let others ← chosen test rest
    return if here then a :: others else others

end Store
end LoanDesk
