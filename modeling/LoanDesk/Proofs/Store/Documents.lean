import LoanDesk.Proofs.Json.RoundTrip
import LoanDesk.Proofs.Store.Table
import LoanDesk.Store.Basic

/-
# Stores as tables of documents

A desk keeps its records in two tables, under texts. In memory and in a database such a
table is the same thing: documents by text. Each operation of a store is stated here once
for both, as what it does to those tables; a filter and what it finds come after this.

Key definitions: `Store.Shelf`, `Store.Shelves`, `Storage.rows`, `Storage.Shows`,
`Storage.IsReady`, `Storage.kind`.
Key theorems: `Storage.Shows.load`, `Storage.Shows.save`, `Storage.Shows.delete`,
`Storage.Shows.reopen`.
-/

namespace LoanDesk
namespace Store

/-- The tables that a desk uses. -/
inductive Shelf where
  | users
  | loans
deriving DecidableEq, Repr

/-- The name of a table. -/
def Shelf.name : Shelf → String
  | users => "users"
  | loans => "loans"

/-- The documents of a desk, by table and id. -/
abbrev Shelves := Shelf → Table String Fields

/-- The value that hands over an id of a row. -/
def idValue (id : Option String) : Value :=
  id.elim .null .text

theorem idValue_eq_text {id : Option String} {s : String} (h : idValue id = .text s) :
    id = some s := by
  cases id with
  | none => cases h
  | some r =>
    cases h
    rfl

theorem shelf_name_inj {t u : Shelf} (h : t.name = u.name) : t = u := by
  cases t <;> cases u <;> first | rfl | exact absurd h (by decide)

theorem alike_name (t u : Shelf) : Alike.alike t.name u.name = true ↔ t = u := by
  rw [isExact_string]
  exact ⟨shelf_name_inj, fun e => e ▸ rfl⟩

/-! ### Asking a database for a table -/

/-- The catalog knows no other tables and indexes than those of a desk. -/
structure Catalog.IsPlain (c : Catalog) : Prop where
  tables : ∀ n ∈ c.tables, ∃ t : Shelf, n = t.name
  indexes : ∀ n ∈ c.indexes, ∃ t : Shelf, n = indexName t.name

/-- The table and its index have been made. -/
def Catalog.Has (c : Catalog) (t : Shelf) : Prop :=
  t.name ∈ c.tables ∧ indexName t.name ∈ c.indexes

namespace Catalog

variable {c : Catalog} {t u : Shelf}

theorem name_ne_indexName (t u : Shelf) : t.name ≠ indexName u.name := by
  cases t <;> cases u <;> decide

theorem mem_listing {names : List String} {n m : String} :
    m ∈ listing names n ↔ m ∈ names ∨ m = n := by
  unfold listing
  by_cases h : names.contains n = true
  · rw [if_pos h]
    refine ⟨.inl, ?_⟩
    rintro (hm | rfl)
    · exact hm
    · exact List.contains_iff_mem.mp h
  · rw [if_neg h]
    simp

theorem listing_of_mem {names : List String} {n : String} (h : n ∈ names) :
    listing names n = names :=
  if_pos (List.contains_iff_mem.mpr h)

theorem IsPlain.withTable (h : c.IsPlain) (t : Shelf) : (c.withTable t.name).IsPlain := by
  refine ⟨fun n hn => ?_, h.indexes⟩
  rcases mem_listing.mp hn with hn | rfl
  · exact h.tables n hn
  · exact ⟨t, rfl⟩

/-- A table of a desk can always be had, and is there from then on. -/
theorem IsPlain.request (h : c.IsPlain) (t : Shelf) :
    ∃ c', c.request t.name = (.ok (), c') ∧ c'.IsPlain ∧ c'.Has t ∧
      (∀ u, c.Has u → c'.Has u) := by
  have hflaw : c.tableFlaw? t.name = none := by
    unfold tableFlaw?
    split
    · rfl
    · rw [if_neg, if_neg]
      · cases t <;> decide
      · rw [List.contains_iff_mem]
        intro hm
        obtain ⟨u, hu⟩ := h.indexes _ hm
        exact name_ne_indexName t u hu
  have hclash : ¬ (c.withTable t.name).tables.contains (indexName t.name) = true := by
    rw [List.contains_iff_mem]
    intro hm
    obtain ⟨u, hu⟩ := (h.withTable t).tables _ hm
    exact name_ne_indexName u t hu.symm
  refine ⟨(c.withTable t.name).withIndex (indexName t.name), ?_, ?_, ?_, ?_⟩
  · unfold Catalog.request
    rw [hflaw]
    exact if_neg hclash
  · refine ⟨(h.withTable t).tables, fun n hn => ?_⟩
    rcases mem_listing.mp hn with hn | rfl
    · exact h.indexes n hn
    · exact ⟨t, rfl⟩
  · exact ⟨mem_listing.mpr (.inr rfl), mem_listing.mpr (.inr rfl)⟩
  · rintro u ⟨hu, hu'⟩
    exact ⟨mem_listing.mpr (.inl hu), mem_listing.mpr (.inl hu')⟩

theorem Has.request (h : c.Has t) (hp : c.IsPlain) : c.request t.name = (.ok (), c) := by
  have ht : c.withTable t.name = c := by
    unfold withTable
    rw [listing_of_mem h.1]
  have hi : c.withIndex (indexName t.name) = c := by
    unfold withIndex
    rw [listing_of_mem h.2]
  have hflaw : c.tableFlaw? t.name = none := by
    unfold tableFlaw?
    rw [if_pos (List.contains_iff_mem.mpr h.1)]
  have hclash : ¬ c.tables.contains (indexName t.name) = true := by
    rw [List.contains_iff_mem]
    intro hm
    obtain ⟨u, hu⟩ := hp.tables _ hm
    exact name_ne_indexName u t hu.symm
  unfold Catalog.request
  rw [hflaw]
  simp only [ht]
  rw [if_neg hclash, hi]

end Catalog

/-- The database is open and can be asked for the tables of a desk. -/
structure Database.IsPlain (d : Database) : Prop where
  isOpen : d.isOpen = true
  catalog : d.catalog.IsPlain

namespace Database

theorem nameOf_shelf (t : Shelf) : nameOf (.text t.name) = .ok t.name := by
  cases t <;> rfl

/-- A table of a desk can be had by `Database.table`; nothing but the catalog changes, which has it
then. -/
theorem IsPlain.table {d : Database} (h : d.IsPlain) (t : Shelf) :
    ∃ c, d.table (.text t.name) = .ok (t.name, d.tables.get t.name, { d with catalog := c }) ∧
      (d.request (.text t.name)).2 = { d with catalog := c } ∧ c.IsPlain ∧ c.Has t ∧
      (∀ u, d.catalog.Has u → c.Has u) ∧ (d.catalog.Has t → c = d.catalog) := by
  obtain ⟨c, hc, hplain, hhas, hkeep⟩ := h.catalog.request t
  have hr : d.request (.text t.name) = (.ok t.name, { d with catalog := c }) := by
    unfold Database.request
    rw [nameOf_shelf]
    simp only [h.isOpen, Bool.not_true, Bool.false_eq_true, if_false, hc]
    rfl
  refine ⟨c, ?_, by rw [hr], hplain, hhas, hkeep, ?_⟩
  · unfold Database.table
    rw [hr]
    rfl
  · intro ht
    have hsame := hc.symm.trans (ht.request h.catalog)
    exact (Prod.mk.inj hsame).2

/-- What `read` makes of a document that was written by `write` is what a document keeps. -/
theorem read_write {v : Value} (h : Json.Printable v) : read (write v) = v.stored := by
  unfold read write
  rw [Json.parse_print Json.isStyle_wide h]
  rfl

end Database
end Store

namespace Storage

open Store

/-- All that a table holds: ids with their documents, in order. -/
def rows (s : Storage) (table : String) : Table Value Value :=
  match s with
  | memory m => m.tables.get (.text table)
  | database d => (d.tables.get table).read idValue Database.read

/-- The store works, and what its tables hold are these documents, each under its own text. -/
structure Shows (s : Storage) (ts : Shelves) : Prop where
  rows : ∀ t, s.rows t.name = (ts t).read .text .record
  distinct : ∀ t, (ts t).ids.Nodup
  isPlain : ∀ d, s = database d → d.IsPlain

/-- The store has the table already, so to ask for it changes nothing. -/
def IsReady (s : Storage) (t : Shelf) : Prop :=
  ∀ d, s = database d → d.catalog.Has t

/-- The place where a store is. -/
def kind : Storage → Kind
  | memory _ => .memory
  | database d => .database d.inFile

/-- A store that came of another after a table was asked for: it has that table and all that the
other had, in the same place. -/
structure Follows (s' s : Storage) (t : Shelf) : Prop where
  ready : s'.IsReady t
  keeps : ∀ u, s.IsReady u → s'.IsReady u
  kind : s'.kind = s.kind

theorem follows_memory (m' m : Memory) (t : Shelf) : (memory m').Follows (memory m) t := by
  refine ⟨?_, ?_, rfl⟩
  · rintro d ⟨⟩
  · rintro u - d ⟨⟩

theorem follows_database (d : Database) {d' : Database} {c : Catalog} {t : Shelf}
    (hc : d'.catalog = c) (hf : d'.inFile = d.inFile) (hhas : c.Has t)
    (hkeep : ∀ u, d.catalog.Has u → c.Has u) : (database d').Follows (database d) t := by
  subst hc
  refine ⟨?_, ?_, congrArg Kind.database hf⟩
  · rintro _ ⟨⟩
    exact hhas
  · rintro u hu _ ⟨⟩
    exact hkeep u (hu d rfl)

variable {s : Storage} {ts : Shelves} {t : Shelf} {id : String}

theorem Shows.get?_rows (h : s.Shows ts) (t : Shelf) (id : String) :
    (s.rows t.name).get? (.text id) = ((ts t).get? id).map .record := by
  rw [h.rows t]
  exact Table.get?_read (isExact_string id) (isExact_text id) fun i e => Value.text.inj e

/-- A store begins without documents. -/
theorem shows_ofKind (kind : Kind) : (ofKind kind).Shows fun _ => [] := by
  refine ⟨fun t => ?_, fun t => List.nodup_nil, ?_⟩
  · cases kind <;> rfl
  · intro d hd
    cases kind with
    | memory => cases hd
    | database inFile =>
      obtain rfl := Storage.database.inj hd
      exact ⟨rfl, ⟨by simp, by simp⟩⟩

/-! ### One table replaced -/

theorem Shows.replace_memory {m : Memory} (h : (memory m).Shows ts) {docs : Table String Fields}
    (hd : docs.ids.Nodup) :
    (memory ⟨m.tables.set (.text t.name) (docs.read .text .record)⟩).Shows
      (Function.update ts t docs) := by
  refine ⟨fun u => ?_, fun u => ?_, fun d hd => by cases hd⟩
  · have hu := Tables.get_set m.tables (docs.read Value.text Value.record)
      (isExact_text t.name) (isExact_text u.name)
    by_cases he : t = u
    · subst he
      rw [Function.update_self]
      exact hu.trans (if_pos ((isExact_text t.name _).mpr rfl))
    · rw [Function.update_of_ne fun e => he e.symm]
      refine (hu.trans (if_neg fun c => ?_)).trans (h.rows u)
      exact he (shelf_name_inj (Value.text.inj ((isExact_text u.name _).mp c)))
  · by_cases he : u = t
    · subst he
      rw [Function.update_self]
      exact hd
    · rw [Function.update_of_ne he]
      exact h.distinct u

theorem Shows.replace_database {d : Database} (h : (database d).Shows ts) {c : Catalog}
    (hc : c.IsPlain) {rows : Table (Option String) String} {docs : Table String Fields}
    (hr : rows.read idValue Database.read = docs.read .text .record) (hd : docs.ids.Nodup) :
    (database (({ d with catalog := c } : Database).withRows t.name rows)).Shows
      (Function.update ts t docs) := by
  have hplain := h.isPlain d rfl
  refine ⟨fun u => ?_, fun u => ?_, fun d' hd' => ?_⟩
  · have hu := Tables.get_set d.tables rows
      (isExact_string t.name) (isExact_string u.name)
    by_cases he : t = u
    · subst he
      rw [if_pos ((alike_name t t).mpr rfl)] at hu
      rw [Function.update_self, ← hr]
      exact congrArg (Table.read idValue Database.read) hu
    · rw [if_neg fun c => he ((alike_name t u).mp c)] at hu
      rw [Function.update_of_ne fun e => he e.symm, ← h.rows u]
      exact congrArg (Table.read idValue Database.read) hu
  · by_cases he : u = t
    · subst he
      rw [Function.update_self]
      exact hd
    · rw [Function.update_of_ne he]
      exact h.distinct u
  · obtain rfl := Storage.database.inj hd'
    exact ⟨hplain.isOpen, hc⟩

/-! ### The operations -/

/-- The rows of a database by their ids, read. -/
theorem get?_database (d : Database) (t : Shelf) (id : String) :
    ((database d).rows t.name).get? (.text id) =
      ((d.tables.get t.name).get? (some id)).map Database.read :=
  Table.get?_read (isExact_some id) (isExact_text id) fun _ e => idValue_eq_text e

theorem Shows.load (h : s.Shows ts) (t : Shelf) (id : String) :
    s.load (.text t.name) (.text id) = .ok (((ts t).get? id).map .record) := by
  have hg := h.get?_rows t id
  cases s with
  | memory m =>
    have htable : m.table (.text t.name) = .ok ((memory m).rows t.name) := rfl
    have hkey : (Value.text id).asKey = .ok (.text id) := rfl
    change m.load (.text t.name) (.text id) = _
    unfold Memory.load
    simp only [htable, hkey, hg, Bind.bind, Except.bind]
    cases (ts t).get? id <;> rfl
  | database d =>
    obtain ⟨c, htable, -⟩ := (h.isPlain d rfl).table t
    rw [get?_database] at hg
    have hid : rowId (.text id) = .ok (some id) := rfl
    change d.load (.text t.name) (.text id) = _
    unfold Database.load
    simp only [htable, hid, Bind.bind, Except.bind]
    cases hr : (d.tables.get t.name).get? (some id) with
    | none =>
      rw [hr, Option.map_none] at hg
      rw [Option.map_eq_none_iff.mp hg.symm]
      rfl
    | some text =>
      rw [hr, Option.map_some] at hg
      rw [← hg]
      obtain ⟨fs, -, hfs⟩ := Option.map_eq_some_iff.mp hg.symm
      simp only [← hfs]
      rfl

theorem mem_entries_of_get? {κ α : Type} [Alike κ] {t : Table κ α} {id : κ} {a : α}
    (h : t.get? id = some a) : a ∈ t.entries := by
  obtain ⟨p, hp, rfl⟩ := Option.map_eq_some_iff.mp h
  exact List.mem_map_of_mem (List.mem_of_find?_eq_some hp)

/-- Whatever is handed over for an id, what is loaded is a document of the table. -/
theorem Shows.mem_of_load (h : s.Shows ts) (t : Shelf) {id v : Value}
    (hl : s.load (.text t.name) id = .ok (some v)) : ∃ p ∈ ts t, v = .record p.2 := by
  have hentries : v ∈ (s.rows t.name).entries → ∃ p ∈ ts t, v = .record p.2 := by
    rw [h.rows t, Table.entries_read]
    intro hv
    obtain ⟨fs, hfs, rfl⟩ := List.mem_map.mp hv
    obtain ⟨p, hp, rfl⟩ := List.mem_map.mp hfs
    exact ⟨p, hp, rfl⟩
  refine hentries ?_
  cases s with
  | memory m =>
    obtain ⟨rows, hrows, hl⟩ := bind_eq_ok hl
    obtain rfl := Except.ok.inj hrows
    obtain ⟨key, -, hl⟩ := bind_eq_ok hl
    split at hl
    · cases hl
    · exact mem_entries_of_get? (Except.ok.inj hl)
  | database d =>
    obtain ⟨c, htable, -⟩ := (h.isPlain d rfl).table t
    obtain ⟨_, ht, hl⟩ := bind_eq_ok hl
    obtain rfl := Except.ok.inj (htable.symm.trans ht)
    obtain ⟨key, -, hl⟩ := bind_eq_ok hl
    have hread : ((database d).rows t.name).entries =
        (d.tables.get t.name).entries.map Database.read := Table.entries_read ..
    rw [hread]
    split at hl
    · cases hl
    · next text hget =>
      have hmem := List.mem_map_of_mem (f := Database.read) (mem_entries_of_get? hget)
      split at hl
      · cases hl
      · rw [← Option.some.inj (Except.ok.inj hl)]
        exact hmem

theorem Shows.has (h : s.Shows ts) (t : Shelf) (id : String) :
    s.has (.text t.name) (.text id) = .ok ((ts t).has id) := by
  have hg := h.get?_rows t id
  rw [Table.has_eq, ← Option.isSome_map (f := Value.record), ← hg]
  cases s with
  | memory m => rfl
  | database d =>
    obtain ⟨c, htable, -⟩ := (h.isPlain d rfl).table t
    rw [get?_database, Option.isSome_map]
    change d.has (.text t.name) (.text id) = _
    unfold Database.has
    rw [htable]
    rfl

/-- A record that can be printed is `put` in its table as documents keep it. -/
theorem Shows.save (h : s.Shows ts) (t : Shelf) (id : String) {fs : Fields}
    (hfs : Json.Printable (.record fs)) (hw : (Value.record fs).isWritable = true) :
    ∃ s', s.save (.text t.name) (.text id) (.record fs) = .ok s' ∧
      s'.Shows (Function.update ts t ((ts t).put id (Value.storedFields fs))) ∧
      s'.Follows s t := by
  have hd := Table.nodup_put (a := Value.storedFields fs) (isExact_string id) (h.distinct t)
  cases s with
  | memory m =>
    have hput := Table.put_read Value.record (ts t) (Value.storedFields fs)
      (isExact_string id) (isExact_text id) fun _ e => Value.text.inj e
    refine ⟨_, ?_, h.replace_memory hd, follows_memory _ _ t⟩
    · rw [← hput, ← h.rows t]
      change (m.save (.text t.name) (.text id) (.record fs)).map memory = _
      unfold Memory.save
      rw [hw]
      rfl
  | database d =>
    obtain ⟨c, htable, -, hplain, hhas, hkeep, -⟩ := (h.isPlain d rfl).table t
    have hput := Table.put_read Value.record (ts t) (Value.storedFields fs)
      (isExact_string id) (isExact_text id) fun _ e => Value.text.inj e
    have hrow := Table.put_read Database.read (d.tables.get t.name)
      (Database.write (.record fs)) (isExact_some id) (isExact_text id) fun _ e => idValue_eq_text e
    have hr : ((d.tables.get t.name).put (some id) (Database.write (.record fs))).read idValue
        Database.read = ((ts t).put id (Value.storedFields fs)).read .text .record := by
      rw [← hrow, ← hput, Database.read_write hfs]
      exact congrArg (fun rows => Table.put rows _ _) (h.rows t)
    refine ⟨_, ?_, h.replace_database hplain hr hd, follows_database d rfl rfl hhas hkeep⟩
    · change (d.save (.text t.name) (.text id) (.record fs)).map database = _
      unfold Database.save
      rw [htable, hw]
      rfl

/-- A record with an integer that cannot be written is not saved, as `isWritable` tells. -/
theorem Shows.save_unwritable (h : s.Shows ts) (t : Shelf) (id : String) {fs : Fields}
    (hw : (Value.record fs).isWritable = false) :
    s.save (.text t.name) (.text id) (.record fs) = .error .noMeaning := by
  cases s with
  | memory m =>
    change (m.save (.text t.name) (.text id) (.record fs)).map memory = _
    unfold Memory.save
    rw [hw]
    rfl
  | database d =>
    obtain ⟨c, htable, -⟩ := (h.isPlain d rfl).table t
    change (d.save (.text t.name) (.text id) (.record fs)).map database = _
    unfold Database.save
    rw [htable, hw]
    rfl

theorem Shows.count (h : s.Shows ts) (t : Shelf) :
    s.count (.text t.name) = .ok (ts t).length := by
  have hlength : (ts t).length = (s.rows t.name).length := by
    rw [h.rows t]
    exact (List.length_map _).symm
  rw [hlength]
  cases s with
  | memory m => rfl
  | database d =>
    obtain ⟨c, htable, -⟩ := (h.isPlain d rfl).table t
    have hread : ((database d).rows t.name).length = (d.tables.get t.name).length :=
      List.length_map _
    rw [hread]
    change d.count (.text t.name) = _
    unfold Database.count
    rw [htable]
    rfl

/-- A database in a file that is closed and opened again by `reopen` is as it was. -/
theorem Shows.reopen (h : s.Shows ts) (hk : s.kind = .database true) : s.close.reopen = s := by
  cases s with
  | memory m => cases hk
  | database d =>
    have hfile : d.inFile = true := Kind.database.inj hk
    have hopen : d.isOpen = true := (h.isPlain d rfl).isOpen
    obtain ⟨catalog, tables, inFile, isOpen⟩ := d
    obtain rfl := hfile
    obtain rfl := hopen
    rfl

theorem Shows.delete (h : s.Shows ts) (t : Shelf) (id : String) :
    ∃ s', s.delete (.text t.name) (.text id) = .ok ((ts t).has id, s') ∧
      s'.Shows (Function.update ts t ((ts t).erase id)) ∧
      s'.Follows s t := by
  have hd := Table.nodup_erase id (h.distinct t)
  have herase := Table.erase_read Value.record (ts t) (isExact_string id)
    (isExact_text id) fun _ e => Value.text.inj e
  cases s with
  | memory m =>
    refine ⟨_, ?_, h.replace_memory hd, follows_memory _ _ t⟩
    · have hl := h.load t id
      rw [← herase, ← h.rows t, Table.has_eq, ← Option.isSome_map (f := Value.record)]
      change (m.delete (.text t.name) (.text id)).map _ = _
      have hm : m.load (.text t.name) (.text id) = _ := hl
      unfold Memory.delete
      rw [hm]
      rfl
  | database d =>
    obtain ⟨c, htable, -, hplain, hhas, hkeep, -⟩ := (h.isPlain d rfl).table t
    have hrow := Table.erase_read Database.read (d.tables.get t.name)
      (isExact_some id) (isExact_text id) fun _ e => idValue_eq_text e
    have hr : ((d.tables.get t.name).erase (some id)).read idValue Database.read =
        ((ts t).erase id).read .text .record := by
      rw [← hrow, ← herase]
      exact congrArg (fun rows => Table.erase rows _) (h.rows t)
    refine ⟨_, ?_, h.replace_database hplain hr hd, follows_database d rfl rfl hhas hkeep⟩
    · have hh := h.has t id
      have hh' : (database d).has (.text t.name) (.text id) =
          .ok ((d.tables.get t.name).has (some id)) := by
        change d.has (.text t.name) (.text id) = _
        unfold Database.has
        rw [htable]
        rfl
      rw [← Except.ok.inj (hh'.symm.trans hh)]
      change (d.delete (.text t.name) (.text id)).map _ = _
      unfold Database.delete
      rw [htable]
      rfl

end Storage
end LoanDesk
