import LoanDesk.Proofs.Json.Printable
import LoanDesk.Proofs.Store.Filters
import LoanDesk.Proofs.Text.Digits

/-
# One ordered map

For flat records and filters of texts a store in memory and one in a database are the same
thing: for each table a map in the order in which the ids first came. A record under a new
id is added at the end, one under an id that is there takes the old one's place, and one
that is removed is gone; a filter lists what it matches in that order. A database in a file
may be closed and opened again in between. Each call answers as the map does and leaves a
store that shows the map's tables again, so by induction all calls of a run do.

Two limits are not the map's: an integer of more digits than are ever written cannot be
stored, and a database cannot join more than some hundreds of conditions in one statement.

Key definitions: `Store.FlatRecord`, `Store.TextFilter`, `Store.Call`, `Store.Call.ask`,
`Store.Call.apply`, `Store.Call.IsWithin`, `Store.answers`, `Store.expected`.
Key theorems: `Store.Refines.ask`, `Store.answers_eq_expected`.
-/

namespace LoanDesk

open Storage (Kind)

namespace Store

/-! ### Records and filters -/

/-- A record of named values without parts. -/
structure FlatRecord where
  fields : Fields
  distinct : (fields.map (·.1)).Nodup
  flat : ∀ f ∈ fields, IsFlat f.2

/-- The integers of the record have no more digits than are written. -/
def FlatRecord.IsShort (r : FlatRecord) : Prop :=
  ∀ name i, (name, .int i) ∈ r.fields → i.natAbs < 10 ^ Value.integerRoom

/-- A filter that asks for texts under identifiers. -/
structure TextFilter where
  wanted : List (String × String)
  distinct : (wanted.map (·.1)).Nodup
  identifiers : ∀ p ∈ wanted, isIdentifier p.1 = true

/-- A record has every text that the filter asks for. -/
def TextFilter.isMetBy (w : TextFilter) (fs : Fields) : Bool :=
  w.wanted.all fun p => hasText fs p.1 p.2

/-- The filter as it is handed to a store. -/
def TextFilter.fields (w : TextFilter) : Fields :=
  texts w.wanted

namespace FlatRecord

variable {r : FlatRecord}

theorem printable (h : r.IsShort) : Json.Printable (.record r.fields) := by
  refine ⟨r.distinct, Json.printableFields_of_forall fun f hf => ?_⟩
  have hflat := r.flat f hf
  obtain ⟨name, v⟩ := f
  cases v with
  | int i => exact h name i hf
  | text s => trivial
  | bool b => trivial
  | null => trivial
  | _ => exact hflat.elim

/-- A flat record is stored as it is. -/
theorem stored (r : FlatRecord) : Value.storedFields r.fields = r.fields := by
  have key : ∀ fs : List (String × Value), (∀ f ∈ fs, IsFlat f.2) → Value.storedFields fs = fs := by
    intro fs
    induction fs with
    | nil => intro _; rfl
    | cons f rest ih =>
      intro h
      obtain ⟨name, v⟩ := f
      have hv : IsFlat v := h (name, v) List.mem_cons_self
      have hstored : v.stored = v := by
        cases v with
        | text s => rfl
        | int i => rfl
        | bool b => rfl
        | null => rfl
        | _ => exact hv.elim
      rw [Value.storedFields, hstored, ih fun f hf => h f (List.mem_cons_of_mem _ hf)]
  exact key r.fields r.flat

theorem flat_of_get? {name : String} {v : Value} (h : Fields.get? r.fields name = some v) :
    IsFlat v := by
  obtain ⟨f, hf, rfl⟩ := Option.map_eq_some_iff.mp h
  exact r.flat f (List.mem_of_find?_eq_some hf)

end FlatRecord

namespace TextFilter

variable (w : TextFilter)

theorem length_fields : w.fields.length = w.wanted.length := List.length_map _

/-- Every store decides a filter for flat records as the records themselves do. -/
theorem meets (s : Storage) {r : FlatRecord} (h : r.IsShort) :
    s.meets? (.record r.fields) w.fields = .ok (w.isMetBy r.fields) :=
  s.meets_texts w.wanted (fun p hp => isPlainName_of_isIdentifier (w.identifiers p hp))
    (FlatRecord.printable h).isFinite fun _ _ _ hv => FlatRecord.flat_of_get? hv

end TextFilter

/-! ### Calls -/

/-- What a store can be asked; to open it again is to close it first. -/
inductive Call
  | save (t : Shelf) (id : String) (r : FlatRecord)
  | saveIfMatch (t : Shelf) (id : String) (r : FlatRecord) (w : TextFilter)
  | load (t : Shelf) (id : String)
  | loadAll (t : Shelf)
  | find (t : Shelf) (w : TextFilter)
  | delete (t : Shelf) (id : String)
  | has (t : Shelf) (id : String)
  | count (t : Shelf)
  | reopen

/-- What is answered. -/
inductive Answer
  | done
  | said (b : Bool)
  | found (v : Option Value)
  | listed (vs : List Value)
  | counted (n : ℕ)

namespace Call

/-- What a store answers to a call, and the store after it. -/
def ask (s : Storage) : Call → Except Fault (Answer × Storage)
  | save t id r => do
    return (.done, ← s.save (.text t.name) (.text id) (.record r.fields))
  | saveIfMatch t id r w => do
    let (done, s) ← s.saveIfMatch (.text t.name) (.text id) (.record r.fields) w.fields
    return (.said done, s)
  | load t id => do
    return (.found (← s.load (.text t.name) (.text id)), s.asked (.text t.name))
  | loadAll t => do return (.listed (← s.loadAll (.text t.name)), s.asked (.text t.name))
  | find t w => do return (.listed (← s.find (.text t.name) w.fields), s.asked (.text t.name))
  | delete t id => do
    let (removed, s) ← s.delete (.text t.name) (.text id)
    return (.said removed, s)
  | has t id => do
    return (.said (← s.has (.text t.name) (.text id)), s.asked (.text t.name))
  | count t => do return (.counted (← s.count (.text t.name)), s.asked (.text t.name))
  | reopen => return (.done, s.close.reopen)

/-- What ordered maps answer to a call, and the maps after it. -/
def apply (ts : Shelves) : Call → Answer × Shelves
  | save t id r => (.done, Function.update ts t ((ts t).put id r.fields))
  | saveIfMatch t id r w =>
    if ((ts t).get? id).any w.isMetBy then
      (.said true, Function.update ts t ((ts t).put id r.fields))
    else (.said false, ts)
  | load t id => (.found (((ts t).get? id).map .record), ts)
  | loadAll t => (.listed ((ts t).entries.map .record), ts)
  | find t w => (.listed (((ts t).entries.filter w.isMetBy).map .record), ts)
  | delete t id => (.said ((ts t).has id), Function.update ts t ((ts t).erase id))
  | has t id => (.said ((ts t).has id), ts)
  | count t => (.counted (ts t).length, ts)
  | reopen => (.done, ts)

/-- The call keeps to the limits: integers can be written, and conditions can be joined. -/
def IsWithin : Call → Prop
  | save _ _ r => r.IsShort
  | saveIfMatch _ _ r w => r.IsShort ∧ w.wanted.length ≤ 997
  | find _ w => w.wanted.length ≤ 998
  | _ => True

end Call

/-- What a store answers to calls one after the other. -/
def answers : List Call → Storage → Except Fault (List Answer)
  | [], _ => .ok []
  | c :: rest, s => do
    let (a, s) ← c.ask s
    return a :: (← answers rest s)

/-- What ordered maps answer to calls one after the other. -/
def expected : List Call → Shelves → List Answer
  | [], _ => []
  | c :: rest, ts => (c.apply ts).1 :: expected rest (c.apply ts).2

/-! ### One call -/

/-- The store is of a kind and shows these tables, whose documents are flat records. -/
structure Refines (kind : Kind) (s : Storage) (ts : Shelves) : Prop where
  shows : s.Shows ts
  kind : s.kind = kind
  flat : ∀ t, ∀ fs ∈ (ts t).entries, ∃ r : FlatRecord, r.IsShort ∧ r.fields = fs

theorem refines_ofKind (kind : Kind) : Refines kind (.ofKind kind) fun _ => [] :=
  ⟨Storage.shows_ofKind kind, by cases kind <;> rfl, fun _ _ hfs => by cases hfs⟩

namespace Refines

variable {kind : Kind} {s s' : Storage} {ts : Shelves} {t : Shelf} {id : String}

theorem put (h : Refines kind s ts) {r : FlatRecord} (hr : r.IsShort)
    (hs : s'.Shows (Function.update ts t ((ts t).put id r.fields))) (hf : s'.Follows s t) :
    Refines kind s' (Function.update ts t ((ts t).put id r.fields)) := by
  refine ⟨hs, hf.kind.trans h.kind, fun u fs hfs => ?_⟩
  by_cases hu : u = t
  · subst hu
    rw [Function.update_self] at hfs
    obtain ⟨p, hp, rfl⟩ := List.mem_map.mp hfs
    rcases Table.mem_put hp (isExact_string id) with rfl | hp
    · exact ⟨r, hr, rfl⟩
    · exact h.flat u p.2 (List.mem_map_of_mem hp)
  · rw [Function.update_of_ne hu] at hfs
    exact h.flat u fs hfs

theorem erase (h : Refines kind s ts)
    (hs : s'.Shows (Function.update ts t ((ts t).erase id))) (hf : s'.Follows s t) :
    Refines kind s' (Function.update ts t ((ts t).erase id)) := by
  refine ⟨hs, hf.kind.trans h.kind, fun u fs hfs => ?_⟩
  by_cases hu : u = t
  · subst hu
    rw [Function.update_self] at hfs
    obtain ⟨p, hp, rfl⟩ := List.mem_map.mp hfs
    exact h.flat u p.2 (List.mem_map_of_mem (Table.mem_of_mem_erase hp))
  · rw [Function.update_of_ne hu] at hfs
    exact h.flat u fs hfs

theorem left (h : Refines kind s ts) {fs : Fields} (hw : s.Wrote ts t id fs false s') :
    Refines kind s' ts := by
  cases hw with
  | left hshows hfollows => exact ⟨hshows, hfollows.kind.trans h.kind, h.flat⟩

theorem asked (h : Refines kind s ts) (t : Shelf) : Refines kind (s.asked (.text t.name)) ts :=
  h.left (h.shows.asked t "" [])

theorem save (h : Refines kind s ts) (t : Shelf) (id : String) {r : FlatRecord}
    (hr : r.IsShort) : ∃ s', (Call.save t id r).ask s = .ok (.done, s') ∧
      Refines kind s' (Function.update ts t ((ts t).put id r.fields)) := by
  have hprint := FlatRecord.printable hr
  obtain ⟨s', hs, hshows, hfollows⟩ := h.shows.save t id hprint hprint.isWritable
  rw [r.stored] at hshows
  refine ⟨s', ?_, h.put hr hshows hfollows⟩
  simp only [Call.ask, hs]
  rfl

theorem saveIfMatch (h : Refines kind s ts) (t : Shelf) (id : String) {r : FlatRecord}
    {w : TextFilter} (hr : r.IsShort) (hw : w.wanted.length ≤ 997) :
    ∃ s', (Call.saveIfMatch t id r w).ask s = .ok (((Call.saveIfMatch t id r w).apply ts).1, s') ∧
      Refines kind s' ((Call.saveIfMatch t id r w).apply ts).2 := by
  have hprint := FlatRecord.printable hr
  have hdepth : w.fields.length ≤ mostConditions true := w.length_fields ▸ hw
  have hcs : conditions w.fields = _ := conditions_texts w.wanted
  simp only [Call.ask, Call.apply]
  cases hg : (ts t).get? id with
  | none =>
    refine ⟨s.asked (.text t.name), ?_, h.asked t⟩
    rw [h.shows.saveIfMatch_absent hprint.isWritable hdepth hcs hg]
    rfl
  | some fs =>
    obtain ⟨r', hr', rfl⟩ := h.flat t fs (Storage.mem_entries_of_get? hg)
    obtain ⟨s', hs, hwrote⟩ := h.shows.saveIfMatch_present hprint hprint.isWritable hdepth hcs hg
      (w.meets s hr')
    rw [hs, Option.any_some]
    cases hmet : w.isMetBy r'.fields with
    | false =>
      rw [hmet] at hwrote
      exact ⟨s', rfl, h.left hwrote⟩
    | true =>
      rw [hmet] at hwrote
      cases hwrote with
      | put hshows hfollows =>
        rw [r.stored] at hshows
        exact ⟨s', rfl, h.put hr hshows hfollows⟩

/-- A call is answered as the maps answer it, and the store shows them again. -/
theorem ask (h : Refines kind s ts) {c : Call} (hreopen : c = .reopen → kind = .database true)
    (hc : c.IsWithin) :
    ∃ s', c.ask s = .ok ((c.apply ts).1, s') ∧ Refines kind s' (c.apply ts).2 := by
  cases c with
  | save t id r => exact h.save t id hc
  | saveIfMatch t id r w => exact h.saveIfMatch t id hc.1 hc.2
  | load t id =>
    refine ⟨_, ?_, h.asked t⟩
    simp only [Call.ask, h.shows.load t id]
    rfl
  | loadAll t =>
    refine ⟨_, ?_, h.asked t⟩
    simp only [Call.ask, h.shows.loadAll t]
    rfl
  | find t w =>
    have hdepth : w.fields.length ≤ mostConditions false := w.length_fields ▸ hc
    have hfind := h.shows.find_eq t hdepth (conditions_texts w.wanted) (by
      intro fs hfs
      obtain ⟨r, hr, rfl⟩ := h.flat t fs hfs
      exact w.meets s hr)
    refine ⟨_, ?_, h.asked t⟩
    simp only [Call.ask, hfind]
    rfl
  | delete t id =>
    obtain ⟨s', hs, hshows, hfollows⟩ := h.shows.delete t id
    refine ⟨s', ?_, h.erase hshows hfollows⟩
    simp only [Call.ask, hs]
    rfl
  | has t id =>
    refine ⟨_, ?_, h.asked t⟩
    simp only [Call.ask, h.shows.has t id]
    rfl
  | count t =>
    refine ⟨_, ?_, h.asked t⟩
    simp only [Call.ask, h.shows.count t]
    rfl
  | reopen =>
    have hsame := h.shows.reopen (h.kind.trans (hreopen rfl))
    refine ⟨s.close.reopen, rfl, ?_⟩
    rw [hsame]
    exact h

/-- So are all calls of a run. -/
theorem answers (h : Refines kind s ts) {calls : List Call}
    (hreopen : .reopen ∈ calls → kind = .database true) (hwithin : ∀ c ∈ calls, c.IsWithin) :
    answers calls s = .ok (expected calls ts) := by
  induction calls generalizing s ts with
  | nil => rfl
  | cons c rest ih =>
    obtain ⟨s', hs, hnext⟩ := h.ask (fun e => hreopen (e ▸ List.mem_cons_self))
      (hwithin c List.mem_cons_self)
    have hrest := ih hnext (fun hm => hreopen (List.mem_cons_of_mem c hm))
      fun d hd => hwithin d (List.mem_cons_of_mem c hd)
    rw [Store.answers, hs]
    simp only [Bind.bind, Except.bind, hrest]
    rfl

end Refines

/-! ### All calls -/

/-- Every kind of store answers every sequence of calls within the limits as ordered maps do, call
by call; a database in a file may be opened again at any point. -/
theorem answers_eq_expected (kind : Kind) (calls : List Call)
    (hreopen : .reopen ∈ calls → kind = .database true) (hwithin : ∀ c ∈ calls, c.IsWithin) :
    answers calls (.ofKind kind) = .ok (expected calls fun _ => []) :=
  (refines_ofKind kind).answers hreopen hwithin

/-- A guest's record. -/
def guest : FlatRecord where
  fields := [("name", .text "Ann"), ("nights", .int 2), ("note", .null)]
  distinct := by decide
  flat := by
    intro f hf
    simp only [List.mem_cons, List.not_mem_nil, or_false] at hf
    rcases hf with rfl | rfl | rfl
    · rfl
    · trivial
    · trivial

theorem guest_isShort : guest.IsShort := by
  intro name i hi
  have hnights : name = "nights" ∧ i = 2 := by simpa [guest] using hi
  rw [hnights.2]
  exact (Nat.lt_pow_self (by norm_num)).trans_le (Nat.pow_le_pow_right (by norm_num) (by decide))

/-- Whoever has that guest's name. -/
def namesake : TextFilter where
  wanted := [("name", "Ann")]
  distinct := by decide
  identifiers := by decide

/-- A guest comes and leaves again, after the store was opened anew. -/
def visit : List Call :=
  [.save .users "7" guest, .find .users namesake, .reopen, .saveIfMatch .users "7" guest namesake,
    .delete .users "7", .count .users]

/-- A visit to a database in a file. -/
theorem answers_eq_expected_visit :
    (.reopen ∈ visit → Kind.database true = .database true) ∧ (∀ c ∈ visit, c.IsWithin) ∧
    answers visit (.ofKind (.database true)) =
      .ok [.done, .listed [.record guest.fields], .done, .said true, .said true, .counted 0] := by
  have hwithin : ∀ c ∈ visit, c.IsWithin := by
    intro c hc
    simp only [visit, List.mem_cons, List.not_mem_nil, or_false] at hc
    rcases hc with rfl | rfl | rfl | rfl | rfl | rfl
    · exact guest_isShort
    · exact Nat.le_add_left 1 997
    · trivial
    · exact ⟨guest_isShort, Nat.le_add_left 1 996⟩
    · trivial
    · trivial
  exact ⟨fun _ => rfl, hwithin, answers_eq_expected _ visit (fun _ => rfl) hwithin⟩

/-! ### Beyond the limits -/

/-- A filter with so many names, which are numbered. -/
def numbered (n : ℕ) : TextFilter where
  wanted := (List.range n).map fun i => (String.ofList ('k' :: Text.natDigits i), "")
  distinct := by
    rw [List.map_map]
    refine List.Nodup.map (fun i j h => Text.natDigits_injective ?_) List.nodup_range
    exact (List.cons.inj (String.ofList_injective h)).2
  identifiers := by
    intro p hp
    obtain ⟨i, -, rfl⟩ := List.mem_map.mp hp
    have hdigits : ∀ c ∈ Text.natDigits i, isWordChar c = true := by
      intro c hc
      have hc := Text.isDigits_natDigits i c hc
      simp [isWordChar, Char.isAlphanum, hc]
    simp only [isIdentifier, String.toList_ofList, List.all_cons]
    rw [List.all_eq_true.mpr hdigits]
    rfl

/-- A record with an integer of one digit more than are written. -/
def overlong : FlatRecord where
  fields := [("n", .int (10 ^ Value.integerRoom))]
  distinct := by decide
  flat := by
    intro f hf
    obtain rfl := List.mem_singleton.mp hf
    trivial

theorem length_numbered (n : ℕ) : (numbered n).fields.length = n := by
  rw [TextFilter.length_fields, numbered, List.length_map, List.length_range]

/-- One condition more than a database joins is answered in memory only, and an integer too long
to be written is not stored anywhere. -/
theorem answers_beyond_limits :
    (answers [.find .users (numbered 999)] (.ofKind .memory) =
        .ok (expected [.find .users (numbered 999)] fun _ => []) ∧
      answers [.find .users (numbered 999)] (.ofKind (.database true)) = .error .statement) ∧
    (answers [.saveIfMatch .users "7" guest (numbered 998)] (.ofKind .memory) =
        .ok (expected [.saveIfMatch .users "7" guest (numbered 998)] fun _ => []) ∧
      answers [.saveIfMatch .users "7" guest (numbered 998)] (.ofKind (.database true)) =
        .error .statement) ∧
    ∀ kind, answers [.save .users "7" overlong] (.ofKind kind) = .error .noMeaning := by
  have hempty := Storage.shows_ofKind (.database true)
  have hlong : (Value.record overlong.fields).isWritable = false := by
    rw [Bool.eq_false_iff]
    intro hw
    have hmem : ("n", Value.int (10 ^ Value.integerRoom)) ∈ overlong.fields :=
      List.mem_singleton_self _
    have hlt := Json.int_of_isWritable hw hmem
    generalize Value.integerRoom = room at hlt
    rw [Int.natAbs_pow] at hlt
    exact lt_irrefl _ hlt
  have hguest := (FlatRecord.printable guest_isShort).isWritable
  refine ⟨⟨rfl, ?_⟩, ⟨rfl, ?_⟩, fun kind => ?_⟩
  · have hfind : (Storage.ofKind (.database true)).find (.text Shelf.users.name)
        (numbered 999).fields = .error .statement :=
      hempty.find_too_deep .users _ (by rw [length_numbered]; decide)
    simp only [answers, Call.ask, hfind]
    rfl
  · have hsave : (Storage.ofKind (.database true)).saveIfMatch (.text Shelf.users.name)
        (.text "7") (.record guest.fields) (numbered 998).fields = .error .statement :=
      hempty.saveIfMatch_too_deep .users "7" hguest _ (by rw [length_numbered]; decide)
    simp only [answers, Call.ask, hsave]
    rfl
  · have hsave := (Storage.shows_ofKind kind).save_unwritable .users "7" hlong
    simp only [answers, Call.ask, hsave]
    rfl

end Store
end LoanDesk
