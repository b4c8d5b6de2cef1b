import Mathlib.Data.List.TakeWhile
import LoanDesk.Proofs.Store.Documents

/-
# Filters

A filter of texts is decided alike in memory and in a database, as long as its names are
spelled as paths and documents spell them and the document is flat there: what it holds
under such a name is a text without a zero character, an integer, a truth value or null.
A filter finds the documents that meet it, in order; a conditional write puts its record
if the stored document meets the filter, and nothing otherwise.

Key definitions: `Store.IsPlainName`, `Store.isIdentifier`, `Store.IsFlat`, `Store.texts`,
`Store.hasText`, `Storage.meets?`, `Storage.Wrote`.
Key theorems: `Json.escape_injective`, `Store.isPlainName_of_isIdentifier`,
`Storage.meets_texts`, `Storage.Shows.find_meets`, `Storage.Shows.find_eq`,
`Storage.Shows.find_text`, `Storage.Shows.saveIfMatch_absent`,
`Storage.Shows.saveIfMatch_present`.
-/

namespace LoanDesk

namespace Json

/-- Different texts are spelled differently in documents. -/
theorem escape_injective {s t : String} (h : escape s.toList = escape t.toList) : s = t := by
  have hs := readString_text s []
  rw [h, readString_text t []] at hs
  have hsame := (Prod.mk.inj (Except.ok.inj hs)).1
  rw [← Value.text.injEq, ← ofSigns_ofChars s, ← ofSigns_ofChars t, hsame]

end Json

namespace Store

theorem upToZero_eq_self {s : String} (h : ∀ c ∈ s.toList, c.toNat ≠ 0) : upToZero s = s := by
  unfold upToZero
  rw [List.takeWhile_eq_self_iff.mpr fun c hc => bne_iff_ne.mpr (h c hc), String.ofList_toList]

/-- The name is a path of one step, and documents spell it as it is. -/
structure IsPlainName (name : String) : Prop where
  upToZero : upToZero name = name
  readName : readName? name.toList = some (name.toList, [])
  escape : Json.escape name.toList = name.toList

theorem isPlainName_status : IsPlainName "status" :=
  ⟨by rfl, by rfl, by rfl⟩

theorem isPlainName_owner : IsPlainName "owner_id" :=
  ⟨by rfl, by rfl, by rfl⟩

/-- A letter, a digit or an underscore, in ASCII. -/
def isWordChar (c : Char) : Bool :=
  c.isAlphanum || c == '_'

/-- An identifier in ASCII. -/
def isIdentifier (name : String) : Bool :=
  match name.toList with
  | [] => false
  | c :: cs => !c.isDigit && (c :: cs).all isWordChar

theorem isWordChar_bounds {c : Char} (h : isWordChar c = true) :
    48 ≤ c.toNat ∧ c.toNat < 127 ∧ c ≠ '[' ∧ c ≠ '\\' := by
  have hcode : ∀ d : Char, c = d ↔ c.val.toNat = d.val.toNat := fun d =>
    ⟨fun e => e ▸ rfl, fun e => Char.ext (UInt32.toNat_inj.mp e)⟩
  have hranges : ((decide ('A'.val ≤ c.val ∧ c.val ≤ 'Z'.val) ||
      decide ('a'.val ≤ c.val) && decide (c.val ≤ 'z'.val) ||
      decide ('0'.val ≤ c.val) && decide (c.val ≤ '9'.val)) || c == '_') = true := h
  simp only [Bool.or_eq_true, Bool.and_eq_true, decide_eq_true_eq, beq_iff_eq] at hranges
  rw [hcode] at hranges
  rw [ne_eq, hcode, ne_eq, hcode]
  simp only [Char.toNat, UInt32.le_iff_toNat_le] at hranges ⊢
  simp at hranges ⊢
  omega

theorem escaped_wordChar {c : Char} (h : isWordChar c = true) : Json.escaped c = [c] := by
  obtain ⟨hlow, hhigh, -, hback⟩ := isWordChar_bounds h
  have hquote : c ≠ '"' := by
    rintro rfl
    exact absurd hlow (by decide)
  unfold Json.escaped
  rw [if_neg hquote, if_neg hback, if_pos ⟨by omega, hhigh⟩]

/-- An identifier is spelled alike everywhere. -/
theorem isPlainName_of_isIdentifier {name : String} (h : isIdentifier name = true) :
    IsPlainName name := by
  unfold isIdentifier at h
  split at h
  · cases h
  · next c cs hname =>
    rw [Bool.and_eq_true, List.all_eq_true] at h
    obtain ⟨-, hword⟩ := h
    have hpoint : ∀ d ∈ c :: cs, (d != '.' && d != '[') = true := by
      intro d hd
      obtain ⟨hlow, -, hbracket, -⟩ := isWordChar_bounds (hword d hd)
      have hdot : d ≠ '.' := by
        rintro rfl
        exact absurd hlow (by decide)
      simp [hdot, hbracket]
    have hquote : c ≠ '"' := by
      rintro rfl
      exact absurd (isWordChar_bounds (hword _ List.mem_cons_self)).1 (by decide)
    refine ⟨?_, ?_, ?_⟩
    · refine upToZero_eq_self fun d hd => ?_
      obtain ⟨hlow, -⟩ := isWordChar_bounds (hword d (hname ▸ hd))
      omega
    · rw [hname]
      unfold readName?
      split
      · next e => exact absurd (List.cons.inj e).1 hquote
      · rw [List.takeWhile_eq_self_iff.mpr hpoint, List.dropWhile_eq_nil_iff.mpr hpoint]
    · rw [hname]
      unfold Json.escape
      rw [List.flatMap_congr fun d hd => escaped_wordChar (hword d hd)]
      exact List.flatMap_singleton' _

/-! ### What a filter looks at -/

/-- A value without parts that a database gives back as it is, as far as texts are concerned. -/
def IsFlat : Value → Prop
  | .text s => upToZero s = s
  | .int _ | .bool _ | .null => True
  | _ => False

/-- The filter that asks for texts under names. -/
def texts (wanted : List (String × String)) : Fields :=
  wanted.map fun p => (p.1, .text p.2)

/-- The record has this text under this name. -/
def hasText (fs : Fields) (name wanted : String) : Bool :=
  match Fields.get? fs name with
  | some (.text s) => s == wanted
  | _ => false

variable {name : String} {fs : Fields}

theorem hasText_iff (wanted : String) :
    hasText fs name wanted = true ↔ Fields.get? fs name = some (.text wanted) := by
  unfold hasText
  split
  · next s hs =>
    rw [hs, beq_iff_eq, Option.some.injEq, Value.text.injEq]
  · next hother => exact ⟨fun c => by simp at c, fun c => absurd c (hother wanted)⟩

theorem fieldSpelled_eq (h : IsPlainName name) (fs : Fields) :
    fieldSpelled? fs name.toList = Fields.get? fs name := by
  have hp : (fun f : String × Value => Json.escape f.1.toList == name.toList) =
      fun f => f.1 == name := by
    funext f
    rw [Bool.eq_iff_iff, beq_iff_eq, beq_iff_eq, ← h.escape]
    exact ⟨Json.escape_injective, fun e => e ▸ rfl⟩
  unfold fieldSpelled? Fields.get?
  rw [hp]

/-- What `extract` finds under a plain name is what the record has there. -/
theorem extract_field (h : IsPlainName name) (hfin : (Value.record fs).isFinite = true) :
    extract (.record fs) name = .ok ((Fields.get? fs name).elim .null Extract.ofValue) := by
  have hl : lookup ('.' :: name.toList).length (.record fs) ('.' :: name.toList) =
      .ok (Fields.get? fs name) := by
    rw [List.length_cons, lookup, h.readName]
    simp only [fieldSpelled_eq h]
    cases Fields.get? fs name with
    | none => rfl
    | some v => cases name.toList.length <;> rfl
  unfold extract
  simp only [hfin, h.upToZero, hl, Bind.bind, Except.bind, pure, Except.pure, Bool.not_true,
    Bool.false_eq_true, if_false]
  cases Fields.get? fs name <;> rfl

/-- In memory a record is asked for a text: `holds?` comes to `hasText`. -/
theorem holds_memory (fs : Fields) (name wanted : String) :
    Memory.holds? (.record fs) name (.text wanted) = .ok (hasText fs name wanted) := by
  simp only [Memory.holds?, hasText]
  cases Fields.get? fs name with
  | none => rfl
  | some v => cases v <;> simp [Memory.equals?, Value.same, Value.sameAmount, Value.amount?]

/-- A database asks a flat record for a text: its condition comes to `hasText`. -/
theorem holds_database (h : IsPlainName name) (hfin : (Value.record fs).isFinite = true)
    (hflat : ∀ v, Fields.get? fs name = some v → IsFlat v) (wanted : String) :
    Condition.holds ⟨name, some (.text wanted)⟩ (.record fs) = .ok (hasText fs name wanted) := by
  unfold Condition.holds hasText
  simp only [extract_field h hfin, Bind.bind, Except.bind, pure, Except.pure]
  cases hg : Fields.get? fs name with
  | none => rfl
  | some v =>
    have hv := hflat v hg
    cases v with
    | text s =>
      have hs : upToZero s = s := hv
      simp only [Option.elim, Extract.ofValue, Extract.equals, hs]
    | int i =>
      simp only [Option.elim, Extract.ofValue]
      split <;> rfl
    | bool b => rfl
    | null => rfl
    | _ => exact hv.elim

theorem conditions_texts (wanted : List (String × String)) : conditions (texts wanted) =
    .ok (wanted.map fun p => ⟨p.1, some (.text p.2)⟩) := by
  induction wanted with
  | nil => rfl
  | cons p rest ih =>
    unfold texts at ih ⊢
    rw [List.map_cons, conditions]
    · rw [ih]
      rfl
    · intro e
      cases e

/-- A conditional write of a database whose filter makes conditions that are not too many. -/
theorem Database.saveIfMatch_eq {d d' : Database} {t : Shelf} {table : String}
    {rows : Table (Option String) String} {data : Value} (id : String) {wanted : Fields}
    {cs : List Condition} (htable : d.table (.text t.name) = .ok (table, rows, d'))
    (hw : data.isWritable = true) (hdepth : wanted.length ≤ mostConditions true)
    (hcs : conditions wanted = .ok cs) :
    d.saveIfMatch (.text t.name) (.text id) data wanted =
      match rows.get? (some id) with
      | none => .ok (false, d')
      | some text => do
        if ← allHold (read text) cs then
          return (true, d'.withRows table (rows.put (some id) (write data)))
        else return (false, d') := by
  have hdepth' : checkDepth wanted true = .ok () := if_pos hdepth
  have hid : rowId (.text id) = .ok (some id) := rfl
  simp only [Database.saveIfMatch, htable, hw, hdepth', hid, hcs, Bind.bind, Except.bind,
    Bool.not_true, Bool.false_eq_true, if_false]
  rfl

/-- A conditional write in memory where there is a document that can be asked. -/
theorem Memory.saveIfMatch_eq {m : Memory} {name id data current : Value} {wanted : Fields}
    {b : Bool} (hload : m.load name id = .ok (some current))
    (hb : matches? current wanted = .ok b) :
    m.saveIfMatch name id data wanted =
      if b then (m.save name id data).map fun m' => (true, m') else .ok (false, m) := by
  unfold saveIfMatch
  rw [hload]
  simp only [Bind.bind, Except.bind, hb]
  cases b with
  | false => rfl
  | true => cases m.save name id data <;> rfl

end Store

namespace Storage

open Store

/-- The document meets a filter as the store understands it. -/
def meets? (s : Storage) (document : Value) (wanted : Fields) : Except Fault Bool :=
  match s with
  | memory _ => Memory.matches? document wanted
  | database _ => do allHold document (← conditions wanted)

variable {s s' : Storage} {ts : Shelves} {t : Shelf} {id name wanted : String} {fs : Fields}

/-- A filter of texts is met by the documents that have them all. -/
theorem meets_texts (s : Storage) (wanted : List (String × String))
    (hnames : ∀ p ∈ wanted, IsPlainName p.1) (hfin : (Value.record fs).isFinite = true)
    (hflat : ∀ p ∈ wanted, ∀ v, Fields.get? fs p.1 = some v → IsFlat v) :
    s.meets? (.record fs) (texts wanted) = .ok (wanted.all fun p => hasText fs p.1 p.2) := by
  cases s with
  | memory m =>
    change Memory.matches? (.record fs) (texts wanted) = _
    induction wanted with
    | nil => rfl
    | cons p rest ih =>
      have hrest := ih (fun q hq => hnames q (List.mem_cons_of_mem p hq))
        fun q hq => hflat q (List.mem_cons_of_mem p hq)
      unfold texts at hrest ⊢
      rw [List.map_cons, List.all_cons, Memory.matches?, holds_memory]
      simp only [Bind.bind, Except.bind]
      cases hasText fs p.1 p.2 with
      | true => exact hrest
      | false => rfl
  | database d =>
    change (conditions (texts wanted) >>= allHold (.record fs)) = _
    rw [conditions_texts]
    change allHold (.record fs) (wanted.map fun p => ⟨p.1, some (.text p.2)⟩) = _
    induction wanted with
    | nil => rfl
    | cons p rest ih =>
      have hrest := ih (fun q hq => hnames q (List.mem_cons_of_mem p hq))
        fun q hq => hflat q (List.mem_cons_of_mem p hq)
      rw [List.map_cons, List.all_cons, allHold,
        holds_database (hnames p List.mem_cons_self) hfin (hflat p List.mem_cons_self)]
      simp only [Bind.bind, Except.bind]
      cases hasText fs p.1 p.2 with
      | true => exact hrest
      | false => rfl

/-- A filter of one text. -/
theorem meets_text (h : IsPlainName name) (hfin : (Value.record fs).isFinite = true)
    (hflat : ∀ v, Fields.get? fs name = some v → IsFlat v) (s : Storage) (wanted : String) :
    s.meets? (.record fs) [(name, .text wanted)] = .ok (hasText fs name wanted) := by
  have hm := s.meets_texts [(name, wanted)] (by simpa using h) hfin (by simpa using hflat)
  simpa [texts] using hm

/-! ### Finding -/

/-- What is `chosen` was there and passes the test. -/
theorem mem_of_chosen {α : Type} {test : α → Except Fault Bool} {as bs : List α}
    (h : chosen test as = .ok bs) : ∀ b ∈ bs, b ∈ as ∧ test b = .ok true := by
  induction as generalizing bs with
  | nil =>
    obtain rfl := Except.ok.inj h
    simp
  | cons a rest ih =>
    obtain ⟨here, hhere, h⟩ := bind_eq_ok h
    obtain ⟨others, hothers, h⟩ := bind_eq_ok h
    obtain rfl := Except.ok.inj h
    intro b hb
    have hrest : b ∈ others → b ∈ a :: rest ∧ test b = .ok true := fun hb =>
      ⟨List.mem_cons_of_mem a (ih hothers b hb).1, (ih hothers b hb).2⟩
    cases here with
    | false => exact hrest hb
    | true =>
      rcases List.mem_cons.mp hb with rfl | hb
      · exact ⟨List.mem_cons_self, hhere⟩
      · exact hrest hb

/-- Where the test gives an answer for all, those are `chosen` for which it is yes. -/
theorem chosen_eq {α β : Type} {test : β → Except Fault Bool} {f : α → β} {pick : α → Bool}
    {as : List α} (h : ∀ a ∈ as, test (f a) = .ok (pick a)) :
    chosen test (as.map f) = .ok ((as.filter pick).map f) := by
  induction as with
  | nil => rfl
  | cons a rest ih =>
    have hrest := ih fun b hb => h b (List.mem_cons_of_mem a hb)
    rw [List.map_cons, chosen, h a List.mem_cons_self, hrest, List.filter_cons]
    simp only [Bind.bind, Except.bind, pure, Except.pure]
    cases pick a <;> rfl

theorem Shows.entries (h : s.Shows ts) (t : Shelf) :
    (s.rows t.name).entries = (ts t).entries.map .record := by
  rw [h.rows t, Table.entries_read]

theorem Shows.loadAll (h : s.Shows ts) (t : Shelf) :
    s.loadAll (.text t.name) = .ok ((ts t).entries.map .record) := by
  rw [← h.entries t]
  cases s with
  | memory m => rfl
  | database d =>
    obtain ⟨c, htable, -⟩ := (h.isPlain d rfl).table t
    have hentries := Table.entries_read idValue Database.read (d.tables.get t.name)
    change d.loadAll (.text t.name) = .ok (Table.entries (Table.read _ _ (d.tables.get t.name)))
    unfold Database.loadAll
    rw [htable, hentries]
    rfl

/-- What is found by `find` is in the table and meets the filter. -/
theorem Shows.find_meets (h : s.Shows ts) {wanted : Fields} {vs : List Value}
    (hf : s.find (.text t.name) wanted = .ok vs) :
    ∀ v ∈ vs, (∃ fs ∈ (ts t).entries, v = .record fs) ∧ s.meets? v wanted = .ok true := by
  have hentries := h.entries t
  have hdocs : ∀ v ∈ (ts t).entries.map Value.record, ∃ fs ∈ (ts t).entries, v = .record fs := by
    intro v hv
    obtain ⟨fs, hfs, rfl⟩ := List.mem_map.mp hv
    exact ⟨fs, hfs, rfl⟩
  cases s with
  | memory m =>
    have hf' : chosen (Memory.matches? · wanted) ((memory m).rows t.name).entries = .ok vs := hf
    intro v hv
    obtain ⟨hmem, hm⟩ := mem_of_chosen hf' v hv
    exact ⟨hdocs v (hentries ▸ hmem), hm⟩
  | database d =>
    obtain ⟨c, htable, -⟩ := (h.isPlain d rfl).table t
    obtain ⟨_, ht, hf⟩ := bind_eq_ok hf
    obtain rfl := Except.ok.inj (htable.symm.trans ht)
    obtain ⟨_, -, hf⟩ := bind_eq_ok hf
    obtain ⟨cs, hcs, hf⟩ := bind_eq_ok hf
    intro v hv
    obtain ⟨hmem, hm⟩ := mem_of_chosen hf v hv
    rw [← Table.entries_read idValue] at hmem
    refine ⟨hdocs v (hentries ▸ hmem), ?_⟩
    simp only [meets?, hcs]
    exact hm

/-- A filter that every document of the table can be asked finds those that meet it, in order. -/
theorem Shows.find_eq (h : s.Shows ts) (t : Shelf) {wanted : Fields} {cs : List Condition}
    {test : Fields → Bool} (hdepth : wanted.length ≤ mostConditions false)
    (hcs : conditions wanted = .ok cs)
    (hm : ∀ fs ∈ (ts t).entries, s.meets? (.record fs) wanted = .ok (test fs)) :
    s.find (.text t.name) wanted = .ok (((ts t).entries.filter test).map .record) := by
  have hentries := h.entries t
  cases s with
  | memory m =>
    change chosen (Memory.matches? · wanted) ((memory m).rows t.name).entries = _
    rw [hentries]
    exact chosen_eq hm
  | database d =>
    obtain ⟨c, htable, -⟩ := (h.isPlain d rfl).table t
    have hdepth' : checkDepth wanted false = .ok () := if_pos hdepth
    have hread : (d.tables.get t.name).entries.map Database.read =
        (ts t).entries.map .record := hentries ▸ (Table.entries_read ..).symm
    have hall : ∀ fs ∈ (ts t).entries, allHold (.record fs) cs = .ok (test fs) := by
      intro fs hfs
      have hfs := hm fs hfs
      unfold meets? at hfs
      rw [hcs] at hfs
      exact hfs
    change d.find (.text t.name) wanted = _
    unfold Database.find
    simp only [htable, hdepth', hcs, Bind.bind, Except.bind, hread]
    exact chosen_eq hall

/-- What is found by a text is what has that text. -/
theorem Shows.find_text (h : s.Shows ts) (t : Shelf) (hn : IsPlainName name)
    (hdocs : ∀ fs ∈ (ts t).entries, (Value.record fs).isFinite = true ∧
      ∀ v, Fields.get? fs name = some v → IsFlat v) (wanted : String) :
    s.find (.text t.name) [(name, .text wanted)] =
      .ok (((ts t).entries.filter fun fs => hasText fs name wanted).map .record) := by
  have hone : [(name, Value.text wanted)].length ≤ mostConditions false := Nat.le_add_left 1 997
  refine h.find_eq t hone (conditions_texts [(name, wanted)]) fun fs hfs => ?_
  obtain ⟨hfin, hflat⟩ := hdocs fs hfs
  exact meets_text hn hfin hflat s wanted

/-- A database does not join more conditions than the depth of a statement allows
(`mostConditions`). -/
theorem Shows.find_too_deep {d : Database} (h : (database d).Shows ts) (t : Shelf) (wanted : Fields)
    (hdepth : mostConditions false < wanted.length) :
    (database d).find (.text t.name) wanted = .error .statement := by
  obtain ⟨c, htable, -⟩ := (h.isPlain d rfl).table t
  have hdepth' : checkDepth wanted false = .error .statement := if_neg (not_le.mpr hdepth)
  change d.find (.text t.name) wanted = _
  unfold Database.find
  simp only [htable, hdepth', Bind.bind, Except.bind]

/-! ### The conditional write -/

/-- A store after a conditional write, which took place or did not: the record was put, or the
tables are as they were, and so is the store if it had the table. -/
inductive Wrote (s : Storage) (ts : Shelves) (t : Shelf) (id : String) (fs : Fields) :
    Bool → Storage → Prop
  | put {s' : Storage} :
      s'.Shows (Function.update ts t ((ts t).put id (Value.storedFields fs))) →
      s'.Follows s t → Wrote s ts t id fs true s'
  | left {s' : Storage} : s'.Shows ts → s'.Follows s t → (s.IsReady t → s' = s) →
      Wrote s ts t id fs false s'

theorem Shows.asked (h : s.Shows ts) (t : Shelf) (id : String) (fs : Fields) :
    s.Wrote ts t id fs false (s.asked (.text t.name)) := by
  cases s with
  | memory m =>
    exact .left h (follows_memory _ _ t) fun _ => rfl
  | database d =>
    obtain ⟨c, -, hrequest, hplain, hhas, hkeep, hsame⟩ := (h.isPlain d rfl).table t
    have ha : (database d).asked (.text t.name) = database { d with catalog := c } :=
      congrArg database hrequest
    rw [ha]
    refine .left ?_ (follows_database (c := c) d rfl rfl hhas hkeep) fun hr => ?_
    · refine ⟨h.rows, h.distinct, ?_⟩
      rintro _ ⟨⟩
      exact ⟨(h.isPlain d rfl).isOpen, hplain⟩
    · rw [hsame (hr d rfl)]

section conditional

variable {fs current : Fields} {wanted : Fields} {cs : List Condition} {b : Bool}

/-- A conditional write leaves a table without the document: it has `Wrote` nothing. -/
theorem Shows.saveIfMatch_absent (h : s.Shows ts) (hw : (Value.record fs).isWritable = true)
    (hdepth : wanted.length ≤ mostConditions true) (hcs : conditions wanted = .ok cs)
    (hnone : (ts t).get? id = none) :
    s.saveIfMatch (.text t.name) (.text id) (.record fs) wanted =
      .ok (false, s.asked (.text t.name)) := by
  have hload := h.load t id
  cases s with
  | memory m =>
    have hl : m.load (.text t.name) (.text id) = _ := hload
    change (m.saveIfMatch _ _ _ _).map _ = _
    rw [Memory.saveIfMatch, hl, hnone]
    rfl
  | database d =>
    obtain ⟨c, htable, hrequest, -⟩ := (h.isPlain d rfl).table t
    have hrow := (get?_database d t id).symm.trans (h.get?_rows t id)
    rw [hnone, Option.map_none, Option.map_eq_none_iff] at hrow
    have hask : (database d).asked (.text t.name) = database { d with catalog := c } :=
      congrArg database hrequest
    change (d.saveIfMatch _ _ _ _).map _ = _
    rw [Database.saveIfMatch_eq id htable hw hdepth hcs, hrow, hask]
    rfl

theorem Shows.saveIfMatch_memory {m : Memory} (h : (memory m).Shows ts)
    (hfs : Json.Printable (.record fs)) (hw : (Value.record fs).isWritable = true)
    (hcurrent : (ts t).get? id = some current)
    (hb : Memory.matches? (.record current) wanted = .ok b) :
    ∃ s', (memory m).saveIfMatch (.text t.name) (.text id) (.record fs) wanted = .ok (b, s') ∧
      (memory m).Wrote ts t id fs b s' := by
  obtain ⟨s₁, hsave, hshows, hfollows⟩ := h.save t id hfs hw
  have hload : m.load (.text t.name) (.text id) = .ok (some (.record current)) := by
    have hl : m.load (.text t.name) (.text id) = _ := h.load t id
    rw [hl, hcurrent]
    rfl
  have hwrite : m.saveIfMatch (.text t.name) (.text id) (.record fs) wanted = _ :=
    Memory.saveIfMatch_eq hload hb
  change ∃ s', (m.saveIfMatch _ _ _ _).map _ = _ ∧ _
  rw [hwrite]
  cases b with
  | false => exact ⟨memory m, rfl, h.asked t id fs⟩
  | true =>
    change (m.save _ _ _).map memory = .ok s₁ at hsave
    cases hm : m.save (.text t.name) (.text id) (.record fs) with
    | ok m' =>
      rw [hm] at hsave
      obtain rfl := Except.ok.inj hsave
      exact ⟨memory m', rfl, .put hshows hfollows⟩
    | error f =>
      rw [hm] at hsave
      cases hsave

theorem Shows.saveIfMatch_database {d : Database} (h : (database d).Shows ts)
    (hfs : Json.Printable (.record fs)) (hw : (Value.record fs).isWritable = true)
    (hdepth : wanted.length ≤ mostConditions true) (hcs : conditions wanted = .ok cs)
    (hcurrent : (ts t).get? id = some current) (hb : allHold (.record current) cs = .ok b) :
    ∃ s', (database d).saveIfMatch (.text t.name) (.text id) (.record fs) wanted = .ok (b, s') ∧
      (database d).Wrote ts t id fs b s' := by
  obtain ⟨s₁, hsave, hshows, hfollows⟩ := h.save t id hfs hw
  obtain ⟨c, htable, hrequest, -⟩ := (h.isPlain d rfl).table t
  have hrow := (get?_database d t id).symm.trans (h.get?_rows t id)
  rw [hcurrent, Option.map_some] at hrow
  obtain ⟨text, hget, htext⟩ := Option.map_eq_some_iff.mp hrow
  have hask : (database d).asked (.text t.name) = database { d with catalog := c } :=
    congrArg database hrequest
  have hs₁ : s₁ = database (({ d with catalog := c } : Database).withRows t.name
      ((d.tables.get t.name).put (some id) (Database.write (.record fs)))) := by
    change (d.save _ _ _).map database = .ok s₁ at hsave
    rw [Database.save, htable, hw] at hsave
    exact (Except.ok.inj hsave).symm
  change ∃ s', (d.saveIfMatch _ _ _ _).map _ = _ ∧ _
  rw [Database.saveIfMatch_eq id htable hw hdepth hcs, hget]
  simp only [htext, Bind.bind, Except.bind, hb]
  cases b with
  | false => exact ⟨_, rfl, hask ▸ h.asked t id fs⟩
  | true => exact ⟨s₁, hs₁ ▸ rfl, .put hshows hfollows⟩

/-- A conditional write puts its record if there is a document that meets the filter. -/
theorem Shows.saveIfMatch_present (h : s.Shows ts) (hfs : Json.Printable (.record fs))
    (hw : (Value.record fs).isWritable = true) (hdepth : wanted.length ≤ mostConditions true)
    (hcs : conditions wanted = .ok cs) (hcurrent : (ts t).get? id = some current)
    (hb : s.meets? (.record current) wanted = .ok b) :
    ∃ s', s.saveIfMatch (.text t.name) (.text id) (.record fs) wanted = .ok (b, s') ∧
      s.Wrote ts t id fs b s' := by
  cases s with
  | memory m => exact h.saveIfMatch_memory hfs hw hcurrent hb
  | database d =>
    unfold meets? at hb
    rw [hcs] at hb
    exact h.saveIfMatch_database hfs hw hdepth hcs hcurrent hb

end conditional

/-- The condition on the id counts for one. -/
theorem Shows.saveIfMatch_too_deep {d : Database} (h : (database d).Shows ts) (t : Shelf)
    (id : String) {data : Value} (hw : data.isWritable = true) (wanted : Fields)
    (hdepth : mostConditions true < wanted.length) :
    (database d).saveIfMatch (.text t.name) (.text id) data wanted = .error .statement := by
  obtain ⟨c, htable, -⟩ := (h.isPlain d rfl).table t
  have hdepth' : checkDepth wanted true = .error .statement := if_neg (not_le.mpr hdepth)
  change (d.saveIfMatch (.text t.name) (.text id) data wanted).map _ = _
  unfold Database.saveIfMatch
  simp only [htable, hw, hdepth', Bind.bind, Except.bind, Bool.not_true, Bool.false_eq_true,
    if_false]
  rfl

end Storage
end LoanDesk
