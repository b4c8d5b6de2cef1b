import LoanDesk.Proofs.Account.Password
import LoanDesk.Proofs.Store.Filters

/-
# Users found by their addresses

An address is brought into its form when users are looked for, and nobody brings it into its form
when they are created. So a user is found by every address of the same form, and takes that form
from all who come later, if what the store compares of the address is the form already; otherwise
no such address finds the user, and somebody else can be created with it.

Key definitions: `Storage.Kind.compared`, `UserBook.Lists`, `UserBook.addAll`, `UserBook.Created`.
Key theorems: `UserBook.Lists.find`, `UserBook.Lists.byEmail?`, `UserBook.Created.addAll`,
`UserBook.Created.byEmail?_of_compared`, `UserBook.found_if_in_form`.
-/

namespace LoanDesk

open Store

/-! ### What a store compares -/

theorem isPlainName_email : IsPlainName "email" :=
  ⟨by rfl, by rfl, by rfl⟩

/-- What a store compares of a text that it was given. A database compares a text up to its first
zero character. -/
def Storage.Kind.compared (kind : Storage.Kind) (v : Value) : Value :=
  match kind, v.stored with
  | .database _, .text s => .text (upToZero s)
  | _, w => w

/-- Most texts are compared as they are. -/
theorem Storage.Kind.compared_text {kind : Storage.Kind} {s : String}
    (h : kind ≠ .memory → upToZero s = s) : kind.compared (.text s) = .text s := by
  cases kind with
  | memory => rfl
  | database inFile => exact congrArg Value.text (h (by simp))

theorem Value.IsText.compared {v : Value} (h : v.IsText) (kind : Storage.Kind) :
    (kind.compared v).IsText := by
  have hstored := h.stored
  unfold Storage.Kind.compared
  cases kind with
  | memory => exact hstored
  | database inFile =>
    split
    · trivial
    · exact hstored

/-- A store of the kind can be asked for the text: a database cannot be handed a torn one. -/
def Storage.Kind.Accepts (kind : Storage.Kind) (w : Value) : Prop :=
  kind ≠ .memory → ∀ t, w ≠ .torn t

/-- In memory a record is asked for a text of any signs by `Memory.matches?`. -/
theorem matches_memory {fs : Fields} {name : String} {v w : Value}
    (hg : Fields.get? fs name = some v) (hw : w.IsText) :
    Memory.matches? (.record fs) [(name, w)] = .ok (v.same w) := by
  have hequals : Memory.equals? v w = .ok (v.same w) := by
    cases w with
    | text s => cases v <;> rfl
    | torn t => cases v <;> rfl
    | _ => exact hw.elim
  simp only [Memory.matches?, Memory.holds?, hg, hequals, Bind.bind, Except.bind]
  cases v.same w <;> rfl

/-- A database asks a record for a text, up to the first zero character of what it has
(`upToZero`). -/
theorem holds_up_to_zero {fs : Fields} {name s : String} (h : IsPlainName name)
    (hfin : (Value.record fs).isFinite = true) (hg : Fields.get? fs name = some (.text s))
    (wanted : String) :
    allHold (.record fs) [⟨name, some (.text wanted)⟩] = .ok (upToZero s == wanted) := by
  simp only [allHold, Condition.holds, extract_field h hfin, hg, Option.elim, Extract.ofValue,
    Extract.equals, Bind.bind, Except.bind, pure, Except.pure]
  cases upToZero s == wanted <;> rfl

namespace UserBook

/-! ### Users that a store lists -/

/-- The user of the first of these records. -/
def first? : List Value → Except Fault (Option User)
  | [] => .ok none
  | v :: _ => (User.ofRecord v).map some

theorem byEmail?_eq {v w : Value} (hw : Account.normalAddress v = .ok w) (s : Storage) :
    byEmail? s v = s.find table [("email", w)] >>= first? := by
  unfold byEmail?
  rw [hw]
  change (s.find table [("email", w)] >>= fun vs => _) = _
  cases s.find table [("email", w)] with
  | error f => rfl
  | ok vs => cases vs <;> rfl

theorem byEmail?_of_hasEmail {s : Storage} {v : Value} (h : hasEmail s v = .ok false) :
    byEmail? s v = .ok none := by
  obtain ⟨found, hfound, hnone⟩ := map_eq_ok h
  cases found with
  | none => exact hfound
  | some u => cases hnone

/-- A user is written down by `UserBook.add` only if the address is free. -/
theorem add_eq_ok {s s' : Storage} {u : User} (h : add s u = .ok s') :
    byEmail? s u.email = .ok none ∧ update s u = .ok s' := by
  obtain ⟨taken, htaken, h⟩ := bind_eq_ok h
  cases taken with
  | true => cases h
  | false => exact ⟨byEmail?_of_hasEmail htaken, h⟩

/-- Nobody is created by `UserBook.add` with an address that finds somebody. -/
theorem add_taken {s : Storage} {u v : User} (h : byEmail? s u.email = .ok (some v)) :
    add s u = .error (.refused (.emailTaken u.email)) := by
  unfold add hasEmail
  rw [h]
  rfl

theorem entries_documents {ts : Shelves} {us : Table String User}
    (hts : ts .users = us.read id User.document) :
    (ts .users).entries = us.map fun p => p.2.document := by
  rw [hts, Table.entries_read]
  unfold Table.entries
  rw [List.map_map]
  rfl

/-- The users of a store, each on file under the id; in a database their addresses are texts of
characters. -/
structure Lists (s : Storage) (us : Table String User) : Prop where
  shows : ∃ ts, s.Shows ts ∧ ts .users = us.read id User.document
  filed : ∀ p ∈ us, p.2.Filed p.1
  whole : s.kind ≠ .memory → ∀ p ∈ us, ∃ t, p.2.email = .text t

namespace Lists

variable {s s' : Storage} {us : Table String User} {w : Value}

theorem get?_email (h : Lists s us) {p : String × User} (hp : p ∈ us) :
    Fields.get? p.2.document "email" = some p.2.email.stored :=
  p.2.get?_email.trans (congrArg (fun v => some v.stored) (h.filed p hp).email.recorded)

theorem same_iff (h : Lists s us) (hw : w.IsText) {p : String × User} (hp : p ∈ us) :
    (s.kind.compared p.2.email).same w = true ↔ s.kind.compared p.2.email = w :=
  ((h.filed p hp).email.compared s.kind).same_iff hw

/-- A record is asked for an address as its store compares addresses. -/
theorem meets? (h : Lists s us) (hw : w.IsText) (hask : s.kind.Accepts w) {p : String × User}
    (hp : p ∈ us) :
    s.meets? (.record p.2.document) [("email", w)] = .ok ((s.kind.compared p.2.email).same w) := by
  have hemail := h.get?_email hp
  cases hs : s with
  | memory m => exact matches_memory hemail hw
  | database d =>
    rw [hs] at hask h
    obtain ⟨t, ht⟩ := h.whole (by rintro ⟨⟩) p hp
    rw [ht] at hemail ⊢
    cases w with
    | text wanted =>
      have hfinite := (h.filed p hp).printable.stored.isFinite
      exact holds_up_to_zero isPlainName_email hfinite hemail wanted
    | torn x => exact absurd rfl (hask (by rintro ⟨⟩) x)
    | _ => exact hw.elim

/-- An address finds the users whose own is `compared` as it. -/
theorem find (h : Lists s us) (hw : w.IsText) (hask : s.kind.Accepts w) :
    s.find table [("email", w)] =
      .ok ((us.filter fun p => (s.kind.compared p.2.email).same w).map
        fun p => .record p.2.document) := by
  obtain ⟨ts, hshows, hts⟩ := h.shows
  let test : Fields → Bool := fun fs =>
    (s.meets? (.record fs) [("email", w)]).toOption.getD false
  have htest : ∀ p ∈ us, test p.2.document = (s.kind.compared p.2.email).same w := by
    intro p hp
    simp only [test, h.meets? hw hask hp]
    rfl
  have hmeets : ∀ fs ∈ (ts .users).entries,
      s.meets? (.record fs) [("email", w)] = .ok (test fs) := by
    intro fs hfs
    rw [entries_documents hts] at hfs
    obtain ⟨p, hp, rfl⟩ := List.mem_map.mp hfs
    rw [htest p hp, h.meets? hw hask hp]
  have hfilter : ((ts .users).entries.filter test).map Value.record =
      (us.filter fun p => (s.kind.compared p.2.email).same w).map
        fun p => .record p.2.document := by
    rw [entries_documents hts, List.filter_map, List.map_map]
    exact congrArg _ (List.filter_congr htest)
  rw [← hfilter]
  cases hs : s with
  | memory m =>
    have hentries := hshows.entries .users
    rw [hs] at hentries hmeets
    change chosen (Memory.matches? · _) ((Storage.memory m).rows Shelf.users.name).entries = _
    rw [hentries]
    exact Storage.chosen_eq hmeets
  | database d =>
    rw [← hs]
    cases w with
    | text wanted =>
      exact hshows.find_eq .users (Nat.le_add_left 1 997) (conditions_texts [("email", wanted)])
        hmeets
    | torn t => exact absurd rfl (hask (hs ▸ by rintro ⟨⟩) t)
    | _ => exact hw.elim

/-- A database cannot be asked for a torn address. -/
theorem find_error (h : Lists s us) (hask : ¬ s.kind.Accepts w) :
    s.find table [("email", w)] = .error .notEncodable := by
  obtain ⟨ts, hshows, -⟩ := h.shows
  unfold Storage.Kind.Accepts at hask
  push Not at hask
  obtain ⟨hplace, t, rfl⟩ := hask
  cases s with
  | memory m => exact absurd rfl hplace
  | database d =>
    obtain ⟨c, htable, -⟩ := (hshows.isPlain d rfl).table .users
    change d.find (.text Shelf.users.name) _ = _
    unfold Database.find
    rw [htable]
    rfl

/-- An address finds the first user whose own is `compared` as its form. -/
theorem byEmail? (h : Lists s us) {v : Value} (hv : Account.normalAddress v = .ok w)
    (hw : w.IsText) (hask : s.kind.Accepts w) : UserBook.byEmail? s v =
      .ok ((us.find? fun p => (s.kind.compared p.2.email).same w).map fun p => p.2.kept) := by
  rw [byEmail?_eq hv, h.find hw hask, ← List.head?_filter]
  cases us.filter fun p => (s.kind.compared p.2.email).same w with
  | nil => rfl
  | cons p rest =>
    simp only [List.map_cons, Bind.bind, Except.bind, first?, User.ofRecord_document, Except.map,
      List.head?_cons, Option.map_some]

/-- Whoever was looked for has an address that the store can be asked for. -/
theorem accepts_of_byEmail? (h : Lists s us) {v : Value} (hv : Account.normalAddress v = .ok w)
    {found : Option User} (hfound : UserBook.byEmail? s v = .ok found) : s.kind.Accepts w := by
  by_contra hask
  rw [byEmail?_eq hv, h.find_error hask] at hfound
  cases hfound

end Lists

/-! ### Users created one after the other -/

/-- The store that comes of creating users one after the other, and those who have been created. A
call that fails leaves the store. -/
def addAll (s : Storage) : List User → Storage × List User
  | [] => (s, [])
  | u :: rest =>
    match add s u with
    | .ok s' => ((addAll s' rest).1, u :: (addAll s' rest).2)
    | .error _ => addAll s rest

/-- The users of a store, whose addresses were free when they were created: no earlier one is
compared as the form of a later one. -/
structure Created (s : Storage) (us : Table String User) : Prop extends Lists s us where
  free : us.Pairwise fun p q =>
    ∀ w, Account.normalAddress q.2.email = .ok w → s.kind.compared p.2.email ≠ w

theorem created_ofKind (kind : Storage.Kind) : Created (.ofKind kind) [] where
  shows := ⟨_, Storage.shows_ofKind kind, rfl⟩
  filed := by simp
  whole := by simp
  free := .nil

end UserBook

theorem Value.IsText.normalAddress {v : Value} (h : v.IsText) :
    ∃ w, Account.normalAddress v = .ok w ∧ w.IsText := by
  cases v with
  | text s => exact ⟨_, rfl, trivial⟩
  | torn t => exact ⟨_, rfl, trivial⟩
  | _ => exact h.elim

namespace UserBook
namespace Created

variable {s s' : Storage} {us : Table String User} {u : User} {id : String} {w : Value}

theorem ids_nodup (h : Created s us) : (us.map (·.1)).Nodup := by
  obtain ⟨ts, hshows, hts⟩ := h.shows
  have hdistinct := hshows.distinct .users
  rw [hts] at hdistinct
  unfold Table.ids Table.read at hdistinct
  rwa [List.map_map] at hdistinct

/-- Whoever is created comes last, and nobody was compared as the form of the address. -/
theorem add (h : Created s us) (hu : u.Filed id) (hfresh : id ∉ us.map (·.1))
    (hadd : UserBook.add s u = .ok s') : Created s' (us ++ [(id, u)]) ∧ s'.kind = s.kind := by
  obtain ⟨ts, hshows, hts⟩ := h.shows
  obtain ⟨hfound, hupdate⟩ := add_eq_ok hadd
  obtain ⟨w, hform, hw⟩ := hu.email.normalAddress
  have hask := h.accepts_of_byEmail? hform hfound
  have hids : (ts .users).ids = us.map (·.1) := by
    rw [hts]
    unfold Table.ids Table.read
    rw [List.map_map]
    rfl
  obtain ⟨_, hsave, hshows', hfollows⟩ :=
    hshows.save .users id hu.printable hu.printable.isWritable
  rw [← hu.id] at hsave
  obtain rfl := Except.ok.inj (hsave.symm.trans hupdate)
  refine ⟨⟨⟨⟨_, hshows', ?_⟩, ?_, ?_⟩, ?_⟩, hfollows.kind⟩
  · rw [Function.update_self, Table.put_of_not_mem (isExact_string id) (hids ▸ hfresh), hts,
      Table.read_append]
    rfl
  · intro p hp
    rcases List.mem_append.mp hp with hp | hp
    · exact h.filed p hp
    · obtain rfl := List.mem_singleton.mp hp
      exact hu
  · rw [hfollows.kind]
    intro hplace p hp
    rcases List.mem_append.mp hp with hp | hp
    · exact h.whole hplace p hp
    · obtain rfl := List.mem_singleton.mp hp
      have hemail := hu.email
      cases he : u.email with
      | text t => exact ⟨t, rfl⟩
      | torn t =>
        rw [he] at hform
        exact absurd (Except.ok.inj hform).symm (hask hplace _)
      | _ =>
        rw [he] at hemail
        exact hemail.elim
  · rw [hfollows.kind]
    refine List.pairwise_append.mpr ⟨h.free, List.pairwise_singleton _ _, fun p hp q hq => ?_⟩
    obtain rfl := List.mem_singleton.mp hq
    intro w' hw' hsame
    obtain rfl := Except.ok.inj (hform.symm.trans hw')
    rw [h.byEmail? hform hw hask] at hfound
    have hnone := List.find?_eq_none.mp (Option.map_eq_none_iff.mp (Except.ok.inj hfound)) p hp
    exact hnone ((h.same_iff hw hp).mpr hsame)

/-- The users of a run are those who were there before and those who have been created. -/
theorem addAll {new : List User} (h : Created s us) (hfiled : ∀ u ∈ new, ∃ id, u.Filed id)
    (hids : (us.map (fun p => p.2.id) ++ new.map User.id).Nodup) :
    ∃ more : Table String User, Created (addAll s new).1 (us ++ more) ∧
      more.map (·.2) = (UserBook.addAll s new).2 ∧ (UserBook.addAll s new).1.kind = s.kind := by
  induction new generalizing s us with
  | nil => exact ⟨[], by rwa [List.append_nil], rfl, rfl⟩
  | cons u rest ih =>
    have hrest := fun v hv => hfiled v (List.mem_cons_of_mem u hv)
    unfold UserBook.addAll
    cases hadd : UserBook.add s u with
    | error f =>
      refine ih h hrest (hids.sublist ?_)
      exact (List.Sublist.refl _).append (List.sublist_cons_self _ _)
    | ok s' =>
      obtain ⟨id, hu⟩ := hfiled u List.mem_cons_self
      have hfresh : id ∉ us.map (·.1) := by
        intro hid
        obtain ⟨p, hp, rfl⟩ := List.mem_map.mp hid
        have hmem : u.id ∈ us.map fun p => p.2.id :=
          List.mem_map.mpr ⟨p, hp, (h.filed p hp).id.trans hu.id.symm⟩
        exact List.disjoint_of_nodup_append hids hmem List.mem_cons_self
      obtain ⟨hcreated, hkind⟩ := h.add hu hfresh hadd
      obtain ⟨more, hmore, husers, hplace⟩ := ih hcreated hrest (by simpa using hids)
      refine ⟨(id, u) :: more, ?_, ?_, hplace.trans hkind⟩
      · rwa [List.append_cons]
      · exact congrArg (u :: ·) husers

/-- Every store can be asked for the addresses of its users. -/
theorem accepts_form (h : Created s us) {p : String × User} (hp : p ∈ us)
    (hform : Account.normalAddress p.2.email = .ok w) : s.kind.Accepts w := by
  intro hplace t
  obtain ⟨x, hx⟩ := h.whole hplace p hp
  rw [hx] at hform
  rintro rfl
  cases hform

/-- A user whose address is compared as its form is found by every address of that form. -/
theorem byEmail?_of_compared (h : Created s us) {p : String × User} (hp : p ∈ us)
    (hform : Account.normalAddress p.2.email = .ok w)
    (hsame : s.kind.compared p.2.email = w) {e : Value} (he : Account.normalAddress e = .ok w) :
    UserBook.byEmail? s e = .ok (some p.2.kept) := by
  have hw : w.IsText := hsame ▸ (h.filed p hp).email.compared s.kind
  obtain ⟨before, after, rfl⟩ := List.append_of_mem hp
  have hfind : (before ++ p :: after).find? (fun q => (s.kind.compared q.2.email).same w) =
      some p := by
    refine List.find?_eq_some_iff_append.mpr ⟨?_, before, after, rfl, fun q hq => ?_⟩
    · exact (h.same_iff hw hp).mpr hsame
    · have hfree := (List.pairwise_append.mp h.free).2.2 q hq p List.mem_cons_self w hform
      have hother := mt (h.same_iff hw (List.mem_append_left _ hq)).mp hfree
      rw [Bool.not_eq_true] at hother
      rw [hother]
      rfl
  rw [h.byEmail? he hw (h.accepts_form hp hform), hfind]
  rfl

/-- A user whose address is compared as anything else is not found by it. -/
theorem ne_of_byEmail? (h : Created s us) {p : String × User} (hp : p ∈ us) (hw : w.IsText)
    (hother : s.kind.compared p.2.email ≠ w) {e : Value} (he : Account.normalAddress e = .ok w)
    {x : User} (hx : UserBook.byEmail? s e = .ok (some x)) : x.id ≠ p.2.id := by
  have hask := h.accepts_of_byEmail? he hx
  rw [h.byEmail? he hw hask] at hx
  obtain ⟨q, hq, rfl⟩ := Option.map_eq_some_iff.mp (Except.ok.inj hx)
  have hmem := List.mem_of_find?_eq_some hq
  have hsame := (h.same_iff hw hmem).mp
    (List.find?_some (p := fun p : String × User => (s.kind.compared p.2.email).same w) hq)
  intro hid
  rw [(h.filed q hmem).kept_id, (h.filed p hp).id] at hid
  obtain rfl := List.inj_on_of_nodup_map h.ids_nodup hmem hp (Value.text.inj hid)
  exact hother hsame

end Created

/-- An address without a zero character is compared as its form if it is written in it. -/
theorem compared_eq_form_iff {kind : Storage.Kind} {t : String}
    (h : kind ≠ .memory → upToZero t = t) :
    kind.compared (.text t) = .text (Account.normalEmail t) ↔ Account.normalEmail t = t := by
  rw [Storage.Kind.compared_text h, Value.text.injEq]
  exact eq_comm

/-- Users have been created one after the other, with ids of their own and any addresses, and some
calls may have failed. If what the store compares of the address of one of them is the form of the
address, which is to say that the address was handed over in that form, then every address of the
form finds this user, and nobody is created with one from then on; otherwise no address of the form
finds this user. -/
theorem found_if_in_form {kind : Storage.Kind} {new : List User} {u : User}
    (hids : (new.map User.id).Nodup) (hfiled : ∀ u ∈ new, ∃ id, u.Filed id)
    (hu : u ∈ (addAll (.ofKind kind) new).2) :
    ∃ w, Account.normalAddress u.email = .ok w ∧
      (kind.compared u.email = w →
        (∀ e, Account.normalAddress e = .ok w →
          byEmail? (addAll (.ofKind kind) new).1 e = .ok (some u.kept)) ∧
        ∀ v : User, Account.normalAddress v.email = .ok w →
          add (addAll (.ofKind kind) new).1 v = .error (.refused (.emailTaken v.email))) ∧
      (kind.compared u.email ≠ w → ∀ e x, Account.normalAddress e = .ok w →
        byEmail? (addAll (.ofKind kind) new).1 e = .ok (some x) → x.id ≠ u.id) ∧
      ∀ t, u.email = .text t → (kind ≠ .memory → upToZero t = t) →
        (kind.compared u.email = w ↔ Account.normalEmail t = t) := by
  obtain ⟨us, hcreated, husers, hkind⟩ :=
    (created_ofKind kind).addAll hfiled (by simpa using hids)
  rw [List.nil_append] at hcreated
  rw [← husers] at hu
  obtain ⟨p, hp, rfl⟩ := List.mem_map.mp hu
  have hopened : (Storage.ofKind kind).kind = kind := by cases kind <;> rfl
  rw [hopened] at hkind
  obtain ⟨w, hform, hw⟩ := (hcreated.filed p hp).email.normalAddress
  refine ⟨w, hform, fun hsame => ?_, fun hother e x he hx => ?_, fun t ht hzero => ?_⟩
  · rw [← hkind] at hsame
    have hfound := fun e => hcreated.byEmail?_of_compared hp hform hsame (e := e)
    exact ⟨hfound, fun v hv => add_taken (hfound v.email hv)⟩
  · rw [← hkind] at hother
    exact hcreated.ne_of_byEmail? hp hw hother he hx
  · rw [ht] at hform ⊢
    obtain rfl := Except.ok.inj hform
    exact compared_eq_form_iff hzero

/-- A user with an id and an address. -/
def sample (id email : String) : User where
  id := .text id
  created := .epoch
  updated := .epoch
  name := .text "Jane"
  email := .text email

theorem sample_filed (id email : String) : (sample id email).Filed id :=
  ⟨rfl, trivial, trivial, trivial, trivial, false, rfl⟩

/-- An address that was handed over in its form: any other spelling finds the user, and is taken. -/
theorem found_if_in_form_jane :
    Account.normalAddress (.text " Jane@Example.com ") = .ok (.text "jane@example.com") ∧
      byEmail? (addAll (.ofKind (.database false)) [sample "user_001" "jane@example.com"]).1
          (.text " Jane@Example.com ") = .ok (some (sample "user_001" "jane@example.com").kept) ∧
      add (addAll (.ofKind (.database false)) [sample "user_001" "jane@example.com"]).1
          (sample "user_002" " Jane@Example.com ") =
        .error (.refused (.emailTaken (.text " Jane@Example.com "))) := by
  have hform : ∀ t, Account.normalEmail t = "jane@example.com" →
      Account.normalAddress (.text t) = .ok (.text "jane@example.com") :=
    fun t ht => congrArg (fun t => Except.ok (Value.text t)) ht
  have hspaced := hform " Jane@Example.com " (by decide +kernel)
  have hown : Account.normalEmail "jane@example.com" = "jane@example.com" := by decide +kernel
  have hcreated : sample "user_001" "jane@example.com" ∈
      (addAll (.ofKind (.database false)) [sample "user_001" "jane@example.com"]).2 :=
    List.mem_cons_self
  have hids : ([sample "user_001" "jane@example.com"].map User.id).Nodup := List.nodup_singleton _
  obtain ⟨w, hw, hsame, -, hplain⟩ := found_if_in_form hids
    (fun u hu => ⟨_, List.mem_singleton.mp hu ▸ sample_filed _ _⟩) hcreated
  obtain rfl := Except.ok.inj ((hform _ hown).symm.trans hw)
  obtain ⟨hfound, hrefused⟩ := hsame ((hplain _ rfl fun _ => by decide +kernel).mpr hown)
  exact ⟨hspaced, hfound _ hspaced, hrefused _ hspaced⟩

/-- An address with large letters: it finds nobody, and somebody else gets it in small ones. -/
theorem mixed_case_not_found :
    Account.normalEmail "Jane@Example.com" = Account.normalEmail "jane@example.com" ∧
      (addAll (.ofKind .memory) [sample "user_001" "Jane@Example.com"]).2.length = 1 ∧
      byEmail? (addAll (.ofKind .memory) [sample "user_001" "Jane@Example.com"]).1
        (.text "Jane@Example.com") = .ok none ∧
      byEmail? (addAll (.ofKind .memory) [sample "user_001" "Jane@Example.com"]).1
        (.text "jane@example.com") = .ok none ∧
      (addAll (.ofKind .memory) [sample "user_001" "Jane@Example.com",
        sample "user_002" "jane@example.com"]).2.length = 2 := by
  refine ⟨by decide +kernel, by decide +kernel, ?_, ?_, by decide +kernel⟩
  · exact byEmail?_of_hasEmail (eq_ok_of_toOption (by decide +kernel))
  · exact byEmail?_of_hasEmail (eq_ok_of_toOption (by decide +kernel))

end UserBook
end LoanDesk
