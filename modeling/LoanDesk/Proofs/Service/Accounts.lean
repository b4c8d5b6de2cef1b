import LoanDesk.Proofs.Desk.Roll
import LoanDesk.Proofs.Service.Run

/-
# Accounts over whole runs

Callers register, see to it that users are there, log in and remove users, while the time moves.
Whatever has been done, no two users have the same address, whoever logs in is let in by address
and password alone, and a user who once came to be there is let in with the password of that time
as long as nobody removes the user.

Key definitions: `UserBook.all`, `Service.Errand`, `Service.Errand.work`, `Service.Errand.IsFair`,
`Service.Errand.enrols`, `Service.Moved`, `Service.attended`, `Service.Admits`, `Service.Orderly`.
Key theorems: `Service.roll_step`, `Service.roll_attended`, `Service.orderly_of_roll`,
`Service.accounts_endure`, `Service.accounts_lost`.
-/

namespace LoanDesk

open Store Desk

namespace UserBook

/-- The users that records hold, read in order by `User.ofRecord`. -/
def readAll : List Value → Except Fault (List User)
  | [] => .ok []
  | v :: rest => do return (← User.ofRecord v) :: (← readAll rest)

/-- All users, in the order in which they came. -/
def all (s : Storage) : Except Fault (List User) := do
  readAll (← s.loadAll table)

theorem readAll_documents (us : List User) :
    readAll (us.map fun u => .record u.document) = .ok (us.map User.kept) := by
  induction us with
  | nil => rfl
  | cons u rest ih =>
    rw [List.map_cons, readAll, u.ofRecord_document, ih]
    rfl

end UserBook

namespace Desk.Roll

variable {kind : Storage.Kind} {d : Desk} {ts : Shelves} {us : Table String User}

/-- The users of the store are those of the roll. -/
theorem all (h : Roll kind d ts us) :
    UserBook.all d.storage = .ok (us.map fun p => p.2.kept) := by
  have hload : d.storage.loadAll UserBook.table = _ := h.keeps.shows.loadAll .users
  have hread := UserBook.readAll_documents (us.map (·.2))
  rw [List.map_map, List.map_map] at hread
  unfold UserBook.all
  rw [hload, UserBook.entries_documents h.documents, List.map_map]
  exact hread

/-- An id has a record if it is on the roll. -/
theorem has (h : Roll kind d ts us) (n : String) :
    d.storage.has UserBook.table (.text n) = .ok (us.has n) := by
  have hget : Table.get? (us.read id User.document) n = (us.get? n).map User.document :=
    Table.get?_read (isExact_string n) (isExact_string n) fun _ e => e
  refine (h.keeps.shows.has .users n).trans (congrArg Except.ok ?_)
  rw [Table.has_eq, Table.has_eq, h.documents, hget, Option.isSome_map]

end Desk.Roll

namespace Service

/-- An errand with accounts, with whatever is handed over: `register`, `login`, `ensureUser` or
`removeUser`, or a tick of the clock. -/
inductive Errand where
  | register (name email password : Value)
  | ensure (name email password : Value) (isAdmin : Bool)
  | login (email password : Value)
  | remove (id : Value)
  | tick (clock : Stamp)

namespace Errand

/-- The work of an errand, its answer aside. -/
def work : Errand → Work Unit
  | register name email password => do let _ ← Desk.register name email password
  | ensure name email password isAdmin => do
    let _ ← ensureUser name email password (.bool isAdmin)
  | login email password => do let _ ← Desk.login email password
  | remove id => do let _ ← removeUser id
  | tick clock => do let _ ← setClock clock

/-- What is handed over for a new user is a name and an address that the store keeps
(`Value.IsAddress`), and for one to be removed an id; and tokens can be given at the time that is
set. -/
def IsFair (kind : Storage.Kind) (tokens : Account.TokenTerms) : Errand → Prop
  | register _ email _ => email.IsAddress kind
  | ensure name email _ _ => name.IsText ∧ email.IsAddress kind
  | login _ _ => True
  | remove id => id.IsSpelt
  | tick clock => tokens.Issues clock

/-- The address and the password of a user who may come to be there by the errand. -/
def enrols : Errand → Option (Value × Value)
  | register _ email password => some (email, password)
  | ensure _ email password _ => some (email, password)
  | _ => none

end Errand

/-- What an errand makes of the roll: it stays, or a user joins it, or one is removed. -/
inductive Moved (hashing : Account.Hashing) (e : Errand) (us : Table String User) :
    Table String User → Prop
  | still : Moved hashing e us us
  | joined {email password : Value} {id : String} {u : User} :
      e.enrols = some (email, password) → u.IsNew hashing email password →
      Moved hashing e us (us ++ [(id, u)])
  | left {id : String} : e = .remove (.text id) → Moved hashing e us (us.erase id)

variable {kind : Storage.Kind} {d : Desk} {ts : Shelves} {us us' : Table String User} {e : Errand}

/-- A user stays on the roll unless the errand is to `.remove` the user. -/
theorem Moved.mem {hashing : Account.Hashing} (h : Moved hashing e us us') {p : String × User}
    (hp : p ∈ us) (he : e ≠ .remove (.text p.1)) : p ∈ us' := by
  cases h with
  | still => exact hp
  | joined => exact List.mem_append_left _ hp
  | @left n hn =>
    have hne : p.1 ≠ n := by
      rintro rfl
      exact he hn
    refine List.mem_filter.mpr ⟨hp, ?_⟩
    simpa using fun c => hne ((isExact_string n p.1).mp c)

/-- What comes of an errand is what comes of its work, whatever is answered. -/
theorem ends_errand {α : Type} {w : Work α} {Q : Desk → Prop} (h : d.Ends w fun _ d' => Q d') :
    Q (d.perform (do let _ ← w : Work Unit)).2 := by
  have hends : d.Ends (do let _ ← w : Work Unit) fun _ d' => Q d' :=
    h.bind (fun _ _ hq => hq) fun _ _ hq => hq
  exact hends

theorem moved_of_joins {email password : Value} {d' : Desk}
    (h : Joins kind d.terms.hashing us email password d') (he : e.enrols = some (email, password)) :
    ∃ ts' us', Roll kind d' ts' us' ∧ Moved d.terms.hashing e us us' := by
  cases h with
  | stays hroll => exact ⟨_, _, hroll, .still⟩
  | joins hroll hnew => exact ⟨_, _, hroll, .joined he hnew⟩

/-- An errand moves the roll as `Moved` says, and leaves the terms. -/
theorem roll_step (h : Roll kind d ts us) (he : e.IsFair kind d.terms.tokens) :
    (∃ ts' us', Roll kind (d.perform e.work).2 ts' us' ∧ Moved d.terms.hashing e us us') ∧
      (d.perform e.work).2.terms = d.terms := by
  have hsteady : ∀ {α : Type} {w : Work α}, IsSteady w →
      (d.perform (do let _ ← w : Work Unit)).2.terms = d.terms := fun hw =>
    ((hw.bind fun _ => (IsLook.pure ()).isSteady) d).2
  cases e with
  | register name email password =>
    exact ⟨ends_errand ((h.register name he password).mono fun _ _ hd =>
      moved_of_joins hd rfl), hsteady (isSteady_register name email password)⟩
  | ensure name email password isAdmin =>
    exact ⟨ends_errand ((h.ensureUser he.1 he.2 password isAdmin).mono fun _ _ hd =>
      moved_of_joins hd rfl), hsteady (isSteady_ensureUser name email password _)⟩
  | login email password =>
    have hlook : d.Ends (Desk.login email password) fun _ d' => d' = d :=
      .intro ((isLook_login email password).eq d) rfl
    have hsame := ends_errand (Q := fun d' => d' = d) hlook
    exact ⟨⟨ts, us, hsame.symm ▸ h, .still⟩, hsteady (isLook_login email password).isSteady⟩
  | remove v =>
    have hmoved : d.Ends (Desk.removeUser v) fun _ d' =>
        ∃ ts' us', Roll kind d' ts' us' ∧ Moved d.terms.hashing (.remove v) us us' := by
      refine (h.removeUser he).mono fun _ d' hd => ?_
      obtain ⟨ts', hroll | ⟨n, rfl, hroll⟩⟩ := hd
      · exact ⟨ts', us, hroll, .still⟩
      · exact ⟨ts', _, hroll, .left rfl⟩
    exact ⟨ends_errand hmoved, hsteady (.changing _)⟩
  | tick clock =>
    exact ⟨⟨ts, us, ⟨h.keeps.of_same rfl rfl le_rfl, h.documents, h.filed, h.accounts, h.distinct,
      h.kind, h.hashing, he⟩, .still⟩, rfl⟩

/-- A desk after errands, one after the other. -/
def attended (d : Desk) (errands : List Errand) : Desk :=
  errands.foldl (fun d e => (d.perform e.work).2) d

theorem attended_append (d : Desk) (before after : List Errand) :
    attended d (before ++ after) = attended (attended d before) after :=
  List.foldl_append

/-- Errands keep the `Roll`, and everybody on it who is not removed. -/
theorem roll_attended (h : Roll kind d ts us) (errands : List Errand)
    (he : ∀ e ∈ errands, e.IsFair kind d.terms.tokens) :
    ∃ ts' us', Roll kind (attended d errands) ts' us' ∧ (attended d errands).terms = d.terms ∧
      ∀ p ∈ us, (∀ e ∈ errands, e ≠ .remove (.text p.1)) → p ∈ us' := by
  induction errands generalizing d ts us with
  | nil => exact ⟨ts, us, h, rfl, fun p hp _ => hp⟩
  | cons e rest ih =>
    obtain ⟨⟨ts₁, us₁, hroll, hmoved⟩, hterms⟩ := roll_step h (he e List.mem_cons_self)
    obtain ⟨ts', us', hroll', hterms', hstay⟩ := ih hroll fun x hx =>
      hterms.symm ▸ he x (List.mem_cons_of_mem e hx)
    refine ⟨ts', us', hroll', hterms'.trans hterms, fun p hp hkept => ?_⟩
    exact hstay p (hmoved.mem hp (hkept e List.mem_cons_self)) fun x hx =>
      hkept x (List.mem_cons_of_mem e hx)

/-- Who has come to be on the roll by an errand is the one whom it `enrols`. -/
theorem exists_enrolled (h : Roll kind d ts us) (he : e.IsFair kind d.terms.tokens)
    {email password : Value} (henrols : e.enrols = some (email, password)) {n : String}
    (habsent : d.storage.has UserBook.table (.text n) = .ok false)
    (hpresent : (d.perform e.work).2.storage.has UserBook.table (.text n) = .ok true) :
    ∃ ts' us' u, Roll kind (d.perform e.work).2 ts' us' ∧ (n, u) ∈ us' ∧
      u.IsNew d.terms.hashing email password := by
  obtain ⟨⟨ts', us', hroll, hmoved⟩, -⟩ := roll_step h he
  rw [h.has] at habsent
  rw [hroll.has] at hpresent
  cases hmoved with
  | still =>
    rw [habsent] at hpresent
    cases hpresent
  | @joined email' password' id u henrols' hnew =>
    obtain ⟨rfl, rfl⟩ := Prod.mk.inj (Option.some.inj (henrols.symm.trans henrols'))
    refine ⟨ts', _, u, hroll, ?_, hnew⟩
    have hid : id = n := by
      by_contra hne
      have hpresent := Except.ok.inj hpresent
      rw [Table.has_eq, Table.get?_append_of_ne (isExact_string n) hne] at hpresent
      rw [Table.has_eq, hpresent] at habsent
      cases habsent
    rw [hid]
    exact List.mem_append_right _ List.mem_cons_self
  | left hremove =>
    rw [hremove] at henrols
    cases henrols

/-- A password that opens an account is a text in its one spelling. -/
theorem isSpelt_of_opens {hashing : Account.Hashing} {password : Value} {u : User}
    (h : u.Opens hashing password) : password.IsSpelt := by
  obtain ⟨digest, hdigest, -⟩ := h
  obtain ⟨p, hp, -⟩ := bind_eq_ok hdigest
  cases password with
  | text s => trivial
  | _ => cases hp

/-- The desk lets somebody in with an address and a password, as the user with an id: `login` gives
a pass. -/
def Admits (d : Desk) (email password id : Value) : Prop :=
  ∃ pass, (d.perform (Desk.login email password)).1 = .ok pass ∧ pass.user.id = id

/-- The users of the desk have addresses in their form, all different; logging in changes nothing;
and an address and a password let in as a user if the user has the form of the address, and the
digest that the password comes to with the salt of the user. -/
structure Orderly (hashing : Account.Hashing) (d : Desk) (us : List User) : Prop where
  users : UserBook.all d.storage = .ok us
  distinct : (us.map User.email).Nodup
  normal : ∀ u ∈ us, Account.normalAddress u.email = .ok u.email
  unchanged : ∀ email password, (d.perform (Desk.login email password)).2 = d
  admits : ∀ {email password form id : Value}, email.IsSpelt → password.IsSpelt →
    Account.normalAddress email = .ok form →
    (Admits d email password id ↔ ∃ u ∈ us, u.email = form ∧ u.Opens hashing password ∧ u.id = id)

theorem admits_of_mem (h : Roll kind d ts us) {p : String × User} (hp : p ∈ us)
    {email password : Value} (hemail : email.IsSpelt)
    (hform : Account.normalAddress email = .ok p.2.email)
    (hopens : p.2.Opens d.terms.hashing password) : Admits d email password (.text p.1) := by
  obtain ⟨pass, hpass, huser⟩ :=
    (h.login hemail hform (isSpelt_of_opens hopens)).1 p hp rfl hopens
  exact ⟨pass, hpass, huser ▸ (h.filed p hp).kept_id⟩

/-- A desk with a `Roll` is `Orderly`. -/
theorem orderly_of_roll (h : Roll kind d ts us) :
    Orderly d.terms.hashing d (us.map fun p => p.2.kept) where
  users := h.all
  distinct := by
    have hsame : us.map (User.email ∘ fun p => p.2.kept) = us.map fun p => p.2.email :=
      List.map_congr_left fun p hp => (h.accounts p hp).kept.1
    rw [List.map_map, hsame]
    exact h.distinct
  normal := by
    intro u hu
    obtain ⟨p, hp, rfl⟩ := List.mem_map.mp hu
    rw [(h.accounts p hp).kept.1]
    exact (h.accounts p hp).normal
  unchanged email password := congrArg Prod.snd ((isLook_login email password).eq d)
  admits := by
    intro email password form id hemail hpassword hform
    constructor
    · rintro ⟨pass, hpass, rfl⟩
      obtain ⟨p, hp, rfl, hopens, huser⟩ := (h.login hemail hform hpassword).2 pass hpass
      exact ⟨p.2.kept, List.mem_map_of_mem hp, (h.accounts p hp).kept.1,
        (h.accounts p hp).opens_kept.mpr hopens, huser ▸ rfl⟩
    · rintro ⟨u, hu, rfl, hopens, rfl⟩
      obtain ⟨p, hp, rfl⟩ := List.mem_map.mp hu
      rw [(h.accounts p hp).kept.1] at hform
      rw [(h.filed p hp).kept_id]
      exact admits_of_mem h hp hemail hform ((h.accounts p hp).opens_kept.mp hopens)

theorem roll_opening (kind : Storage.Kind) {terms : Terms} {clock : Stamp}
    (hplain : terms.hashing.IsPlain) (hissues : terms.tokens.Issues clock) :
    Roll kind (System.opening kind terms clock).desk (fun _ => []) [] :=
  ⟨keeps_opening kind terms clock, rfl, by simp, by simp, List.nodup_nil,
    by cases kind <;> rfl, hplain, hissues⟩

/-- Whoever came to be on the roll by an errand is let in with the password of that time, by every
address of the same form, if no later errand is to remove the user. -/
theorem admits_enrolled (h : Roll kind d ts us) {before after : List Errand}
    (hfair : ∀ x ∈ before ++ e :: after, x.IsFair kind d.terms.tokens)
    {email₀ email password : Value} (henrols : e.enrols = some (email₀, password)) {id : String}
    (habsent : (attended d before).storage.has UserBook.table (.text id) = .ok false)
    (hpresent : (attended d (before ++ [e])).storage.has UserBook.table (.text id) = .ok true)
    (hkept : ∀ x ∈ after, x ≠ .remove (.text id)) (hemail : email.IsSpelt)
    (hform : Account.normalAddress email = Account.normalAddress email₀) :
    Admits (attended d (before ++ e :: after)) email password (.text id) := by
  obtain ⟨ts₁, us₁, hroll₁, hterms₁, -⟩ :=
    roll_attended h before fun x hx => hfair x (List.mem_append_left _ hx)
  have he : e.IsFair kind (attended d before).terms.tokens :=
    hterms₁.symm ▸ hfair e (List.mem_append_right _ List.mem_cons_self)
  have hlast : ((attended d before).perform e.work).2 = attended d (before ++ [e]) :=
    (attended_append d before [e]).symm
  have hterms₂ : (attended d (before ++ [e])).terms = d.terms :=
    hlast ▸ (roll_step hroll₁ he).2.trans hterms₁
  obtain ⟨ts₂, us₂, u, hroll₂, hu, hnew⟩ :=
    exists_enrolled hroll₁ he henrols habsent (hlast.symm ▸ hpresent)
  rw [hlast] at hroll₂
  obtain ⟨ts₃, us₃, hroll₃, hterms₃, hstay⟩ := roll_attended hroll₂ after fun x hx =>
    hterms₂.symm ▸ hfair x (List.mem_append_right _ (List.mem_cons_of_mem e hx))
  have hall : attended (attended d (before ++ [e])) after = attended d (before ++ e :: after) := by
    rw [← attended_append, List.append_assoc, List.singleton_append]
  rw [hall] at hroll₃ hterms₃
  refine admits_of_mem hroll₃ (hstay (id, u) hu hkept) hemail (hform.trans hnew.address) ?_
  rw [hterms₃, hterms₂, ← hterms₁]
  exact hnew.opens

/-- Whatever errands are done at a desk that opens empty, with digests that are plain texts and at
times at which tokens can be given: the desk is orderly, and whoever has come to be there by
registering, or by being ensured, is let in with the password of that time by every address of the
same form, as long as nobody removes the user. -/
theorem accounts_endure (kind : Storage.Kind) {terms : Terms} {clock : Stamp}
    (hplain : terms.hashing.IsPlain) (hissues : terms.tokens.Issues clock) {errands : List Errand}
    (he : ∀ e ∈ errands, e.IsFair kind terms.tokens) :
    (∃ us, Orderly terms.hashing (attended (System.opening kind terms clock).desk errands) us) ∧
    ∀ (before after : List Errand) (e : Errand) (email₀ password₀ : Value) (id : String),
      errands = before ++ e :: after → e.enrols = some (email₀, password₀) →
      (attended (System.opening kind terms clock).desk before).storage.has UserBook.table
        (.text id) = .ok false →
      (attended (System.opening kind terms clock).desk (before ++ [e])).storage.has UserBook.table
        (.text id) = .ok true →
      (∀ x ∈ after, x ≠ .remove (.text id)) →
      ∀ email : Value, email.IsSpelt →
        Account.normalAddress email = Account.normalAddress email₀ →
        Admits (attended (System.opening kind terms clock).desk errands) email password₀
          (.text id) := by
  have hopening := roll_opening kind hplain hissues
  constructor
  · obtain ⟨ts, us, hroll, hterms, -⟩ := roll_attended hopening errands he
    have hsame : terms.hashing =
        (attended (System.opening kind terms clock).desk errands).terms.hashing := by
      rw [hterms]
      rfl
    rw [hsame]
    exact ⟨_, orderly_of_roll hroll⟩
  · rintro before after e email₀ password₀ id rfl henrols habsent hpresent hkept email hemail hform
    exact admits_enrolled hopening he henrols habsent hpresent hkept hemail hform

/-- Somebody registers; then somebody else is to be ensured by another spelling of the address. -/
def arrivals : List Errand :=
  [.register (.text "Ann") (.text " Ann@Example.com ") (.text "secret1"),
    .ensure (.text "Bob") (.text "ANN@EXAMPLE.COM") (.text "secret2") true]

theorem accounts_endure_arrivals :
    visitedTerms.hashing.IsPlain ∧ visitedTerms.tokens.Issues .epoch ∧
      (∀ e ∈ arrivals, e.IsFair .memory visitedTerms.tokens) ∧
      (∃ us, us.length = 1 ∧ Orderly visitedTerms.hashing
        (attended (System.opening .memory visitedTerms .epoch).desk arrivals) us) ∧
      Admits (attended (System.opening .memory visitedTerms .epoch).desk arrivals)
        (.text "ann@example.com") (.text "secret1") (.text "id-1") := by
  have hplain : visitedTerms.hashing.IsPlain := Account.scryptHashing_isPlain
  have hissues : visitedTerms.tokens.Issues .epoch := fun _ => ⟨_, rfl⟩
  have hfair : ∀ e ∈ arrivals, e.IsFair .memory visitedTerms.tokens := by
    intro e he
    simp only [arrivals, List.mem_cons, List.not_mem_nil, or_false] at he
    rcases he with rfl | rfl
    · exact ⟨trivial, fun _ => trivial, fun h => absurd rfl h⟩
    · exact ⟨trivial, trivial, fun _ => trivial, fun h => absurd rfl h⟩
  have hone : (UserBook.all (attended (System.opening .memory visitedTerms .epoch).desk
      arrivals).storage).toOption.map List.length = some 1 := by
    decide +kernel
  have habsent : (attended (System.opening .memory visitedTerms .epoch).desk []).storage.has
      UserBook.table (.text "id-1") = .ok false := rfl
  have hpresent : (attended (System.opening .memory visitedTerms .epoch).desk
      ([] ++ [.register (.text "Ann") (.text " Ann@Example.com ") (.text "secret1")])).storage.has
        UserBook.table (.text "id-1") = .ok true :=
    eq_ok_of_toOption (by decide +kernel)
  have hform : Account.normalAddress (.text "ann@example.com") =
      Account.normalAddress (.text " Ann@Example.com ") :=
    congrArg (fun s => Except.ok (Value.text s)) (by decide +kernel :
      Account.normalEmail "ann@example.com" = Account.normalEmail " Ann@Example.com ")
  obtain ⟨⟨us, hus⟩, hstays⟩ := accounts_endure .memory hplain hissues hfair
  have hlength := hus.users ▸ hone
  refine ⟨hplain, hissues, hfair, ⟨us, Option.some.inj hlength, hus⟩, ?_⟩
  refine hstays [] _ _ _ _ "id-1" rfl rfl habsent hpresent ?_ _ trivial hform
  rintro e he rfl
  cases List.mem_singleton.mp he

/-- An address in which a half stands before the half that completes it. -/
def splitAddress : Value :=
  .torn (splitPair ++ [.char '@', .char 'x'])

/-- In memory, whoever registers with halves that stand together in the address is not let in with
it: the address is stored with a character in their place. And it is free to be registered again. -/
theorem accounts_lost :
    let d := attended (System.opening .memory visitedTerms .epoch).desk
      [.register (.text "Ann") splitAddress (.text "secret1")]
    d.storage.has UserBook.table (.text "id-1") = .ok true ∧
      (UserBook.all d.storage).toOption.map (List.map fun u => u.email.same (.text "😀@x")) =
        some [true] ∧
      ¬ Admits d splitAddress (.text "secret1") (.text "id-1") ∧
      (d.perform (Errand.register (.text "Ann") splitAddress (.text "secret1")).work
        ).2.storage.has UserBook.table (.text "id-2") = .ok true := by
  refine ⟨eq_ok_of_toOption (by decide +kernel), by decide +kernel, ?_,
    eq_ok_of_toOption (by decide +kernel)⟩
  rintro ⟨pass, hpass, -⟩
  have hnone : (((attended (System.opening .memory visitedTerms .epoch).desk
      [.register (.text "Ann") splitAddress (.text "secret1")]).perform
        (Desk.login splitAddress (.text "secret1"))).1).toOption.isNone = true := by
    decide +kernel
  rw [hpass] at hnone
  cases hnone

end Service
end LoanDesk
