import LoanDesk.Desk.Opening
import LoanDesk.Proofs.Desk.Book

/-
# Accounts keep a desk in order

Whoever is enrolled is on file under a new id and with the rights that were meant; nothing
else is changed but counters, and nothing at all by logging in. A pass is given to users on
file only.

Key definitions: `Desk.Resident`, `Desk.Keeps.Enrols`, `Desk.Keeps.Registers`.
Key theorems: `Desk.Keeps.newUser`, `Desk.Keeps.addUser`, `Desk.Keeps.register`,
`Desk.Keeps.ensureUser`, `Desk.Keeps.seed`, `Desk.isLook_login`, `Desk.Keeps.login_ok`.
-/

namespace LoanDesk
namespace Desk

open Store

variable {R : Rule} {d : Desk} {ts : Shelves} {id : String} {α : Type}

/-- A user who can be put on file by `addUser`, under an id that is any text of characters. -/
structure Resident where
  id : String
  user : User
  filed : user.Filed id

/-- A user of a first visit. -/
def visitor : Resident where
  id := "ann"
  user := {
    id := .text "ann"
    created := .epoch
    updated := .epoch
    name := .text "Ann"
    email := .text "ann@example.com" }
  filed := ⟨rfl, trivial, trivial, trivial, trivial, false, rfl⟩

/-- Noon of a day in universal time. -/
def noonOf (date : Date) : Stamp :=
  { Stamp.midnight date (some Offset.zero) with hour := ⟨12, by decide⟩ }

/-- The terms of the desk that is visited. -/
def visitedTerms : Terms where
  tokens := { secret := .text "secret" }

/-! ### Work that only looks -/

theorem isLook_issueToken (u : User) : IsLook (issueToken u) :=
  .bind .get fun _ => .bind .now fun _ => .lifted _

theorem isLook_passFor (u : User) : IsLook (passFor u) :=
  .bind (isLook_issueToken u) fun _ => .pure _

theorem isLook_passwordFits (u : User) (password : Value) : IsLook (passwordFits u password) :=
  .bind .get fun _ => .lifted _

theorem isLook_login (email password : Value) : IsLook (login email password) := by
  refine .bind (.reading _) fun u => ?_
  cases u with
  | none => exact .lifted _
  | some u =>
    refine .bind (isLook_passwordFits u _) fun fits => ?_
    cases fits with
    | true => exact isLook_passFor u
    | false => exact .lifted (refuse .credentialsWrong)

/-- A pass is the user with a token of the time: `passFor` has nothing else to do. -/
theorem perform_passFor (d : Desk) (u : User) : d.perform (passFor u) =
    ((Account.Token.issue d.terms.tokens u d.clock).map fun token => ⟨u, token⟩, d) := by
  have hissue : d.perform (issueToken u) = (Account.Token.issue d.terms.tokens u d.clock, d) := by
    unfold issueToken
    rw [perform_bind_ok (perform_get d), perform_bind_ok (perform_now d), perform_lifted]
  unfold passFor
  rw [perform_bind, hissue]
  cases Account.Token.issue d.terms.tokens u d.clock <;> rfl

theorem passFor_ok {u : User} {pass : Account.Pass} (h : (d.perform (passFor u)).1 = .ok pass) :
    pass.user = u := by
  rw [perform_passFor] at h
  obtain ⟨token, -, rfl⟩ := map_eq_ok h
  rfl

/-! ### The clock and the terms stay -/

theorem isSteady_newUser (name email password isAdmin : Value) :
    IsSteady (newUser name email password isAdmin) := by
  refine .bind IsLook.now.isSteady fun created => .bind .freshSalt fun salt => ?_
  refine .bind .freshId fun id => .bind (IsLook.lifted _).isSteady fun address => ?_
  exact .bind IsLook.get.isSteady fun d => .bind (IsLook.lifted _).isSteady fun digest =>
    (IsLook.pure _).isSteady

theorem isSteady_addUser (u : User) : IsSteady (addUser u) :=
  .bind (.writing _) fun _ => (IsLook.pure u).isSteady

theorem isSteady_ensureUser (name email password isAdmin : Value) :
    IsSteady (ensureUser name email password isAdmin) := by
  refine .bind (IsLook.reading _).isSteady fun found => ?_
  cases found with
  | some u => exact (IsLook.pure u).isSteady
  | none => exact .bind (isSteady_newUser name email password isAdmin) fun u => isSteady_addUser u

theorem isSteady_register (name email password : Value) :
    IsSteady (register name email password) := by
  have henrol : IsSteady (do
      let u ← Desk.newUser (← lifted (trimmedText name)) email password (.bool false)
      let u ← Desk.addUser u
      passFor u) := by
    refine .bind (IsLook.lifted _).isSteady fun trimmed => ?_
    refine .bind (isSteady_newUser trimmed email password _) fun u => ?_
    exact .bind (isSteady_addUser u) fun v => (isLook_passFor v).isSteady
  have hrefuse : ∀ r, IsSteady (lifted (refuse r) : Work Account.Pass) :=
    fun r => (IsLook.lifted (refuse r)).isSteady
  have hchecked : ∀ after : Option Refusal → Work Account.Pass, IsSteady (after none) →
      (∀ r, IsSteady (after (some r))) → IsSteady (do
        after (← lifted (registrationFlaw? name email password (← get).terms.passwordLeast))) := by
    intro after hnone hsome
    refine .bind IsLook.get.isSteady fun d => .bind (IsLook.lifted _).isSteady fun flaw => ?_
    cases flaw with
    | none => exact hnone
    | some r => exact hsome r
  unfold Desk.register
  split
  · refine .bind (IsLook.reading _).isSteady fun taken => ?_
    cases taken with
    | true =>
      refine .bind (IsLook.lifted _).isSteady fun address => ?_
      exact .bind (IsLook.lifted _).isSteady fun _ => hchecked _ henrol hrefuse
    | false => exact hchecked _ henrol hrefuse
  · exact hchecked _ henrol hrefuse

/-- What comes of `register`: a fault before anything is done, or what comes of enrolling with the
trimmed name. -/
theorem ends_register {name email password : Value} {Q : Except Fault Account.Pass → Desk → Prop}
    (hfail : ∀ f, Q (.error f) d)
    (henrol : ∀ trimmed, trimmedText name = .ok trimmed → d.Ends (do
      let u ← newUser trimmed email password (.bool false)
      let u ← addUser u
      passFor u) Q) :
    d.Ends (register name email password) Q := by
  -- What follows the check of the address, which is made or not.
  have hrest : ∀ k : Option Refusal → Work Account.Pass,
      (∀ r, k (some r) = lifted (refuse r)) →
      (k none = do
        let u ← newUser (← lifted (trimmedText name)) email password (.bool false)
        let u ← addUser u
        passFor u) →
      d.Ends (do
        let flaw ← lifted (registrationFlaw? name email password (← get).terms.passwordLeast)
        k flaw) Q := by
    intro k hsome hnone
    refine .look .get (fun d₀ _ => ?_) hfail
    refine .look (.lifted _) (fun flaw _ => ?_) hfail
    cases flaw with
    | some r =>
      rw [hsome]
      exact .intro (perform_lifted d (refuse r)) (hfail (.refused r))
    | none =>
      rw [hnone]
      refine .look (.lifted _) (fun trimmed htrimmed => ?_) hfail
      rw [perform_lifted] at htrimmed
      exact henrol trimmed htrimmed
  unfold register
  split
  · refine .look (.reading _) (fun taken _ => ?_) hfail
    cases taken with
    | true =>
      refine .look (.lifted _) (fun address _ => ?_) hfail
      exact .look (.lifted _) (fun _ _ => hrest _ (fun _ => rfl) rfl) hfail
    | false => exact hrest _ (fun _ => rfl) rfl
  · exact hrest _ (fun _ => rfl) rfl

/-! ### A new user -/

theorem onText_isText {whole : String → String} {torn : Text.Torn → Text.Torn} {v w : Value}
    (h : Account.onText whole torn v = .ok w) : w.IsText := by
  cases v with
  | text s =>
    obtain rfl := Except.ok.inj h
    trivial
  | torn t =>
    obtain rfl := Except.ok.inj h
    trivial
  | _ => cases h

/-- A new user is on file under a new id, by the name and with the rights that were meant; all that
changes are counters. -/
theorem ends_newUser {name : Value} (hname : name.IsText) (email password : Value)
    (isAdmin : Bool) :
    d.Ends (newUser name email password (.bool isAdmin)) fun x d' =>
      d' = { d with salts := d.salts + 1, ids := d.ids + 1 } ∧
      ∀ u, x = .ok u → u.Filed (idOf (d.ids + 1)) ∧ u.isAdmin = .bool isAdmin ∧ u.name = name := by
  unfold newUser
  refine .next (perform_now d) (.next (perform_freshSalt d) (.next (perform_freshId _) ?_))
  refine .look (.lifted _) (fun address haddress => ?_) fun f => ⟨rfl, nofun⟩
  refine .look .get (fun d₀ hd₀ => ?_) fun f => ⟨rfl, nofun⟩
  refine .look (.lifted _) (fun digest _ => ?_) fun f => ⟨rfl, nofun⟩
  rw [perform_lifted] at haddress
  refine ⟨rfl, fun u hu => ?_⟩
  obtain rfl := Except.ok.inj hu
  exact ⟨⟨rfl, hname, onText_isText haddress, trivial, trivial, isAdmin, rfl⟩, rfl, rfl⟩

namespace Keeps

/-! ### Logging in -/

/-- A user who is found by `UserBook.byEmail?` is on file. -/
theorem filed_of_byEmail? (h : d.Keeps R ts) {email : Value} {u : User}
    (hu : UserBook.byEmail? d.storage email = .ok (some u)) : ∃ id, u.Filed id := by
  obtain ⟨address, -, hu⟩ := bind_eq_ok hu
  obtain ⟨vs, hfind, hu⟩ := bind_eq_ok hu
  cases vs with
  | nil => cases hu
  | cons v rest =>
    obtain ⟨⟨fs, hfs, rfl⟩, -⟩ :=
      h.shows.find_meets (t := .users) hfind v List.mem_cons_self
    obtain ⟨p, hp, rfl⟩ := List.mem_map.mp hfs
    obtain ⟨-, x, hx, hdoc⟩ := h.users p hp
    obtain ⟨y, hread, hu⟩ := bind_eq_ok hu
    rw [hdoc, x.ofRecord_document] at hread
    obtain rfl := Except.ok.inj hread
    obtain rfl := Option.some.inj (Except.ok.inj hu)
    exact ⟨p.1, hx.kept⟩

/-- Whoever gets a pass by `login` is on file. -/
theorem login_ok (h : d.Keeps R ts) {email password : Value} {pass : Account.Pass}
    (hp : (d.perform (login email password)).1 = .ok pass) : ∃ id, pass.user.Filed id := by
  unfold login at hp
  obtain ⟨found, hfound, hp⟩ := (IsLook.reading _).bind_ok hp
  rw [perform_reading] at hfound
  cases found with
  | none =>
    rw [perform_lifted] at hp
    cases hp
  | some u =>
    obtain ⟨fits, -, hp⟩ := (isLook_passwordFits u _).bind_ok hp
    cases fits with
    | true =>
      rw [passFor_ok hp]
      exact h.filed_of_byEmail? hfound
    | false =>
      have hrefuse : (d.perform (lifted (refuse .credentialsWrong))).1 = .ok pass := hp
      rw [perform_lifted] at hrefuse
      cases hrefuse

/-! ### Enrolling -/

/-- What a desk comes to by enrolling a user: nothing is new but counters, or there is a user under
the id given out last. -/
inductive Enrols (R : Rule) (d : Desk) (ts : Shelves) (isAdmin : Bool) (d' : Desk) : Prop
  | none : d'.storage = d.storage → d.ids ≤ d'.ids → d'.Keeps R ts → Enrols R d ts isAdmin d'
  | enrolled {u : User} : u.Filed (idOf d'.ids) → u.isAdmin = .bool isAdmin →
      d'.storage.Follows d.storage .users → d.ids < d'.ids →
      d'.Keeps R (Function.update ts .users ((ts .users).put (idOf d'.ids) u.document)) →
      Enrols R d ts isAdmin d'

/-- A new user is on file under a new id; all that changes are counters. -/
theorem newUser (h : d.Keeps R ts) {name : Value} (hname : name.IsText) (email password : Value)
    (isAdmin : Bool) :
    d.Ends (newUser name email password (.bool isAdmin)) fun x d' =>
      d'.storage = d.storage ∧ d.ids < d'.ids ∧ d'.Keeps R ts ∧
      ∀ u, x = .ok u → u.Filed (idOf d'.ids) ∧ u.isAdmin = .bool isAdmin := by
  have hids : d.ids < d.ids + 1 := Nat.lt_succ_self d.ids
  refine (ends_newUser hname email password isAdmin).mono ?_
  rintro x _ ⟨rfl, hu⟩
  exact ⟨rfl, hids, h.of_same rfl rfl hids.le, fun u hx => ⟨(hu u hx).1, (hu u hx).2.1⟩⟩

/-- A user is put on file, if the address is free. -/
theorem addUser (h : d.Keeps R ts) {u : User} {id : String} (hu : u.Filed id)
    (hid : R.user d.ids id) :
    d.Ends (addUser u) fun x d' => (∀ v, x = .ok v → v = u) ∧
      ∃ s, d' = { d with storage := s } ∧ (s = d.storage ∨ s.Follows d.storage .users ∧
        d'.Keeps R (Function.update ts .users ((ts .users).put id u.document))) := by
  unfold Desk.addUser
  have hwrite : d.Ends (writing fun s => UserBook.add s u) fun _ d' =>
      ∃ s, d' = { d with storage := s } ∧ (s = d.storage ∨ s.Follows d.storage .users ∧
        d'.Keeps R (Function.update ts .users ((ts .users).put id u.document))) := by
    unfold Ends
    rw [perform_writing]
    cases hadd : UserBook.add d.storage u with
    | error f => exact ⟨d.storage, rfl, .inl rfl⟩
    | ok s' =>
      have hupdate : UserBook.update d.storage u = .ok s' := by
        obtain ⟨taken, -, hadd⟩ := bind_eq_ok hadd
        cases taken with
        | true => cases hadd
        | false => exact hadd
      obtain ⟨s, hsave, hshows, hfollows⟩ :=
        h.shows.save .users id hu.printable hu.printable.isWritable
      rw [← hu.id] at hsave
      obtain rfl := Except.ok.inj (hsave.symm.trans hupdate)
      exact ⟨s, rfl, .inr ⟨hfollows, h.putUser hu hid hshows⟩⟩
  refine hwrite.bind (fun _ d' h' => ⟨fun v hv => ?_, h'⟩) fun f d' h' => ⟨fun v hv => ?_, h'⟩
  · exact (Except.ok.inj hv).symm
  · cases hv

/-- A new user is enrolled, if the address is free. -/
theorem addNewUser {d' : Desk} (h : d'.Keeps R ts) (hs : d'.storage = d.storage)
    (hi : d.ids < d'.ids) {u : User} {isAdmin : Bool} (hu : u.Filed (idOf d'.ids))
    (hadmin : u.isAdmin = .bool isAdmin) :
    d'.Ends (Desk.addUser u) fun x d'' =>
      Enrols R d ts isAdmin d'' ∧ ∀ v, x = .ok v → v.Filed (idOf d'.ids) := by
  refine (h.addUser hu (R.issued _)).mono fun x d'' hx => ?_
  obtain ⟨hv, s, rfl, hput⟩ := hx
  refine ⟨?_, fun v hx => hv v hx ▸ hu⟩
  rcases hput with rfl | ⟨hfollows, hkeeps⟩
  · exact .none hs hi.le (h.withStorage h.shows)
  · exact .enrolled hu hadmin (hs ▸ hfollows) hi hkeeps

/-- Whoever is enrolled by `newUser` and `addUser` gets the rights that were meant, and is told of
as on file. -/
theorem enrol (h : d.Keeps R ts) {name : Value} (hname : name.IsText) (email password : Value)
    (isAdmin : Bool) {k : User → Work α} (hk : ∀ u, IsLook (k u)) {Q : α → Prop}
    (hQ : ∀ u id (d' : Desk) a, u.Filed id → (d'.perform (k u)).1 = .ok a → Q a) :
    d.Ends (do
      let u ← Desk.newUser name email password (.bool isAdmin)
      let u ← Desk.addUser u
      k u) fun x d' => Enrols R d ts isAdmin d' ∧ ∀ a, x = .ok a → Q a := by
  refine (h.newUser hname email password isAdmin).bind ?_ fun f d' hd =>
    ⟨.none hd.1 hd.2.1.le hd.2.2.1, fun a ha => by cases ha⟩
  rintro u d' ⟨hs, hi, hkeeps, hnew⟩
  obtain ⟨hu, hadmin⟩ := hnew u rfl
  refine (hkeeps.addNewUser hs hi hu hadmin).bind (fun v d'' hd => ?_) fun f d'' hd =>
    ⟨hd.1, fun a ha => by cases ha⟩
  have hv := hd.2 v rfl
  refine ⟨?_, fun a ha => hQ v _ d'' a hv ha⟩
  rw [hk v d'']
  exact hd.1

/-- What comes of registering: a user is enrolled without special rights, or nobody is; a pass is
of a user on file. -/
def Registers (R : Rule) (d : Desk) (ts : Shelves) (x : Except Fault Account.Pass)
    (d' : Desk) : Prop :=
  Enrols R d ts false d' ∧ ∀ pass, x = .ok pass → ∃ id, pass.user.Filed id

theorem register (h : d.Keeps R ts) (name email password : Value) :
    d.Ends (register name email password) (Registers R d ts) := by
  have hfail : ∀ f : Fault, Registers R d ts (.error f) d :=
    fun f => ⟨.none rfl le_rfl h, fun pass hp => by cases hp⟩
  refine ends_register hfail fun trimmed htrimmed => ?_
  refine h.enrol (onText_isText htrimmed) email password false isLook_passFor ?_
  exact fun u id d' pass hu hp => ⟨id, (passFor_ok hp).symm ▸ hu⟩

theorem ensureUser (h : d.Keeps R ts) {name : Value} (hname : name.IsText)
    (email password : Value) (isAdmin : Bool) :
    d.Ends (ensureUser name email password (.bool isAdmin)) fun _ d' =>
      Enrols R d ts isAdmin d' := by
  unfold Desk.ensureUser
  refine .look (.reading _) (fun found _ => ?_) fun _ => .none rfl le_rfl h
  cases found with
  | some u => exact .none rfl le_rfl h
  | none =>
    have hadd := h.enrol hname email password isAdmin (k := fun u => pure u) (fun u => .pure u)
      (Q := fun _ => True) fun _ _ _ _ _ _ => trivial
    simp only [bind_pure] at hadd
    exact hadd.mono fun _ _ hd => hd.1

theorem Enrols.keeps {isAdmin : Bool} {d' : Desk} (h : Enrols R d ts isAdmin d') :
    ∃ ts', d'.Keeps R ts' := by
  cases h with
  | none _ _ hkeeps => exact ⟨ts, hkeeps⟩
  | enrolled _ _ _ _ hkeeps => exact ⟨_, hkeeps⟩

/-- The users that are there from the start leave a desk in order, since each of them is the work of
`ensureUser`. -/
theorem seed (h : d.Keeps R ts) (s : Settings) :
    d.Ends (seed s) fun _ d' => ∃ ts', d'.Keeps R ts' := by
  have htext : ∀ name : String, (Value.text name).IsText := fun _ => trivial
  unfold Desk.seed
  split
  · refine (h.ensureUser (htext _) _ _ true).bind (fun u d' he => ?_) fun f d' he => he.keeps
    obtain ⟨ts', h'⟩ := he.keeps
    refine (h'.ensureUser (htext _) _ _ false).bind (fun u d'' he' => ?_) fun f d'' he' => he'.keeps
    exact he'.keeps
  · exact ⟨ts, h⟩

end Keeps
end Desk
end LoanDesk
