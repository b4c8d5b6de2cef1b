import LoanDesk.Proofs.Account.Lookup
import LoanDesk.Proofs.Desk.Accounts

/-
# The roll of users

Where all users have accounts, the roll is the list of them with their ids. Each address on it is
in its own form and stands there once, so that an address finds the user whose form it has or
nobody; and it lets in whoever knows a password whose digest, with the salt of that user, is the
one that is kept. A user who joins comes last, under a new id, with the form of the address and the
digest of the password that were handed over; and is turned away if somebody has that form already,
whatever was looked up before.

Key definitions: `Account.TokenTerms.Issues`, `Desk.Roll`, `Desk.Joins`.
Key theorems: `Desk.Roll.byEmail?`, `Desk.Roll.login`, `Desk.Roll.addUser`, `Desk.Roll.register`,
`Desk.Roll.ensureUser`, `Desk.Roll.removeUser`.
-/

namespace LoanDesk

open Store

/-- At this time every user can be given a token. -/
def Account.TokenTerms.Issues (terms : Account.TokenTerms) (now : Stamp) : Prop :=
  ∀ u : User, ∃ token, Account.Token.issue terms u now = .ok token

theorem Desk.orEmpty_of_isSpelt {v : Value} (h : v.IsSpelt) : Desk.orEmpty v = v := by
  unfold Desk.orEmpty
  cases v with
  | text s =>
    by_cases hs : s = ""
    · rw [hs]
      rfl
    · rw [if_pos (by simpa [Value.truthy] using hs)]
  | torn t => rfl
  | _ => exact h.elim

/-- A text that a database gives back as it is is one of characters. -/
theorem Store.IsFlat.exists_text {v : Value} (h : IsFlat v) (hv : v.IsText) :
    ∃ t, v = .text t ∧ upToZero t = t := by
  cases v with
  | text t => exact ⟨t, rfl, h⟩
  | torn t => exact h.elim
  | _ => exact hv.elim

namespace Desk

/-! ### The roll -/

/-- Users have ids that were given out; loans may be any. -/
def ledger : Rule where
  user := IsIssued
  loan _ := True
  issued := isIssued_self
  mono h hn := h.mono hn
  reviewed _ _ _ _ _ _ := trivial

/-- The desk is in order, and all its users have accounts, no two with the same address. -/
structure Roll (kind : Storage.Kind) (d : Desk) (ts : Shelves) (us : Table String User) :
    Prop where
  keeps : d.Keeps ledger ts
  documents : ts .users = us.read id User.document
  filed : ∀ p ∈ us, p.2.Filed p.1
  accounts : ∀ p ∈ us, p.2.IsAccount kind
  distinct : (us.map fun p => p.2.email).Nodup
  kind : d.storage.kind = kind
  hashing : d.terms.hashing.IsPlain
  issues : d.terms.tokens.Issues d.clock

namespace Roll

variable {kind : Storage.Kind} {d d' : Desk} {ts : Shelves} {us : Table String User} {v w : Value}

/-- The store lists the users of the roll (`UserBook.Lists`), and compares their addresses as they
are. -/
theorem lists (h : Roll kind d ts us) : UserBook.Lists d.storage us ∧
    ∀ p ∈ us, d.storage.kind.compared p.2.email = p.2.email := by
  rw [h.kind]
  have hflat : kind ≠ .memory → ∀ p ∈ us, ∃ t, p.2.email = .text t ∧ upToZero t = t :=
    fun hplace p hp => ((h.accounts p hp).flat hplace).exists_text (h.filed p hp).email
  refine ⟨⟨⟨ts, h.keeps.shows, h.documents⟩, h.filed, fun hplace p hp => ?_⟩, fun p hp => ?_⟩
  · obtain ⟨t, ht, -⟩ := hflat (h.kind ▸ hplace) p hp
    exact ⟨t, ht⟩
  · cases kind with
    | memory =>
      have hkept := (h.accounts p hp).sound.kept
      rwa [(h.filed p hp).email.recorded] at hkept
    | database inFile =>
      obtain ⟨t, ht, hzero⟩ := hflat (by simp) p hp
      rw [ht]
      exact Storage.Kind.compared_text fun _ => hzero

/-- Users with the same address are the same entry. -/
theorem eq_of_email (h : Roll kind d ts us) {p q : String × User} (hp : p ∈ us) (hq : q ∈ us)
    (he : p.2.email = q.2.email) : p = q :=
  List.inj_on_of_nodup_map h.distinct hp hq he

/-- An address finds the user who has its `normalAddress`, or nobody. -/
theorem byEmail? (h : Roll kind d ts us) (hv : v.IsSpelt)
    (hw : Account.normalAddress v = .ok w) :
    (∃ p ∈ us, p.2.email = w ∧ UserBook.byEmail? d.storage v = .ok (some p.2.kept)) ∨
    (∀ p ∈ us, p.2.email ≠ w) ∧ ∀ u, UserBook.byEmail? d.storage v ≠ .ok (some u) := by
  have htext := (hv.normalAddress hw).1.isText
  obtain ⟨hlists, hcompared⟩ := h.lists
  by_cases hask : d.storage.kind.Accepts w
  · have hsame : ∀ p ∈ us, (d.storage.kind.compared p.2.email).same w = true ↔ p.2.email = w :=
      fun p hp => by rw [hlists.same_iff htext hp, hcompared p hp]
    rw [hlists.byEmail? hw htext hask]
    cases hfound : us.find? fun p => (d.storage.kind.compared p.2.email).same w with
    | none =>
      refine .inr ⟨fun p hp he => ?_, fun u hu => by cases hu⟩
      exact List.find?_eq_none.mp hfound p hp ((hsame p hp).mpr he)
    | some p =>
      have hp := List.mem_of_find?_eq_some hfound
      have hemail := List.find?_some
        (p := fun p : String × User => (d.storage.kind.compared p.2.email).same w) hfound
      exact .inl ⟨p, hp, (hsame p hp).mp hemail, rfl⟩
  · refine .inr ⟨fun p hp he => hask ?_, fun u hu => ?_⟩
    · rw [h.kind]
      intro hplace t ht
      have hflat := (h.accounts p hp).flat hplace
      rw [he, ht] at hflat
      exact hflat.elim
    · exact hask (hlists.accepts_of_byEmail? hw hu)

/-- A database that was asked for an address was asked for a text of characters. -/
theorem isFlat_of_byEmail? (h : Roll kind d ts us) (hv : v.IsSpelt)
    (hw : Account.normalAddress v = .ok w) (hzero : w.HasNoZero) {found : Option User}
    (hu : UserBook.byEmail? d.storage v = .ok found) (hplace : kind ≠ .memory) : IsFlat w := by
  have hspelt := (hv.normalAddress hw).1
  have hask := h.lists.1.accepts_of_byEmail? hw hu
  rw [h.kind] at hask
  cases w with
  | text s => exact upToZero_eq_self hzero
  | torn t => exact absurd rfl (hask hplace t)
  | _ => exact hspelt.elim

/-! ### Logging in -/

theorem passFor_of_issues (h : d.terms.tokens.Issues d.clock) (u : User) :
    ∃ token, (d.perform (passFor u)).1 = .ok ⟨u, token⟩ := by
  obtain ⟨token, htoken⟩ := h u
  refine ⟨token, ?_⟩
  rw [perform_passFor, htoken]
  rfl

theorem perform_passwordFits (d : Desk) (u : User) (password : Value) :
    d.perform (passwordFits u password) =
      (d.terms.hashing.fits password u.passwordHash u.passwordSalt, d) := by
  unfold passwordFits
  rw [perform_bind_ok (perform_get d), perform_lifted]

/-- Whoever is found by an address is let in by `Desk.login` with the password of the account, and
nobody else. -/
theorem login (h : Roll kind d ts us) (hv : v.IsSpelt) (hw : Account.normalAddress v = .ok w)
    {password : Value} (hpassword : password.IsSpelt) :
    (∀ p ∈ us, p.2.email = w → p.2.Opens d.terms.hashing password →
      ∃ pass, (d.perform (Desk.login v password)).1 = .ok pass ∧ pass.user = p.2.kept) ∧
    ∀ pass, (d.perform (Desk.login v password)).1 = .ok pass →
      ∃ p ∈ us, p.2.email = w ∧ p.2.Opens d.terms.hashing password ∧ pass.user = p.2.kept := by
  unfold Desk.login
  rw [orEmpty_of_isSpelt hv, orEmpty_of_isSpelt hpassword]
  rcases h.byEmail? hv hw with ⟨q, hq, hemail, hfound⟩ | ⟨hnone, hfound⟩
  · have hp : d.perform (Desk.reading fun s => UserBook.byEmail? s v) =
        (.ok (some q.2.kept), d) := by
      rw [perform_reading, hfound]
    have hfits := (h.accounts q hq).fits d.terms.hashing password
    rw [perform_bind_ok hp]
    by_cases hopens : q.2.Opens d.terms.hashing password
    · have hok : d.perform (passwordFits q.2.kept password) = (.ok true, d) := by
        rw [perform_passwordFits, hfits.mpr hopens]
      obtain ⟨token, htoken⟩ := passFor_of_issues h.issues q.2.kept
      simp only [perform_bind_ok hok, if_true]
      refine ⟨fun p hp he _ => ⟨_, htoken, ?_⟩,
        fun pass hpass => ⟨q, hq, hemail, hopens, passFor_ok hpass⟩⟩
      rw [h.eq_of_email hp hq (he.trans hemail.symm)]
    · refine ⟨fun p hp he ho => ?_, fun pass hpass => ?_⟩
      · rw [h.eq_of_email hp hq (he.trans hemail.symm)] at ho
        exact absurd ho hopens
      · obtain ⟨fits, hfit, hpass⟩ := (isLook_passwordFits _ _).bind_ok hpass
        rw [perform_passwordFits] at hfit
        cases fits with
        | true => exact absurd (hfits.mp hfit) hopens
        | false =>
          have hrefuse : (d.perform (lifted (refuse .credentialsWrong))).1 = .ok pass := hpass
          rw [perform_lifted] at hrefuse
          cases hrefuse
  · refine ⟨fun p hp he => absurd he (hnone p hp), fun pass hpass => ?_⟩
    obtain ⟨found, hf, hpass⟩ := (IsLook.reading _).bind_ok hpass
    rw [perform_reading] at hf
    cases found with
    | some u => exact absurd hf (hfound u)
    | none =>
      rw [perform_lifted] at hpass
      cases hpass

/-! ### Joining -/

/-- Work that changes nothing but counters leaves the `Roll`. -/
theorem of_same (h : Roll kind d ts us) (hk : d'.Keeps ledger ts) (hs : d'.storage = d.storage)
    (hsteady : d'.clock = d.clock ∧ d'.terms = d.terms) : Roll kind d' ts us :=
  ⟨hk, h.documents, h.filed, h.accounts, h.distinct, hs ▸ h.kind, hsteady.2 ▸ h.hashing,
    hsteady.1 ▸ hsteady.2 ▸ h.issues⟩

end Roll

/-- What the roll comes to when somebody may have joined it with an address and a password: it is
what it was, or has one more user at its end. -/
inductive Joins (kind : Storage.Kind) (hashing : Account.Hashing) (us : Table String User)
    (email password : Value) (d' : Desk) : Prop
  | stays {ts : Shelves} : Roll kind d' ts us → Joins kind hashing us email password d'
  | joins {ts : Shelves} {id : String} {u : User} : Roll kind d' ts (us ++ [(id, u)]) →
      u.IsNew hashing email password → Joins kind hashing us email password d'

theorem newUser_isNew {d : Desk} (name email password isAdmin : Value) :
    d.Ends (newUser name email password isAdmin) fun x _ =>
      ∀ u, x = .ok u → u.IsNew d.terms.hashing email password := by
  have hfail : ∀ f : Fault, ∀ u, (.error f : Except Fault User) = .ok u →
      u.IsNew d.terms.hashing email password := by
    rintro f u ⟨⟩
  unfold newUser
  refine .next (perform_now d) (.next (perform_freshSalt d) (.next (perform_freshId _) ?_))
  refine .look (.lifted _) (fun address haddress => ?_) hfail
  refine .look .get (fun d₀ hd₀ => ?_) hfail
  refine .look (.lifted _) (fun digest hdigest => ?_) hfail
  rw [perform_lifted] at haddress hdigest
  obtain rfl := Except.ok.inj hd₀
  intro u hu
  obtain rfl := Except.ok.inj hu
  exact ⟨haddress, ⟨digest, hdigest, rfl⟩, _, rfl, by simp [Text.hexDigits]⟩

namespace Roll

variable {kind : Storage.Kind} {d d' : Desk} {ts : Shelves} {us : Table String User}
  {email password : Value} {id : String} {u : User}

/-- The roll with one more user, who has a new id and a free address. -/
theorem append (h : Roll kind d ts us) (hu : u.Filed id) (hid : IsIssued d.ids id)
    (hfresh : id ∉ (ts .users).ids) (haccount : u.IsAccount kind)
    (hfree : ∀ p ∈ us, p.2.email ≠ u.email) {s : Storage}
    (hshows : s.Shows (Function.update ts .users ((ts .users).put id u.document)))
    (hkind : s.kind = d.storage.kind) :
    Roll kind { d with storage := s }
      (Function.update ts .users ((ts .users).put id u.document)) (us ++ [(id, u)]) := by
  refine ⟨h.keeps.putUser hu hid hshows, ?_, ?_, ?_, ?_, hkind.trans h.kind, h.hashing, h.issues⟩
  · rw [Function.update_self, Table.put_of_not_mem (isExact_string id) hfresh, h.documents,
      Table.read_append]
    rfl
  · intro p hp
    rcases List.mem_append.mp hp with hp | hp
    · exact h.filed p hp
    · obtain rfl := List.mem_singleton.mp hp
      exact hu
  · intro p hp
    rcases List.mem_append.mp hp with hp | hp
    · exact h.accounts p hp
    · obtain rfl := List.mem_singleton.mp hp
      exact haccount
  · rw [List.map_append, List.nodup_append]
    refine ⟨h.distinct, List.nodup_singleton _, ?_⟩
    intro a ha b hb
    obtain ⟨p, hp, rfl⟩ := List.mem_map.mp ha
    obtain rfl := List.mem_singleton.mp hb
    exact hfree p hp

theorem addUser (h : Roll kind d ts us) (hu : u.Filed id) (hid : IsIssued d.ids id)
    (hfresh : id ∉ (ts .users).ids) (hnew : u.IsNew d.terms.hashing email password)
    (hemail : email.IsAddress kind) :
    d.Ends (Desk.addUser u) fun _ d' => Joins kind d.terms.hashing us email password d' := by
  have hwrite : d.Ends (writing fun s => UserBook.add s u) fun _ d' =>
      Joins kind d.terms.hashing us email password d' := by
    unfold Ends
    rw [perform_writing]
    cases hadd : UserBook.add d.storage u with
    | error f => exact .stays h
    | ok s' =>
      obtain ⟨hfound, hupdate⟩ := UserBook.add_eq_ok hadd
      obtain ⟨hspelt, hnormal⟩ := hemail.isSpelt.normalAddress hnew.address
      have haccount : u.IsAccount kind := hnew.isAccount h.hashing hemail fun hplace =>
        h.isFlat_of_byEmail? hspelt hnormal
          ((hemail.hasNoZero hplace).normalAddress hnew.address) hfound hplace
      have hfree : ∀ p ∈ us, p.2.email ≠ u.email := by
        rcases h.byEmail? hspelt hnormal with ⟨p, -, -, hp⟩ | ⟨hnone, -⟩
        · rw [hfound] at hp
          cases hp
        · exact hnone
      obtain ⟨s, hsave, hshows, hfollows⟩ :=
        h.keeps.shows.save .users id hu.printable hu.printable.isWritable
      rw [← hu.id] at hsave
      obtain rfl := Except.ok.inj (hsave.symm.trans hupdate)
      exact .joins (h.append hu hid hfresh haccount hfree hshows hfollows.kind) hnew
  exact hwrite.bind (fun _ d' h' => h') fun _ d' h' => h'

/-- Whoever is enrolled `Joins` the roll, unless the address is taken. -/
theorem enrol {α : Type} (h : Roll kind d ts us) {name : Value} (hname : name.IsText)
    (hemail : email.IsAddress kind) (password : Value)
    (isAdmin : Bool) {k : User → Work α} (hk : ∀ u, IsLook (k u)) :
    d.Ends (do
      let u ← Desk.newUser name email password (.bool isAdmin)
      let u ← Desk.addUser u
      k u) fun _ d' => Joins kind d.terms.hashing us email password d' := by
  have hnew : d.Ends (Desk.newUser name email password (.bool isAdmin)) fun x d' =>
      Roll kind d' ts us ∧ d'.terms = d.terms ∧ idOf d'.ids ∉ (ts .users).ids ∧
      ∀ u, x = .ok u → u.Filed (idOf d'.ids) ∧ u.IsNew d.terms.hashing email password := by
    obtain ⟨hs, hids, hkeeps, hfiled⟩ := h.keeps.newUser hname email password isAdmin
    have hsteady := isSteady_newUser name email password (.bool isAdmin) d
    exact ⟨h.of_same hkeeps hs hsteady, hsteady.2, h.keeps.user_not_mem (fun _ _ hi => hi) hids,
      fun u hu => ⟨(hfiled u hu).1, newUser_isNew name email password _ u hu⟩⟩
  refine hnew.bind (fun u d' hd => ?_) fun f d' hd => .stays hd.1
  obtain ⟨hroll, hterms, hfresh, hu⟩ := hd
  obtain ⟨hfiled, hisnew⟩ := hu u rfl
  have hadd := hroll.addUser hfiled (isIssued_self _) hfresh (hterms ▸ hisnew) hemail
  rw [hterms] at hadd
  exact hadd.bind (fun v d'' hd => .intro ((hk v).eq d'') hd) fun f d'' hd => hd

theorem register (h : Roll kind d ts us) (name : Value) (hemail : email.IsAddress kind)
    (password : Value) :
    d.Ends (Desk.register name email password) fun _ d' =>
      Joins kind d.terms.hashing us email password d' :=
  ends_register (fun _ => .stays h) fun _ htrimmed =>
    h.enrol (onText_isText htrimmed) hemail password false isLook_passFor

theorem ensureUser (h : Roll kind d ts us) {name : Value} (hname : name.IsText)
    (hemail : email.IsAddress kind) (password : Value)
    (isAdmin : Bool) :
    d.Ends (Desk.ensureUser name email password (.bool isAdmin)) fun _ d' =>
      Joins kind d.terms.hashing us email password d' := by
  unfold Desk.ensureUser
  refine .look (.reading _) (fun found _ => ?_) fun _ => .stays h
  cases found with
  | some u => exact .stays h
  | none =>
    have henrol := h.enrol hname hemail password isAdmin (k := fun u => pure u)
      fun u => .pure u
    simp only [bind_pure] at henrol
    exact henrol

/-! ### Leaving -/

/-- Nobody has an id that is no text of characters. -/
theorem delete_torn (h : Roll kind d ts us) (t : Text.Torn) {done : Bool} {s : Storage}
    (hs : UserBook.remove d.storage (.torn t) = .ok (done, s)) :
    s.Shows ts ∧ s.kind = d.storage.kind := by
  have hshows := h.keeps.shows
  cases hd : d.storage with
  | database b =>
    rw [hd] at hs hshows
    obtain ⟨c, htable, -⟩ := (hshows.isPlain b rfl).table .users
    have herror : b.delete (.text Shelf.users.name) (.torn t) = .error .notEncodable := by
      unfold Database.delete
      rw [htable]
      rfl
    have hs' : (b.delete (.text Shelf.users.name) (.torn t)).map _ = .ok (done, s) := hs
    rw [herror] at hs'
    cases hs'
  | memory m =>
    rw [hd] at hs hshows
    obtain ⟨⟨found, m'⟩, hm, hs⟩ := map_eq_ok hs
    obtain ⟨rows, hrows, hm⟩ := bind_eq_ok hm
    obtain ⟨there, -, hm⟩ := bind_eq_ok hm
    obtain ⟨rfl, rfl⟩ := Prod.mk.inj hs
    obtain ⟨rfl, rfl⟩ := Prod.mk.inj (Except.ok.inj hm)
    have hread : rows = (ts .users).read .text .record :=
      (Except.ok.inj hrows).symm.trans (hshows.rows .users)
    have hsame : rows.erase (.torn t) = (ts .users).read .text .record := by
      unfold Table.erase
      rw [hread, List.filter_eq_self]
      intro p hp
      obtain ⟨q, hq, rfl⟩ := List.mem_map.mp hp
      rfl
    have hreplaced := hshows.replace_memory (t := .users) (hshows.distinct .users)
    rw [Function.update_eq_self] at hreplaced
    rw [hsame]
    exact ⟨hreplaced, rfl⟩

theorem removeUser (h : Roll kind d ts us) {v : Value} (hv : v.IsSpelt) :
    d.Ends (Desk.removeUser v) fun _ d' =>
      ∃ ts', Roll kind d' ts' us ∨ ∃ id, v = .text id ∧ Roll kind d' ts' (us.erase id) := by
  cases v with
  | text id =>
    obtain ⟨s, hp, hkeeps, hfollows⟩ := h.keeps.removeUser id
    refine .intro hp ⟨_, .inr ⟨id, rfl, hkeeps, ?_, ?_, ?_, ?_, hfollows.kind.trans h.kind,
      h.hashing, h.issues⟩⟩
    · rw [Function.update_self, h.documents]
      exact Table.erase_read User.document us (isExact_string id) (isExact_string id) fun _ e => e
    · exact fun p hp => h.filed p (Table.mem_of_mem_erase hp)
    · exact fun p hp => h.accounts p (Table.mem_of_mem_erase hp)
    · exact h.distinct.sublist (List.filter_sublist.map _)
  | torn t =>
    unfold Desk.removeUser Ends
    rw [perform_changing]
    cases hs : UserBook.remove d.storage (.torn t) with
    | error f => exact ⟨ts, .inl h⟩
    | ok r =>
      obtain ⟨done, s⟩ := r
      obtain ⟨hshows, hkind⟩ := h.delete_torn t hs
      exact ⟨ts, .inl ⟨h.keeps.withStorage hshows, h.documents, h.filed, h.accounts, h.distinct,
        hkind.trans h.kind, h.hashing, h.issues⟩⟩
  | _ => exact hv.elim

end Roll
end Desk
end LoanDesk
