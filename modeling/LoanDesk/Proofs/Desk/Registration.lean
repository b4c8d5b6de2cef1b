import LoanDesk.Proofs.Desk.Failures
import LoanDesk.Proofs.Desk.Roll

/-
# Registering, all or nothing

A registration looks before it writes, writes once, and gives out a token after that. So it is
all or nothing as long as tokens can be given out: there is a pass, and the store has gained
the user of the pass and nothing else, or there is a fault and the store is as it was. Whether
a token can be given out depends on the terms and the time alone and not on the user; where it
cannot, whoever gets as far as the write stays behind without a pass, and the address is taken.

This holds of every store, whatever is in it and in whatever state it is, as long as the next id
is new to it.

Key definitions: `Storage.Gains`, `Desk.IsMeant`, `Desk.AllOrNothing`, `Desk.LeavesBehind`.
Key theorems: `Storage.rows_save`, `Account.Token.issues_or_fails`,
`Desk.register_all_or_nothing`, `Desk.register_taken`.
-/

namespace LoanDesk

open Store

/-! ### A record written in any store -/

namespace Store.Database

/-- Whatever has become of the catalog, the table of a desk that is had is the one of its name. -/
theorem eq_of_table {d d' : Database} {t : Shelf} {name : String}
    {rows : Table (Option String) String} (h : d.table (.text t.name) = .ok (name, rows, d')) :
    name = t.name ∧ rows = d.tables.get t.name ∧ d'.tables = d.tables := by
  obtain ⟨asked, hname, h⟩ := bind_eq_ok h
  have hparts : (asked, d.tables.get asked, (d.request (.text t.name)).2) = (name, rows, d') :=
    Except.ok.inj h
  obtain ⟨rfl, hrest⟩ := Prod.mk.inj hparts
  obtain ⟨rfl, rfl⟩ := Prod.mk.inj hrest
  unfold request at hname ⊢
  rw [nameOf_shelf] at hname ⊢
  cases hopen : d.isOpen with
  | false =>
    rw [hopen] at hname
    cases hname
  | true =>
    rw [hopen] at hname
    obtain ⟨-, -, rfl⟩ := map_eq_ok hname
    exact ⟨rfl, rfl, rfl⟩

end Store.Database

namespace Storage

variable {s s' : Storage} {t : Shelf} {id : String} {fs : Fields}

/-- The tables of a database in which a record has been put into one of them. -/
theorem rows_withRows (hfs : Json.Printable (.record fs)) {d d' : Database}
    (htables : d'.tables = d.tables) (t u : Shelf) (id : String) :
    (database (d'.withRows t.name
        ((d.tables.get t.name).put (some id) (Database.write (.record fs))))).rows u.name =
      if t = u then ((database d).rows t.name).put (.text id) (.record (Value.storedFields fs))
      else (database d).rows u.name := by
  have hset := Tables.get_set d'.tables
    ((d.tables.get t.name).put (some id) (Database.write (.record fs)))
    (isExact_string t.name) (isExact_string u.name)
  have hput := Table.put_read Database.read (d.tables.get t.name)
    (Database.write (.record fs)) (isExact_some id) (isExact_text id)
    fun _ e => idValue_eq_text e
  rw [Database.read_write hfs] at hput
  refine (congrArg (Table.read idValue Database.read) hset).trans ?_
  by_cases he : t = u
  · rw [if_pos he, if_pos ((alike_name t u).mpr he), ← hput]
    rfl
  · rw [if_neg he, if_neg fun c => he ((alike_name t u).mp c), htables]
    rfl

/-- A record that is written down is put in its table, and the other table is left. -/
theorem rows_save (hfs : Json.Printable (.record fs))
    (h : s.save (.text t.name) (.text id) (.record fs) = .ok s') :
    s'.rows t.name = (s.rows t.name).put (.text id) (.record (Value.storedFields fs)) ∧
      ∀ u, u ≠ t → s'.rows u.name = s.rows u.name := by
  cases s with
  | memory m =>
    obtain ⟨m', hm, rfl⟩ := map_eq_ok h
    refine ⟨?_, fun u hu => rows_save_memory hu.symm hm⟩
    unfold Memory.save at hm
    rw [hfs.isWritable] at hm
    obtain rfl := Except.ok.inj hm
    have hself := Tables.get_set m.tables
      (((memory m).rows t.name).put (.text id) (.record (Value.storedFields fs)))
      (isExact_text t.name) (isExact_text t.name)
    exact hself.trans (if_pos ((isExact_text t.name _).mpr rfl))
  | database d =>
    obtain ⟨d', hd, rfl⟩ := map_eq_ok h
    obtain ⟨⟨name, rows, d₁⟩, htable, hd⟩ := bind_eq_ok hd
    obtain ⟨rfl, rfl, htables⟩ := Database.eq_of_table htable
    rw [hfs.isWritable] at hd
    obtain rfl := Except.ok.inj hd
    have hrows := fun u => rows_withRows hfs htables t u id
    exact ⟨(hrows t).trans (if_pos rfl), fun u hu => (hrows u).trans (if_neg hu.symm)⟩

/-- The store has gained a user, at the end and under an id of its own, and nothing else. -/
structure Gains (s : Storage) (u : User) (s' : Storage) : Prop where
  users : s'.rows Shelf.users.name = s.rows Shelf.users.name ++ [(u.id, .record u.document)]
  loans : s'.rows Shelf.loans.name = s.rows Shelf.loans.name

/-- A user whose id is new comes last, so the store `Gains` the user. -/
theorem gains_of_add {u : User} (hu : u.Filed id)
    (hfresh : .text id ∉ (s.rows Shelf.users.name).ids) (h : UserBook.add s u = .ok s') :
    s.Gains u s' := by
  have hsave := (UserBook.add_eq_ok h).2
  unfold UserBook.update at hsave
  rw [hu.id] at hsave
  obtain ⟨husers, hothers⟩ := rows_save (t := .users) hu.printable hsave
  refine ⟨?_, hothers .loans (by decide)⟩
  rw [husers, Table.put_of_not_mem (isExact_text id) hfresh, hu.id]
  rfl

end Storage

/-! ### Tokens for everybody or for nobody -/

namespace Account.Token

variable {terms : TokenTerms} {now : Stamp}

/-- The claims of a token hold whatever is told of the user: whether `claims` fails is a matter of
terms and time. -/
theorem claims_or_fails (terms : TokenTerms) (now : Stamp) :
    (∀ u, ∃ v, claims terms u now = .ok v) ∨ ∃ f, ∀ u, claims terms u now = .error f := by
  unfold claims
  cases lifetime terms.days with
  | error f => exact .inr ⟨f, fun _ => rfl⟩
  | ok micros =>
    cases hplus : now.plus? micros with
    | none =>
      refine .inr ⟨.outOfRange, fun u => ?_⟩
      simp only [Bind.bind, Except.bind, hplus]
      rfl
    | some until_ =>
      simp only [Bind.bind, Except.bind, hplus]
      cases secondsOf until_ with
      | error f => exact .inr ⟨f, fun _ => rfl⟩
      | ok expires =>
        cases secondsOf now with
        | error f => exact .inr ⟨f, fun _ => rfl⟩
        | ok issued =>
          cases issuerOf terms with
          | error f => exact .inr ⟨f, fun _ => rfl⟩
          | ok issuer => exact .inl fun _ => ⟨_, rfl⟩

theorem sign_or_fails (terms : TokenTerms) :
    (∀ v, ∃ token, sign terms v = .ok token) ∨ ∃ f, ∀ v, sign terms v = .error f := by
  unfold sign
  cases Signing.named? terms.algorithm with
  | none => exact .inr ⟨.unknownSigning, fun _ => rfl⟩
  | some signing =>
    simp only [Bind.bind, Except.bind]
    cases signing.key terms.secret with
    | error f => exact .inr ⟨f, fun _ => rfl⟩
    | ok key => exact .inl fun _ => ⟨_, rfl⟩

/-- Under given terms and at a given time every user can be given a token by `issue` or nobody
can. -/
theorem issues_or_fails (terms : TokenTerms) (now : Stamp) :
    terms.Issues now ∨ ∃ f, ∀ u, issue terms u now = .error f := by
  unfold TokenTerms.Issues issue
  rcases claims_or_fails terms now with hclaims | ⟨f, hclaims⟩
  · rcases sign_or_fails terms with hsign | ⟨f, hsign⟩
    · refine .inl fun u => ?_
      obtain ⟨v, hv⟩ := hclaims u
      rw [hv]
      exact hsign v
    · refine .inr ⟨f, fun u => ?_⟩
      obtain ⟨v, hv⟩ := hclaims u
      rw [hv]
      exact hsign v
  · refine .inr ⟨f, fun u => ?_⟩
    rw [hclaims u]
    rfl

end Account.Token

/-! ### Registering -/

namespace Desk

variable {d d' : Desk} {name email password : Value} {u : User}

/-- The user whom a registration means: by the name without blanks around it, with the form of the
address and the digest of the password, and without special rights. -/
structure IsMeant (d : Desk) (name email password : Value) (u : User) : Prop where
  name : trimmedText name = .ok u.name
  new : u.IsNew d.terms.hashing email password
  isAdmin : u.isAdmin = .bool false

/-- There is a pass, and its user is the one whom the store has gained; or there is a fault, and
the store is as it was. -/
def AllOrNothing (d : Desk) (name email password : Value) (x : Except Fault Account.Pass)
    (d' : Desk) : Prop :=
  match x with
  | .ok pass => d.IsMeant name email password pass.user ∧ d.storage.Gains pass.user d'.storage
  | .error _ => d'.storage = d.storage

/-- The user has been written down, and nobody can be given a token. -/
def LeavesBehind (d : Desk) (name email password : Value) (x : Except Fault Account.Pass)
    (d' : Desk) : Prop :=
  ∃ u f, d.IsMeant name email password u ∧ d.storage.Gains u d'.storage ∧ x = .error f ∧
    ∀ v, Account.Token.issue d.terms.tokens v d.clock = .error f

theorem perform_addUser (d : Desk) (u : User) :
    d.perform (addUser u) =
      match UserBook.add d.storage u with
      | .ok s => (.ok u, { d with storage := s })
      | .error f => (.error f, d) := by
  unfold addUser
  rw [perform_bind, perform_writing]
  cases UserBook.add d.storage u <;> rfl

/-- What comes of writing down the user who is meant, once counters have moved on: the write can
fail, and then nothing is done; or the token can, and then the write is done. -/
theorem ends_admit {salts : ℕ} (hu : d.IsMeant name email password u)
    (hfiled : u.Filed (idOf (d.ids + 1)))
    (hfresh : .text (idOf (d.ids + 1)) ∉ (d.storage.rows Shelf.users.name).ids) :
    Ends { d with salts := salts, ids := d.ids + 1 } (do
      let u ← addUser u
      passFor u) fun x d' => AllOrNothing d name email password x d' ∨
        LeavesBehind d name email password x d' := by
  cases hadd : UserBook.add d.storage u with
  | error f =>
    refine .intro (perform_bind_error (f := f) (e := { d with salts := salts, ids := d.ids + 1 })
      ?_ _) (.inl rfl)
    rw [perform_addUser, hadd]
  | ok s =>
    have hgains : d.storage.Gains u s := Storage.gains_of_add hfiled hfresh hadd
    refine .next (a := u) (e := { d with storage := s, salts := salts, ids := d.ids + 1 })
      (by rw [perform_addUser, hadd]) (.intro (perform_passFor _ u) ?_)
    rcases Account.Token.issues_or_fails d.terms.tokens d.clock with hissues | ⟨f, hfails⟩
    · obtain ⟨token, htoken⟩ := hissues u
      rw [htoken]
      exact .inl ⟨hu, hgains⟩
    · rw [hfails u]
      exact .inr ⟨u, f, hu, hgains, rfl, hfails⟩

/-- A registration is `AllOrNothing`, unless nobody can be given a token; then it may leave the user
behind (`LeavesBehind`). -/
theorem register_all_or_nothing (d : Desk) (name email password : Value)
    (hfresh : .text (idOf (d.ids + 1)) ∉ (d.storage.rows Shelf.users.name).ids) :
    (d.terms.tokens.Issues d.clock →
      d.Ends (register name email password) (AllOrNothing d name email password)) ∧
    d.Ends (register name email password) fun x d' =>
      AllOrNothing d name email password x d' ∨ LeavesBehind d name email password x d' := by
  have hends : d.Ends (register name email password) fun x d' =>
      AllOrNothing d name email password x d' ∨ LeavesBehind d name email password x d' := by
    refine ends_register (fun f => .inl rfl) fun trimmed htrimmed => ?_
    have hnew := newUser_isNew (d := d) trimmed email password (.bool false)
    have hends := ends_newUser (d := d) (onText_isText htrimmed) email password false
    refine Ends.bind (Q := fun x d' => d' = { d with salts := d.salts + 1, ids := d.ids + 1 } ∧
      ∀ u, x = .ok u → u.Filed (idOf (d.ids + 1)) ∧ d.IsMeant name email password u) ?_ ?_ ?_
    · refine ⟨hends.1, fun u hu => ?_⟩
      obtain ⟨hfiled, hadmin, rfl⟩ := hends.2 u hu
      exact ⟨hfiled, htrimmed, hnew u hu, hadmin⟩
    · rintro u _ ⟨rfl, hu⟩
      exact ends_admit (hu u rfl).2 (hu u rfl).1 hfresh
    · rintro f _ ⟨rfl, -⟩
      exact .inl rfl
  refine ⟨fun hissues => hends.mono ?_, hends⟩
  rintro x d' (hwhole | ⟨u, f, -, -, -, hfails⟩)
  · exact hwhole
  · obtain ⟨token, htoken⟩ := hissues u
    rw [hfails u] at htoken
    cases htoken

/-- A desk that opens with an empty database in a file. -/
def firstDay : Desk where
  terms := { tokens := { secret := .text "secret" } }
  storage := .ofKind (.database true)
  clock := .epoch

/-- Somebody registers first of all, and gets a pass. -/
theorem register_all_or_nothing_first :
    .text (idOf (firstDay.ids + 1)) ∉ (firstDay.storage.rows Shelf.users.name).ids ∧
      firstDay.terms.tokens.Issues firstDay.clock ∧
      (firstDay.perform (register (.text " Ann ") (.text "Ann@Example.com")
        (.text "secret1"))).1.toOption.isSome = true ∧
      firstDay.Ends (register (.text " Ann ") (.text "Ann@Example.com") (.text "secret1"))
        (AllOrNothing firstDay (.text " Ann ") (.text "Ann@Example.com") (.text "secret1")) := by
  have hfresh : .text (idOf (firstDay.ids + 1)) ∉
      (firstDay.storage.rows Shelf.users.name).ids := List.not_mem_nil
  have hissues : firstDay.terms.tokens.Issues firstDay.clock := fun _ => ⟨_, rfl⟩
  exact ⟨hfresh, hissues, by decide +kernel, (register_all_or_nothing _ _ _ _ hfresh).1 hissues⟩

/-- Whoever registers with an address that somebody has is turned away, with `.emailTaken`. -/
theorem register_taken {w : Value} (hemail : email.truthy = true)
    (htaken : UserBook.hasEmail d.storage email = .ok true)
    (hw : Account.normalAddress email = .ok w) :
    d.perform (register name email password) = (.error (.refused (.emailTaken w)), d) := by
  have hfound : d.perform (reading fun s => UserBook.hasEmail s email) = (.ok true, d) := by
    rw [perform_reading, htaken]
  have haddress : d.perform (lifted (Account.normalAddress email)) = (.ok w, d) := by
    rw [perform_lifted, hw]
  unfold register
  rw [if_pos hemail, perform_bind_ok hfound, if_pos rfl, perform_bind_ok haddress]
  exact perform_bind_error (perform_lifted d (refuse (.emailTaken w))) _

/-- The operation has stopped because something is out of range. -/
def isOutOfRange {α : Type} : Except Fault α → Bool
  | .error .outOfRange => true
  | _ => false

theorem eq_error_of_isOutOfRange {α : Type} {x : Except Fault α} (h : isOutOfRange x = true) :
    x = .error .outOfRange := by
  unfold isOutOfRange at h
  split at h
  · rfl
  · cases h

/-- A desk whose tokens are to last for ten thousand years. -/
def endless : Desk where
  terms := { tokens := { secret := .text "secret", days := .int 3650000 } }
  clock := .epoch

/-- Somebody registers where a token would outlast the calendar: there is a fault, but the user has
come to be there, so the same call is refused when it is tried again. -/
theorem register_leaves_user_behind :
    let call := register (.text "Ann") (.text "ann@example.com") (.text "secret1")
    (endless.perform call).1 = .error .outOfRange ∧
      endless.storage.count UserBook.table = .ok 0 ∧
      (endless.perform call).2.storage.count UserBook.table = .ok 1 ∧
      ((endless.perform call).2.perform call).1 =
        .error (.refused (.emailTaken (.text "ann@example.com"))) ∧
      ¬ endless.Ends call
        (AllOrNothing endless (.text "Ann") (.text "ann@example.com") (.text "secret1")) := by
  intro call
  have hfault : (endless.perform call).1 = .error .outOfRange :=
    eq_error_of_isOutOfRange (by decide +kernel)
  have hone : (endless.perform call).2.storage.count UserBook.table = .ok 1 :=
    eq_ok_of_toOption (by decide +kernel)
  have htaken : UserBook.hasEmail (endless.perform call).2.storage (.text "ann@example.com") =
      .ok true :=
    eq_ok_of_toOption (by decide +kernel)
  have hform : Account.normalAddress (.text "ann@example.com") = .ok (.text "ann@example.com") :=
    congrArg (fun s => Except.ok (Value.text s)) (by decide +kernel :
      Account.normalEmail "ann@example.com" = "ann@example.com")
  refine ⟨hfault, rfl, hone, congrArg Prod.fst (register_taken (by rfl) htaken hform), ?_⟩
  intro hends
  unfold Ends at hends
  rw [hfault] at hends
  have hsame : (endless.perform call).2.storage = endless.storage := hends
  rw [hsame] at hone
  cases hone

end Desk
end LoanDesk
