import LoanDesk.Desk.Lending
import LoanDesk.Proofs.Account.Record

/-
# What a desk keeps

A desk in order keeps users and loans on file, loans under ids that it gave out, and reads
loans from its store. Every task of the desk leaves it in order: here is what each finds
and what it changes. A desk keeps to a rule: which ids its users may have, and what is true
of its loans, also once they are read and reviewed.

Key definitions: `Desk.IsIssued`, `Desk.Rule`, `Desk.Keeps`.
Key theorems: `Desk.Keeps.user?`, `Desk.Keeps.loan?`, `Desk.Keeps.confirmLoan`,
`Desk.Keeps.removeLoan`.
-/

namespace LoanDesk
namespace Desk

open Store

/-- The id was given out by a desk that has given out so many. -/
def IsIssued (count : ℕ) (id : String) : Prop :=
  ∃ n ≤ count, id = idOf n

theorem IsIssued.mono {n m : ℕ} {id : String} (h : IsIssued n id) (hn : n ≤ m) :
    IsIssued m id := by
  obtain ⟨k, hk, rfl⟩ := h
  exact ⟨k, hk.trans hn, rfl⟩

theorem isIssued_self (n : ℕ) : IsIssued n (idOf n) :=
  ⟨n, le_rfl, rfl⟩

/-- An id that comes later is not among those given out. -/
theorem not_isIssued_of_lt {n m : ℕ} (h : n < m) : ¬ IsIssued n (idOf m) := by
  rintro ⟨k, hk, he⟩
  have := idOf_injective he
  omega

/-- What a desk keeps to: the ids that its users may have once it has given out so many, those that
it gave out among them; and what is true of its loans, and stays true of the copy that a review
writes back. -/
structure Rule where
  user : ℕ → String → Prop
  loan : Loan → Prop
  issued : ∀ n, user n (idOf n)
  mono : ∀ {n m id}, user n id → n ≤ m → user m id
  reviewed : ∀ {id l l'} (target : Loan.Status) (comments : Value) (at_ : Stamp), loan l →
    l.Filed id → Loan.ofRecord (.record l.document) = .ok l' →
    loan (l'.reviewedAs target comments at_)

/-- The documents are of users on file. -/
def HoldsUsers (R : Rule) (count : ℕ) (t : Table String Fields) : Prop :=
  ∀ p ∈ t, R.user count p.1 ∧ ∃ u : User, u.Filed p.1 ∧ p.2 = u.document

/-- The documents are of loans on file. -/
def HoldsLoans (R : Rule) (count : ℕ) (t : Table String Fields) : Prop :=
  ∀ p ∈ t, IsIssued count p.1 ∧ ∃ l : Loan, l.Filed p.1 ∧ R.loan l ∧ p.2 = l.document

/-- The desk is in order, and these are its documents. -/
structure Keeps (R : Rule) (d : Desk) (ts : Shelves) : Prop where
  shows : d.storage.Shows ts
  pinned : d.pinned = none
  users : HoldsUsers R d.ids (ts .users)
  loans : HoldsLoans R d.ids (ts .loans)

variable {R : Rule} {d : Desk} {ts : Shelves} {id : String} {n m : ℕ}

theorem HoldsUsers.mono {t : Table String Fields} (h : HoldsUsers R n t) (hn : n ≤ m) :
    HoldsUsers R m t :=
  fun p hp => ⟨R.mono (h p hp).1 hn, (h p hp).2⟩

theorem HoldsLoans.mono {t : Table String Fields} (h : HoldsLoans R n t) (hn : n ≤ m) :
    HoldsLoans R m t :=
  fun p hp => ⟨(h p hp).1.mono hn, (h p hp).2⟩

/-- A desk with an empty store is in order. -/
theorem keeps_opening (kind : Storage.Kind) (terms : Terms) (clock : Stamp) :
    Keeps R { terms, storage := .ofKind kind, clock } fun _ => [] := by
  refine ⟨Storage.shows_ofKind kind, rfl, ?_, ?_⟩
  · intro p hp
    cases hp
  · intro p hp
    cases hp

theorem isLook_user? (id : Value) : IsLook (Desk.user? id) :=
  .reading _

theorem isLook_readUser (id : Value) : IsLook (readUser id) := by
  refine .bind (isLook_user? id) fun u => ?_
  cases u with
  | some u => exact .pure u
  | none => exact .lifted _

namespace Keeps

/-! ### The desk changed -/

/-- Clock, terms and counters do not matter, as long as no id is given out again. -/
theorem of_same {d' : Desk} (h : d.Keeps R ts) (hs : d'.storage = d.storage)
    (hp : d'.pinned = d.pinned) (hi : d.ids ≤ d'.ids) : d'.Keeps R ts :=
  ⟨hs ▸ h.shows, hp.trans h.pinned, h.users.mono hi, h.loans.mono hi⟩

theorem withStorage (h : d.Keeps R ts) {s : Storage} (hs : s.Shows ts) :
    Keeps R { d with storage := s } ts :=
  ⟨hs, h.pinned, h.users, h.loans⟩

theorem putUser (h : d.Keeps R ts) {s : Storage} {u : User} (hu : u.Filed id)
    (hid : R.user d.ids id)
    (hs : s.Shows (Function.update ts .users ((ts .users).put id u.document))) :
    Keeps R { d with storage := s }
      (Function.update ts .users ((ts .users).put id u.document)) := by
  refine ⟨hs, h.pinned, ?_, ?_⟩
  · rw [Function.update_self]
    intro p hp
    rcases Table.mem_put hp (isExact_string id) with rfl | hp
    · exact ⟨hid, u, hu, rfl⟩
    · exact h.users p hp
  · rw [Function.update_of_ne (by decide)]
    exact h.loans

theorem putLoan (h : d.Keeps R ts) {s : Storage} {l : Loan} (hl : l.Filed id) (hP : R.loan l)
    (hid : IsIssued d.ids id)
    (hs : s.Shows (Function.update ts .loans ((ts .loans).put id l.document))) :
    Keeps R { d with storage := s }
      (Function.update ts .loans ((ts .loans).put id l.document)) := by
  refine ⟨hs, h.pinned, ?_, ?_⟩
  · rw [Function.update_of_ne (by decide)]
    exact h.users
  · rw [Function.update_self]
    intro p hp
    rcases Table.mem_put hp (isExact_string id) with rfl | hp
    · exact ⟨hid, l, hl, hP, rfl⟩
    · exact h.loans p hp

theorem erase (h : d.Keeps R ts) {s : Storage} (t : Shelf)
    (hs : s.Shows (Function.update ts t ((ts t).erase id))) :
    Keeps R { d with storage := s } (Function.update ts t ((ts t).erase id)) := by
  refine ⟨hs, h.pinned, ?_, ?_⟩
  · intro p hp
    cases t with
    | users => exact h.users p (Table.mem_of_mem_erase hp)
    | loans => exact h.users p hp
  · intro p hp
    cases t with
    | users => exact h.loans p hp
    | loans => exact h.loans p (Table.mem_of_mem_erase hp)

/-- No loan stands under an id that is not given out yet. -/
theorem not_mem_next (h : d.Keeps R ts) : idOf (d.ids + 1) ∉ (ts .loans).ids := by
  intro hm
  obtain ⟨p, hp, he⟩ := List.mem_map.mp hm
  exact not_isIssued_of_lt d.ids.lt_succ_self (he ▸ (h.loans p hp).1)

/-- Nor does a user, if users have ids that were given out. -/
theorem user_not_mem (h : d.Keeps R ts) (hR : ∀ n id, R.user n id → IsIssued n id)
    (hn : d.ids < n) : idOf n ∉ (ts .users).ids := by
  intro hm
  obtain ⟨p, hp, he⟩ := List.mem_map.mp hm
  exact not_isIssued_of_lt hn (he ▸ hR _ _ (h.users p hp).1)

/-! ### Reading -/

theorem loan_of_get? (h : d.Keeps R ts) {fs : Fields} (hg : (ts .loans).get? id = some fs) :
    IsIssued d.ids id ∧ ∃ l : Loan, l.Filed id ∧ R.loan l ∧ fs = l.document :=
  h.loans (id, fs) (Table.mem_of_get? (isExact_string id) hg)

theorem user_of_get? (h : d.Keeps R ts) {fs : Fields} (hg : (ts .users).get? id = some fs) :
    R.user d.ids id ∧ ∃ u : User, u.Filed id ∧ fs = u.document :=
  h.users (id, fs) (Table.mem_of_get? (isExact_string id) hg)

/-- The user of an id is found if there is a document of one. -/
theorem user? (h : d.Keeps R ts) (id : String) :
    ((ts .users).get? id = none ∧ d.perform (user? (.text id)) = (.ok none, d)) ∨
    ∃ u : User, u.Filed id ∧ (ts .users).get? id = some u.document ∧
      d.perform (Desk.user? (.text id)) = (.ok (some u.kept), d) := by
  have hload := h.shows.load .users id
  have hperform : d.perform (Desk.user? (.text id)) = (UserBook.get? d.storage (.text id), d) :=
    perform_reading d _
  have hget : UserBook.get? d.storage (.text id) =
      UserBook.read? (((ts .users).get? id).map .record) := by
    change (do UserBook.read? (← d.storage.load (.text Shelf.users.name) (.text id))) = _
    rw [hload]
    rfl
  rw [hperform, hget]
  cases hg : (ts .users).get? id with
  | none => exact .inl ⟨rfl, rfl⟩
  | some fs =>
    obtain ⟨-, u, hu, rfl⟩ := h.user_of_get? hg
    refine .inr ⟨u, hu, rfl, ?_⟩
    have hr : UserBook.read? (some (.record u.document)) =
        (User.ofRecord (.record u.document)).map some := rfl
    rw [Option.map_some, hr, u.ofRecord_document]
    rfl

/-- Whatever is handed over for an id, a user that is found is on file. -/
theorem filed_of_user? (h : d.Keeps R ts) {v : Value} {u : User}
    (hu : (d.perform (Desk.user? v)).1 = .ok (some u)) :
    ∃ id, R.user d.ids id ∧ u.Filed id := by
  have hget : UserBook.get? d.storage v = .ok (some u) := by
    unfold Desk.user? at hu
    rw [perform_reading] at hu
    exact hu
  obtain ⟨found, hload, hread⟩ := bind_eq_ok hget
  cases found with
  | none => cases hread
  | some w =>
    obtain ⟨p, hp, rfl⟩ := h.shows.mem_of_load .users hload
    obtain ⟨hid, x, hx, hdoc⟩ := h.users p hp
    rw [hdoc] at hread
    have hr : UserBook.read? (some (.record x.document)) =
        (User.ofRecord (.record x.document)).map some := rfl
    rw [hr, x.ofRecord_document] at hread
    obtain rfl := Option.some.inj (Except.ok.inj hread)
    exact ⟨p.1, hid, hx.kept⟩

theorem readUser_ok (h : d.Keeps R ts) {u : User}
    (hr : (d.perform (readUser (.text id))).1 = .ok u) :
    ∃ v : User, v.Filed id ∧ (ts .users).get? id = some v.document ∧ v.kept = u := by
  unfold readUser at hr
  rcases h.user? id with ⟨-, hp⟩ | ⟨v, hv, hg, hp⟩
  · rw [perform_bind_ok hp, perform_lifted] at hr
    cases hr
  · rw [perform_bind_ok hp] at hr
    exact ⟨v, hv, hg, Except.ok.inj hr⟩

theorem loanBook_get? (h : d.Keeps R ts) (id : String) : LoanBook.get? d.storage (.text id) =
    LoanBook.read? (((ts .loans).get? id).map .record) := by
  have hload := h.shows.load .loans id
  change (do LoanBook.read? (← d.storage.load (.text Shelf.loans.name) (.text id))) = _
  rw [hload]
  rfl

/-- The loan of an id is read if there is a document of one. -/
theorem loan? (h : d.Keeps R ts) (id : String) :
    ((ts .loans).get? id = none ∧ d.perform (loan? (.text id)) = (.ok none, d)) ∨
    ∃ l : Loan, l.Filed id ∧ R.loan l ∧ (ts .loans).get? id = some l.document ∧
      d.perform (Desk.loan? (.text id)) =
        ((Loan.ofRecord (.record l.document)).map some, d) := by
  have hperform : d.perform (Desk.loan? (.text id)) = (LoanBook.get? d.storage (.text id), d) := by
    unfold Desk.loan?
    rw [perform_bind_ok (perform_get d), h.pinned]
    exact perform_reading d _
  rw [hperform, h.loanBook_get? id]
  cases hg : (ts .loans).get? id with
  | none => exact .inl ⟨rfl, rfl⟩
  | some fs =>
    obtain ⟨-, l, hl, hP, rfl⟩ := h.loan_of_get? hg
    exact .inr ⟨l, hl, hP, rfl, rfl⟩

theorem confirmLoan (h : d.Keeps R ts) (id : String) :
    d.perform (confirmLoan (.text id)) =
      (if (ts .loans).has id then .ok () else refuse (.missing "loan" (.text id)), d) := by
  have hhas : LoanBook.has d.storage (.text id) = .ok ((ts .loans).has id) :=
    h.shows.has .loans id
  unfold Desk.confirmLoan
  rw [perform_bind_ok (a := (ts .loans).has id) (e := d) (by rw [perform_reading, hhas])]
  cases (ts .loans).has id with
  | true => rfl
  | false => exact perform_lifted d (refuse (.missing "loan" (.text id)) : Except Fault Unit)

/-! ### Removing -/

theorem removeLoan (h : d.Keeps R ts) (id : String) :
    ∃ s, d.perform (removeLoan (.text id)) =
        (.ok ((ts .loans).has id), { d with storage := s }) ∧
      Keeps R { d with storage := s } (Function.update ts .loans ((ts .loans).erase id)) ∧
      s.Follows d.storage .loans := by
  obtain ⟨s, hs, hshows, hfollows⟩ := h.shows.delete .loans id
  refine ⟨s, ?_, h.erase .loans hshows, hfollows⟩
  have hs' : LoanBook.remove d.storage (.text id) = .ok ((ts .loans).has id, s) := hs
  unfold Desk.removeLoan
  rw [perform_changing, hs']

theorem removeUser (h : d.Keeps R ts) (id : String) :
    ∃ s, d.perform (removeUser (.text id)) =
        (.ok ((ts .users).has id), { d with storage := s }) ∧
      Keeps R { d with storage := s } (Function.update ts .users ((ts .users).erase id)) ∧
      s.Follows d.storage .users := by
  obtain ⟨s, hs, hshows, hfollows⟩ := h.shows.delete .users id
  refine ⟨s, ?_, h.erase .users hshows, hfollows⟩
  have hs' : UserBook.remove d.storage (.text id) = .ok ((ts .users).has id, s) := hs
  unfold Desk.removeUser
  rw [perform_changing, hs']

end Keeps
end Desk
end LoanDesk
