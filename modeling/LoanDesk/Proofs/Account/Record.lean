import LoanDesk.Account.Book
import LoanDesk.Proofs.Loan.Record

/-
# Users on file

What a store keeps of a user is the user's document. The document of any user can be read,
whatever the record holds for names and rights, because nothing but the stamps is looked
at; a user who can be written has texts for all of them but the last, which is a truth
value, and a user on file has an id without halves besides (`User.Filed`).

Key definitions: `User.document`, `User.IsWritten`, `User.Filed`, `User.kept`.
Key theorems: `User.ofRecord_document`, `User.IsWritten.printable`, `User.Filed.kept`.
-/

namespace LoanDesk
namespace User

/-- What a store keeps of a user. -/
def document (u : User) : Fields :=
  Value.storedFields u.record

/-- A user who can be written: all that is told are texts, but for the rights. -/
structure IsWritten (u : User) : Prop where
  id : u.id.IsText
  name : u.name.IsText
  email : u.email.IsText
  passwordHash : u.passwordHash.IsText
  passwordSalt : u.passwordSalt.IsText
  isAdmin : ∃ b, u.isAdmin = .bool b

/-- A user on file under an id, which is a text of characters: the desk gives out no other ids
(`Desk.freshId`), and a database takes no others for a key. -/
structure Filed (id : String) (u : User) : Prop where
  id : u.id = .text id
  name : u.name.IsText
  email : u.email.IsText
  passwordHash : u.passwordHash.IsText
  passwordSalt : u.passwordSalt.IsText
  isAdmin : ∃ b, u.isAdmin = .bool b

/-- The user as it is read from its document. -/
def kept (u : User) : User where
  id := u.id.recorded.stored
  created := u.created.settled
  updated := u.updated.settled
  name := u.name.recorded.stored
  email := u.email.recorded.stored
  passwordHash := u.passwordHash.recorded.stored
  passwordSalt := u.passwordSalt.recorded.stored
  isAdmin := u.isAdmin.recorded.stored

variable {id : String} {u : User}

theorem readStamp_iso (t : Stamp) :
    Account.Document.readStamp (.text t.iso) = .ok (.moment t.settled) := by
  rw [Account.Document.readStamp, Stamp.ofIso_iso]

/-- Every document of a user can be read, and `ofRecord` reads the user as `kept`. -/
theorem ofRecord_document (u : User) : ofRecord (.record u.document) = .ok u.kept := by
  have hcreated : Fields.get u.document "created_at" = .text u.created.iso := rfl
  have hupdated : Fields.get u.document "updated_at" = .text u.updated.iso := rfl
  have hof : Account.Document.of (.record u.document) = .ok ⟨[("id", u.id.recorded.stored),
      ("created_at", .moment u.created.settled), ("updated_at", .moment u.updated.settled),
      ("full_name", u.name.recorded.stored), ("email", u.email.recorded.stored),
      ("password_hash", u.passwordHash.recorded.stored),
      ("password_salt", u.passwordSalt.recorded.stored),
      ("is_admin", u.isAdmin.recorded.stored)]⟩ := by
    unfold Account.Document.of
    simp only [Account.Document.fieldsOf, hcreated, hupdated, readStamp_iso, bind, Except.bind]
    rfl
  unfold ofRecord
  rw [hof]
  rfl

namespace IsWritten

theorem printable (h : u.IsWritten) : Json.Printable (.record u.record) := by
  obtain ⟨b, hb⟩ := h.isAdmin
  refine ⟨?_, ?_⟩
  · change ["id", "created_at", "updated_at", "full_name", "email", "password_hash",
      "password_salt", "is_admin"].Nodup
    decide
  · unfold record
    rw [hb, h.id.recorded, h.name.recorded, h.email.recorded, h.passwordHash.recorded,
      h.passwordSalt.recorded]
    exact ⟨h.id.printable, trivial, trivial, h.name.printable, h.email.printable,
      h.passwordHash.printable, h.passwordSalt.printable, trivial, trivial⟩

theorem isAdmin_stored (h : u.IsWritten) : u.isAdmin.recorded.stored = u.isAdmin := by
  obtain ⟨b, hb⟩ := h.isAdmin
  rw [hb]
  rfl

end IsWritten

namespace Filed

theorem isWritten (h : u.Filed id) : u.IsWritten := by
  refine ⟨?_, h.name, h.email, h.passwordHash, h.passwordSalt, h.isAdmin⟩
  rw [h.id]
  trivial

theorem printable (h : u.Filed id) : Json.Printable (.record u.record) :=
  h.isWritten.printable

theorem kept_id (h : u.Filed id) : u.kept.id = .text id := by
  change u.id.recorded.stored = _
  rw [h.id]
  rfl

/-- What is read of a user on file is a user on file. -/
theorem kept (h : u.Filed id) : u.kept.Filed id := by
  have htext : ∀ {v : Value}, v.IsText → v.recorded.stored.IsText := by
    intro v hv
    rw [hv.recorded]
    exact hv.stored
  refine ⟨h.kept_id, htext h.name, htext h.email, htext h.passwordHash, htext h.passwordSalt, ?_⟩
  obtain ⟨b, hb⟩ := h.isAdmin
  exact ⟨b, h.isWritten.isAdmin_stored.trans hb⟩

end Filed
end User
end LoanDesk
