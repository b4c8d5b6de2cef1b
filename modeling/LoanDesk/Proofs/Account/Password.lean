import LoanDesk.Account.Password
import LoanDesk.Proofs.Account.Email

/-
# Passwords of accounts

An account has an address in its form, a salt and a digest that is a plain text; so a password is
checked by its digest alone. The digests of this desk are such texts: they have digits of base
sixteen, and twice as many as there are bytes.

Key definitions: `Account.Hashing.IsPlain`, `User.Opens`, `User.IsAccount`, `User.IsNew`.
Key theorems: `Account.scryptHashing_isPlain`, `User.IsAccount.fits`, `User.IsNew.isAccount`.
-/

namespace LoanDesk

open Store

/-! ### Digests -/

namespace Account

/-- Every digest is a text of plain characters, and not an empty one. -/
def Hashing.IsPlain (hashing : Hashing) : Prop :=
  ∀ password salt, hashing password salt ≠ "" ∧ isPlainText (hashing password salt) = true

/-- A digest comes of two whole texts. -/
theorem exists_digest {hashing : Hashing} {password salt : Value} {digest : String}
    (h : hashing.digest password salt = .ok digest) : ∃ p s, digest = hashing p s := by
  obtain ⟨p, -, h⟩ := bind_eq_ok h
  obtain ⟨s, -, h⟩ := bind_eq_ok h
  exact ⟨p, s, (Except.ok.inj h).symm⟩

theorem length_sha256 (message : Bytes) : (Sha256.digest message).length = 32 := rfl

theorem length_derive (password salt : Bytes) : (Hmac.derive password salt 64).length = 64 := by
  unfold Hmac.derive
  simp [Hmac.deriveFrom, Hmac.digest, Hmac.digestWith, Hmac.sha256, length_sha256]

theorem isPlain_hexByte (b : UInt8) : ∀ c ∈ Scrypt.hexByte b, c.toNat < 128 := by
  have hdigit : ∀ n < 16, (Nat.digitChar n).toNat < 128 := by decide
  have hb : b.toNat < 256 := b.toNat_lt
  intro c hc
  rcases List.mem_pair.mp hc with rfl | rfl
  · exact hdigit _ (by omega)
  · exact hdigit _ (by omega)

/-- The slow digest is written in plain characters, and not without any: `Scrypt.hex` gives
hexadecimal digits. -/
theorem scryptHashing_isPlain : scryptHashing.IsPlain := by
  intro password salt
  have hlength : (Scrypt.digest (Scrypt.textBytes password) (Scrypt.textBytes salt)).length = 64 :=
    length_derive _ _
  unfold scryptHashing Scrypt.hex isPlainText
  generalize Scrypt.digest (Scrypt.textBytes password) (Scrypt.textBytes salt) = bytes at hlength
  refine ⟨fun h => ?_, ?_⟩
  · have hnil := congrArg String.toList h
    rw [String.toList_ofList] at hnil
    cases bytes with
    | nil => cases hlength
    | cons b rest => cases hnil
  · rw [String.toList_ofList, List.all_eq_true]
    intro c hc
    obtain ⟨b, -, hc⟩ := List.mem_flatMap.mp hc
    exact decide_eq_true (isPlain_hexByte b c hc)

end Account

namespace User

/-- The digest of the password with the salt of the user is the one that is kept. -/
def Opens (hashing : Account.Hashing) (password : Value) (u : User) : Prop :=
  ∃ digest, hashing.digest password u.passwordSalt = .ok digest ∧ u.passwordHash = .text digest

/-- The address of the user is in its form, and a database keeps it as it is; there are a digest
and a salt. -/
structure IsAccount (kind : Storage.Kind) (u : User) : Prop where
  normal : Account.normalAddress u.email = .ok u.email
  sound : u.email.IsSound
  flat : kind ≠ .memory → IsFlat u.email
  hash : ∃ t, u.passwordHash = .text t ∧ t ≠ "" ∧ Account.isPlainText t = true
  salt : ∃ t, u.passwordSalt = .text t ∧ t ≠ ""

variable {kind : Storage.Kind} {u : User}

theorem IsAccount.kept (h : u.IsAccount kind) : u.kept.email = u.email ∧
    u.kept.passwordHash = u.passwordHash ∧ u.kept.passwordSalt = u.passwordSalt := by
  obtain ⟨t, ht, -⟩ := h.hash
  obtain ⟨s, hs, -⟩ := h.salt
  refine ⟨h.sound.kept, ?_, ?_⟩
  · change u.passwordHash.recorded.stored = _
    rw [ht]
    rfl
  · change u.passwordSalt.recorded.stored = _
    rw [hs]
    rfl

theorem IsAccount.opens_kept (h : u.IsAccount kind) {hashing : Account.Hashing} {password : Value} :
    u.kept.Opens hashing password ↔ u.Opens hashing password := by
  obtain ⟨-, hhash, hsalt⟩ := h.kept
  unfold Opens
  rw [hhash, hsalt]

/-- The password of an account is checked against its digest by `Hashing.fits`. -/
theorem IsAccount.fits (h : u.IsAccount kind) (hashing : Account.Hashing) (password : Value) :
    hashing.fits password u.kept.passwordHash u.kept.passwordSalt = .ok true ↔
      u.Opens hashing password := by
  obtain ⟨-, hhash, hsalt⟩ := h.kept
  obtain ⟨t, ht, hne, hplain⟩ := h.hash
  obtain ⟨s, hs, hsne⟩ := h.salt
  have hpresent : (!(Value.text t).truthy || !(Value.text s).truthy) = false := by
    simp [Value.truthy, hne, hsne]
  unfold Account.Hashing.fits Opens
  rw [hhash, hsalt, ht, hs, hpresent, if_neg Bool.false_ne_true]
  refine ⟨fun hfits => ?_, ?_⟩
  · obtain ⟨digest, hdigest, hfits⟩ := bind_eq_ok hfits
    simp only [hplain, if_true] at hfits
    exact ⟨digest, hdigest, congrArg Value.text (beq_iff_eq.mp (Except.ok.inj hfits)).symm⟩
  · rintro ⟨digest, hdigest, hsame⟩
    obtain rfl := Value.text.inj hsame
    rw [hdigest]
    change (if Account.isPlainText t = true then Except.ok (t == t) else _) = _
    rw [if_pos hplain, beq_self_eq_true]

/-- What a database reads as a text is a text of characters. -/
theorem isSound_of_isFlat {v : Value} (h : v.IsSpelt) (hflat : IsFlat v) : v.IsSound := by
  cases v with
  | text s => trivial
  | torn t => exact hflat.elim
  | _ => exact h.elim

/-- The user has the form of the address, and the digest of the password with a salt. -/
structure IsNew (hashing : Account.Hashing) (email password : Value) (u : User) : Prop where
  address : Account.normalAddress email = .ok u.email
  opens : u.Opens hashing password
  salt : ∃ t, u.passwordSalt = .text t ∧ t ≠ ""

/-- A new user has an account where the store keeps addresses like this one. -/
theorem IsNew.isAccount {hashing : Account.Hashing} {email password : Value}
    (h : u.IsNew hashing email password) (hashing_plain : hashing.IsPlain)
    (hemail : email.IsAddress kind) (hflat : kind ≠ .memory → IsFlat u.email) :
    u.IsAccount kind := by
  obtain ⟨hspelt, hnormal⟩ := hemail.isSpelt.normalAddress h.address
  have hsound : u.email.IsSound := by
    by_cases hkind : kind = .memory
    · exact (hemail.isSound hkind).normalAddress h.address
    · exact isSound_of_isFlat hspelt (hflat hkind)
  refine ⟨hnormal, hsound, hflat, ?_, h.salt⟩
  obtain ⟨digest, hdigest, hhash⟩ := h.opens
  obtain ⟨p, s, rfl⟩ := Account.exists_digest hdigest
  exact ⟨_, hhash, hashing_plain p s⟩

theorem get?_email (u : User) : Fields.get? u.document "email" = some u.email.recorded.stored :=
  rfl

end User

end LoanDesk
