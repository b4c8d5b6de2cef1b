import LoanDesk.Refusal
import LoanDesk.Crypto.Scrypt

/-
# Passwords

Only a salted digest of a password is kept. A password fits an account if its digest
with the account's salt is the kept one; an account without digest or salt fits
none. Password and salt must be whole texts, and digests are plain ASCII text and are
compared with nothing else.

Key definitions: `Account.Hashing`, `Account.Hashing.digest`, `Account.Hashing.fits`.
-/

namespace LoanDesk
namespace Account

/-- The way from a password and a salt to what is kept. -/
abbrev Hashing := String → String → String

/-- The slow digest of a password with a salt. -/
def scryptHashing : Hashing := Scrypt.hex

/-- A value that must be a whole text. -/
def wholeText : Value → Except Fault String
  | .text s => .ok s
  | .torn _ => .error .notEncodable
  | _ => .error .missingPart

/-- The digest of a password with a salt (`AuthService._hash_password`). -/
def Hashing.digest (hashing : Hashing) (password salt : Value) : Except Fault String := do
  return hashing (← wholeText password) (← wholeText salt)

/-- A text of plain characters. -/
def isPlainText (s : String) : Bool :=
  s.toList.all fun c => c.toNat < 128

/-- The password fits the digest and salt that are kept (`AuthService.verify_password`). -/
def Hashing.fits (hashing : Hashing) (password kept salt : Value) : Except Fault Bool := do
  if !kept.truthy || !salt.truthy then return false
  let found ← hashing.digest password salt
  match kept with
  | .text s => if isPlainText s then return found == s else throw .wrongKind
  | _ => throw .wrongKind

end Account
end LoanDesk
