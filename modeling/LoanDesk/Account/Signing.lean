import LoanDesk.Crypto.Hmac
import LoanDesk.Crypto.Scrypt
import LoanDesk.Refusal

/-
# Ways of signing

Whoever signs and whoever checks hold the same secret, and the name of a way of signing
says which keyed digest is made with it. A secret that looks like half of a pair of keys
is refused, since such a half may be public: the armour of a key file with its label at
both ends, or the first word of a key for remote shells. One way does not sign at all;
it takes no secret, and nothing passes its check.

Key definitions: `Account.looksArmoured`, `Account.looksLikeShellKey`,
`Account.Signing`, `Account.Signing.named?`, `Account.Signing.key`,
`Account.Signing.sign`.
-/

namespace LoanDesk
namespace Account

/-! ### Secrets that are no secrets -/

/-- The labels of the armour of keys and certificates. -/
def armourLabels : List String := [
  "CERTIFICATE", "TRUSTED CERTIFICATE", "PRIVATE KEY", "PUBLIC KEY", "ENCRYPTED PRIVATE KEY",
  "OPENSSH PRIVATE KEY", "DSA PRIVATE KEY", "RSA PRIVATE KEY", "RSA PUBLIC KEY",
  "EC PRIVATE KEY", "DH PARAMETERS", "NEW CERTIFICATE REQUEST", "CERTIFICATE REQUEST",
  "SSH2 PUBLIC KEY", "SSH2 ENCRYPTED PRIVATE KEY", "X509 CRL"]

/-- The rest behind a word at the front. -/
def after? (word : String) (cs : List Char) : Option (List Char) :=
  if word.toList.isPrefixOf cs then some (cs.drop word.length) else none

/-- The rest behind a dash or a blank. -/
def afterDash? : List Char → Option (List Char)
  | c :: rest => if c = '-' ∨ c = ' ' then some rest else none
  | [] => none

/-- The rest behind a line of armour: dashes, a word, a label and dashes. -/
def afterArmour? (word label : String) (cs : List Char) : Option (List Char) := do
  let cs ← afterDash? (← after? "----" cs)
  after? "----" (← afterDash? (← after? (word ++ " " ++ label) cs))

/-- The rest behind the end of a line. -/
def afterLine? : List Char → Option (List Char)
  | '\n' :: rest => some rest
  | '\r' :: '\n' :: rest => some rest
  | _ => none

/-- A later line closes the armour of a label. -/
def closesArmour (label : String) : List Char → Bool
  | [] => false
  | c :: rest => (c == '\n' && (afterArmour? "END" label rest).isSome) || closesArmour label rest

/-- The armour of a label stands at the front, with something in it. -/
def startsArmour (cs : List Char) (label : String) : Bool :=
  match (afterArmour? "BEGIN" label cs).bind afterLine? with
  | some (_ :: inside) => closesArmour label inside
  | _ => false

/-- There is armour somewhere in the characters. -/
def looksArmoured : List Char → Bool
  | [] => false
  | c :: rest => armourLabels.any (startsArmour (c :: rest)) || looksArmoured rest

/-- The first words of keys for remote shells. -/
def shellKeyWords : List String := [
  "ssh-ed25519", "ssh-rsa", "ssh-dss", "ecdsa-sha2-nistp256", "ecdsa-sha2-nistp384",
  "ecdsa-sha2-nistp521"]

/-- The word stands somewhere in the characters. -/
def contains (word : String) : List Char → Bool
  | [] => false
  | c :: rest => word.toList.isPrefixOf (c :: rest) || contains word rest

/-- The character separates words of a line. -/
def isGap (c : Char) : Bool :=
  c == ' ' || c == '\t'

/-- The character belongs to no word. -/
def isOutsideWord (c : Char) : Bool :=
  isGap c || (10 ≤ c.toNat && c.toNat ≤ 13)

/-- The characters start with a certificate for remote shells and a word behind it. -/
def looksCertified (cs : List Char) : Bool :=
  let first := cs.takeWhile fun c => !isOutsideWord c
  let gap := (cs.drop first.length).takeWhile isGap
  let next := cs.drop (first.length + gap.length)
  "-cert-v01@openssh.com".toList.isSuffixOf first && !gap.isEmpty &&
    (next.head?.map fun c => !isOutsideWord c).getD false

/-- The characters look like a key for remote shells. -/
def looksLikeShellKey (cs : List Char) : Bool :=
  shellKeyWords.any (contains · cs) || looksCertified cs

/-! ### Signing -/

/-- A way of signing. -/
inductive Signing where
  | unsigned
  | keyed (base : Hmac.Base)

namespace Signing

/-- The way of signing of a name. -/
def named? (name : String) : Option Signing :=
  match name with
  | "none" => some unsigned
  | "HS256" => some (keyed Hmac.sha256)
  | "HS384" => some (keyed Hmac.sha384)
  | "HS512" => some (keyed Hmac.sha512)
  | _ => none

/-- The bytes of a secret that can be shared. -/
def sharedKey : Value → Except Fault Bytes
  | .text s =>
    if s = "" ∨ looksArmoured s.toList ∨ looksLikeShellKey s.toList then .error .unusableKey
    else .ok (Scrypt.textBytes s)
  | .torn _ => .error .notEncodable
  | _ => .error .wrongKind

/-- The key that a secret gives; where nothing is signed there must be none. -/
def key (s : Signing) (secret : Value) : Except Fault Bytes :=
  match s, secret with
  | unsigned, .null | unsigned, .text "" => .ok []
  | unsigned, _ => .error .unusableKey
  | keyed _, secret => sharedKey secret

/-- The signature of a message. -/
def sign (s : Signing) (key message : Bytes) : Bytes :=
  match s with
  | unsigned => []
  | keyed base => Hmac.digestWith base key message

/-- The signature is that of the message. -/
def verifies (s : Signing) (key message signature : Bytes) : Bool :=
  match s with
  | unsigned => false
  | keyed base => Hmac.digestWith base key message == signature

end Signing
end Account
end LoanDesk
