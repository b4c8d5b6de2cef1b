import LoanDesk.Crypto.Sha512

/-
# Keyed digests

A keyed digest tells that a message comes from someone who holds the key. Keys
longer than a block are replaced by their digest. Any digest that works on blocks
will do.

Key definitions: `Hmac.Base`, `Hmac.digestWith`, `Hmac.digest`, `Hmac.derive`.
-/

namespace LoanDesk
namespace Hmac

/-- A digest without a key, and the size of its blocks in bytes. -/
structure Base where
  block : Nat
  plain : Bytes → Bytes

/-- The digest of 256 bits. -/
def sha256 : Base := ⟨64, Sha256.digest⟩

/-- The digest of 384 bits. -/
def sha384 : Base := ⟨128, Sha512.shortDigest⟩

/-- The digest of 512 bits. -/
def sha512 : Base := ⟨128, Sha512.digest⟩

/-- The key as one block. -/
def blockOf (base : Base) (key : Bytes) : Bytes :=
  let key := if base.block < key.length then base.plain key else key
  key ++ List.replicate (base.block - key.length) 0

/-- The digest of a message under a key. -/
def digestWith (base : Base) (key message : Bytes) : Bytes :=
  let block := blockOf base key
  let inner := base.plain (block.map (· ^^^ 0x36) ++ message)
  base.plain (block.map (· ^^^ 0x5c) ++ inner)

/-- The digest of a message under a key, of 256 bits. -/
def digest (key message : Bytes) : Bytes :=
  digestWith sha256 key message

/-- The blocks numbered from `i` on of a key stretched from a password and a salt. -/
def deriveFrom (password salt : Bytes) : Nat → Nat → Bytes
  | 0, _ => []
  | count + 1, i =>
    digest password (salt ++ Sha256.bigEndian 4 i) ++ deriveFrom password salt count (i + 1)

/-- A key of `length` bytes stretched from a password and a salt in one pass. -/
def derive (password salt : Bytes) (length : Nat) : Bytes :=
  (deriveFrom password salt ((length + 31) / 32) 1).take length

end Hmac
end LoanDesk
