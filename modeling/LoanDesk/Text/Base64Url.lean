import LoanDesk.Crypto.Sha256

/-
# Bytes in the alphabet of web addresses

Three bytes are written as four characters, what is left over as two or three. Only
what writing gives is read, except that the text may be filled up to a multiple of
four with one or two equals signs.

Key definitions: `Base64Url.encode`, `Base64Url.decode?`.
-/

namespace LoanDesk
namespace Base64Url

/-- The characters of the values below 64. -/
def alphabet : List Char :=
  "ABCDEFGHIJKLMNOPQRSTUVWXYZabcdefghijklmnopqrstuvwxyz0123456789-_".toList

/-- The character of a value. -/
def charOf (n : Nat) : Char :=
  alphabet.getD (n % 64) 'A'

/-- The value of a character. -/
def valueOf? (c : Char) : Option Nat :=
  alphabet.findIdx? (· == c)

/-- The characters of a row of bytes. -/
def encode : Bytes → List Char
  | a :: b :: c :: rest =>
    let n := (a.toNat * 256 + b.toNat) * 256 + c.toNat
    charOf (n / 262144) :: charOf (n / 4096) :: charOf (n / 64) :: charOf n :: encode rest
  | [a, b] =>
    let n := (a.toNat * 256 + b.toNat) * 4
    [charOf (n / 4096), charOf (n / 64), charOf n]
  | [a] =>
    let n := a.toNat * 16
    [charOf (n / 64), charOf n]
  | [] => []

/-- The bytes of a row of values. Bits that fill up the last character must be zero. -/
def ofValues : List Nat → Option Bytes
  | a :: b :: c :: d :: rest => do
    let n := ((a * 64 + b) * 64 + c) * 64 + d
    let bytes ← ofValues rest
    return UInt8.ofNat (n / 65536) :: UInt8.ofNat (n / 256) :: UInt8.ofNat n :: bytes
  | [a, b, c] =>
    let n := (a * 64 + b) * 64 + c
    if n % 4 = 0 then some [UInt8.ofNat (n / 1024), UInt8.ofNat (n / 4)] else none
  | [a, b] =>
    let n := a * 64 + b
    if n % 16 = 0 then some [UInt8.ofNat (n / 16)] else none
  | [_] => none
  | [] => some []

/-- The characters without the equals signs that fill them up. -/
def unfilled (cs : List Char) : Option (List Char) :=
  let body := (cs.reverse.dropWhile (· == '=')).reverse
  let fill := cs.length - body.length
  if fill = 0 then some cs
  else if fill ≤ 2 ∧ cs.length % 4 = 0 then some body
  else none

/-- The bytes that the characters stand for. -/
def decode? (cs : List Char) : Option Bytes := do
  let body ← unfilled cs
  let values ← body.mapM valueOf?
  ofValues values

end Base64Url
end LoanDesk
