import LoanDesk.Json.Parser

/-
# Percent signs in addresses

An address spells characters that it cannot hold as the bytes of their UTF-8 form,
each byte a percent sign and two digits in base sixteen. A percent sign without such
digits stands for itself, and bytes that are no UTF-8 read as the replacement
character, one for each start of a character that does not come to its end.

Key definitions: `Text.Utf8.Pending`, `Text.Utf8.lossy`, `Text.unpercent`.
-/

namespace LoanDesk
namespace Text
namespace Utf8

/-- A character of several bytes of which some have come: how many are missing, between which
bounds the next lies, and the bits so far. -/
structure Pending where
  missing : Nat
  low : Nat
  high : Nat
  bits : Nat
deriving DecidableEq, Repr

/-- What the bytes of a broken character read as. -/
def replacement : Char := Char.ofNat 65533

/-- What a byte starts: a whole character, a character that goes on, or nothing. -/
def start (b : Nat) : List Char × Option Pending :=
  if b < 128 then ([Char.ofNat b], none)
  else if 194 ≤ b ∧ b < 224 then ([], some ⟨1, 128, 191, b % 32⟩)
  else if 224 ≤ b ∧ b < 240 then
    ([], some ⟨2, if b = 224 then 160 else 128, if b = 237 then 159 else 191, b % 16⟩)
  else if 240 ≤ b ∧ b < 245 then
    ([], some ⟨3, if b = 240 then 144 else 128, if b = 244 then 143 else 191, b % 8⟩)
  else ([replacement], none)

/-- What a byte adds to a character that goes on. -/
def step (p : Pending) (b : Nat) : List Char × Option Pending :=
  if p.low ≤ b ∧ b ≤ p.high then
    let bits := p.bits * 64 + b % 64
    if p.missing = 1 then ([Char.ofNat bits], none) else ([], some ⟨p.missing - 1, 128, 191, bits⟩)
  else
    let (cs, next) := start b
    (replacement :: cs, next)

/-- The characters of bytes after what has come before. -/
def lossyAfter : Option Pending → List Nat → List Char
  | none, [] => []
  | some _, [] => [replacement]
  | none, b :: rest => (start b).1 ++ lossyAfter (start b).2 rest
  | some p, b :: rest => (step p b).1 ++ lossyAfter (step p b).2 rest

/-- The characters of bytes. -/
def lossy (bytes : List Nat) : List Char :=
  lossyAfter none bytes

end Utf8

/-- The bytes of a character. -/
def bytesOf (c : Char) : List Nat :=
  (String.singleton c).toUTF8.toList.map UInt8.toNat

/-- The bytes of an address in which bytes are spelled out. -/
def spelledBytes : List Char → List Nat
  | [] => []
  | '%' :: a :: b :: rest =>
    match Json.hexValue? a, Json.hexValue? b with
    | some m, some n => (m * 16 + n) :: spelledBytes rest
    | _, _ => 37 :: spelledBytes (a :: b :: rest)
  | c :: rest => bytesOf c ++ spelledBytes rest

/-- The text of an address in which bytes are spelled out. -/
def unpercent (cs : List Char) : String :=
  String.ofList (Utf8.lossy (spelledBytes cs))

end Text
end LoanDesk
