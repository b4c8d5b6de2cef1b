/-
# Decimal digits of every script

Numbers may be written with the digits of any script that counts in tens.

Key definitions: `digitZeros`, `digitValue?`, `isDigit`.
-/

namespace LoanDesk
namespace Text

/-- The characters that stand for zero in the decimal number systems; the nine that follow each of
them stand for one to nine. -/
def digitZeros : List Nat := [
  48, 1632, 1776, 1984, 2406, 2534, 2662, 2790, 2918, 3046, 3174, 3302, 3430, 3558, 3664, 3792,
  3872, 4160, 4240, 6112, 6160, 6470, 6608, 6784, 6800, 6992, 7088, 7232, 7248, 42528, 43216,
  43264, 43472, 43504, 43600, 44016, 65296, 66720, 68912, 69734, 69872, 69942, 70096, 70384,
  70736, 70864, 71248, 71360, 71472, 71904, 72016, 72784, 73040, 73120, 92768, 92864, 93008,
  120782, 120792, 120802, 120812, 120822, 123200, 123632, 125264, 130032]

/-- The value of a decimal digit of any script. -/
def digitValue? (c : Char) : Option Nat :=
  (digitZeros.find? fun z => z ≤ c.toNat && c.toNat ≤ z + 9).map fun z => c.toNat - z

/-- The character is a decimal digit of some script. -/
def isDigit (c : Char) : Bool :=
  (digitValue? c).isSome

/-- The value of one of the digits `0` to `9`. -/
def asciiDigit? (c : Char) : Option Nat :=
  if '0' ≤ c ∧ c ≤ '9' then some (c.toNat - 48) else none

/-- The digit of a value below ten. -/
def digitChar (n : Nat) : Char :=
  Char.ofNat (48 + n % 10)

/-- The digits of a number, leading digit first, put before `rest`. -/
def digitsOnto (n : Nat) (rest : List Char) : List Char :=
  if n < 10 then digitChar n :: rest else digitsOnto (n / 10) (digitChar (n % 10) :: rest)
termination_by n

/-- The digits of a number, leading digit first. -/
def natDigits (n : Nat) : List Char :=
  digitsOnto n []

/-- The number that a row of digit values stands for. -/
def ofDigits (ds : List Nat) : Nat :=
  ds.foldl (fun n d => n * 10 + d) 0

/-- The digits of an integer after its sign. -/
def intDigits (i : Int) : List Char :=
  if i < 0 then '-' :: natDigits i.natAbs else natDigits i.natAbs

/-- The digits of a number filled with zeros on the left to a width. -/
def padded (width n : Nat) : List Char :=
  let ds := natDigits n
  List.replicate (width - ds.length) '0' ++ ds

end Text
end LoanDesk
