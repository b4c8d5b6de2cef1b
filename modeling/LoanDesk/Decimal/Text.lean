import LoanDesk.Decimal.Basic
import LoanDesk.Text.Blank
import LoanDesk.Text.Digit

/-
# Written decimal numbers

A number is written with a point if the point falls within the digits or at most
five zeros before them, and with an exponent otherwise: `12.50`, `0E-9`, `1E+3`.
Reading takes more than writing gives: blanks at both ends, the digits of every
script, grouping underscores, and exponents of either case.

Key definitions: `Decimal.text`, `Decimal.plain`, `Decimal.Extended.text`,
`Decimal.Extended.spelled?`, `Decimal.Extended.ofText?`, `Decimal.withinReach`.
-/

namespace LoanDesk
namespace Decimal

open LoanDesk.Text

/-- The digits with a point after the first `place` of them, filled up with zeros where the
point falls outside. -/
def withPoint (ds : List Char) (place : Int) : List Char :=
  if place ≤ 0 then '0' :: '.' :: (List.replicate (-place).toNat '0' ++ ds)
  else if (ds.length : Int) ≤ place then ds ++ List.replicate (place.toNat - ds.length) '0'
  else ds.take place.toNat ++ '.' :: ds.drop place.toNat

/-- A minus sign for a negative number. -/
def signChars (negative : Bool) : List Char :=
  if negative then ['-'] else []

/-- An exponent with its sign, always shown. -/
def exponentChars (e : Int) : List Char :=
  'E' :: (if e < 0 then '-' else '+') :: natDigits e.natAbs

/-- The characters of a number. -/
def chars (d : Decimal) : List Char :=
  let ds := natDigits d.coefficient
  let left := d.exponent + ds.length
  let place := if d.exponent ≤ 0 ∧ -6 < left then left else 1
  signChars d.negative ++ withPoint ds place ++
    (if left = place then [] else exponentChars (left - place))

/-- The text of a number, which keeps its sign, coefficient and exponent. -/
def text (d : Decimal) : String :=
  String.ofList d.chars

/-- The characters of a number without an exponent. -/
def plainChars (d : Decimal) : List Char :=
  let ds := natDigits d.coefficient
  let ds := if 0 ≤ d.exponent ∧ !d.isZero then ds ++ List.replicate d.exponent.toNat '0' else ds
  signChars d.negative ++ withPoint ds (ds.length + min d.exponent 0)

/-- The text of a number without an exponent. -/
def plain (d : Decimal) : String :=
  String.ofList d.plainChars

/-- The exponents that a written number can have: the leading digit at most at the first
bound, the last digit at least at the second. -/
def withinReach (d : Decimal) : Bool :=
  d.adjusted ≤ 999999999999999999 && -1999999999999999997 ≤ d.exponent

namespace Extended

/-- The characters of a value. -/
def chars : Extended → List Char
  | .finite d => d.chars
  | .infinity n => signChars n ++ "Infinity".toList
  | .nan n s payload =>
    signChars n ++ (if s then ['s'] else []) ++ "NaN".toList ++
      (if payload = 0 then [] else natDigits payload)

/-- The text of a value. -/
def text (x : Extended) : String :=
  String.ofList x.chars

/-- The text of a value without an exponent. -/
def plain : Extended → String
  | .finite d => d.plain
  | x => x.text

/-- The characters of a number in the plain alphabet: no grouping marks, every digit one of `0`
to `9`. -/
def plainAlphabet : List Char → Option (List Char)
  | [] => some []
  | c :: rest =>
    if c = '_' then plainAlphabet rest
    else if c.toNat < 128 then (plainAlphabet rest).map (c :: ·)
    else (digitValue? c).bind fun d => (plainAlphabet rest).map (digitChar d :: ·)

/-- A sign in front of the rest. -/
def splitSign : List Char → Bool × List Char
  | '-' :: rest => (true, rest)
  | '+' :: rest => (false, rest)
  | rest => (false, rest)

/-- The plain digits at the start and the rest. -/
def splitDigits (cs : List Char) : List Nat × List Char :=
  match cs with
  | [] => ([], [])
  | c :: rest =>
    match asciiDigit? c with
    | some d => let (ds, rest) := splitDigits rest; (d :: ds, rest)
    | none => ([], cs)

/-- The letter in small form, for the letters `A` to `Z`. -/
def smallAscii (c : Char) : Char :=
  if 'A' ≤ c ∧ c ≤ 'Z' then Char.ofNat (c.toNat + 32) else c

/-- An exponent at the end of a number: nothing, or a mark, a sign and digits. -/
def readExponent (cs : List Char) : Option Int :=
  match cs with
  | [] => some 0
  | c :: rest =>
    if smallAscii c = 'e' then
      let (negative, rest) := splitSign rest
      match splitDigits rest with
      | ([], _) => none
      | (ds, []) =>
        let n : Int := ofDigits ds
        some (if negative then -n else n)
      | _ => none
    else none

/-- The digits after a point, if there is one. -/
def readFraction (cs : List Char) : List Nat × List Char :=
  match cs with
  | '.' :: rest => splitDigits rest
  | _ => ([], cs)

/-- A number without its sign. -/
def readUnsigned (negative : Bool) (cs : List Char) : Option Extended :=
  let (whole, rest) := splitDigits cs
  let (fraction, rest) := readFraction rest
  if whole.isEmpty && fraction.isEmpty then none
  else do
    let e ← readExponent rest
    return .finite ⟨negative, ofDigits (whole ++ fraction), e - fraction.length⟩

/-- The digits that not-a-number carries. -/
def readPayload (cs : List Char) : Option Nat :=
  match splitDigits cs with
  | (ds, []) => some (ofDigits ds)
  | _ => none

/-- A value in the plain alphabet. -/
def readPlain (cs : List Char) : Option Extended :=
  let (negative, rest) := splitSign cs
  let small := rest.map smallAscii
  if small = "inf".toList ∨ small = "infinity".toList then some (.infinity negative)
  else if small.take 3 = "nan".toList then
    (readPayload (rest.drop 3)).map (.nan negative false)
  else if small.take 4 = "snan".toList then
    (readPayload (rest.drop 4)).map (.nan negative true)
  else readUnsigned negative rest

/-- The value that a text spells, whatever its exponent. -/
def spelled? (s : String) : Option Extended :=
  (plainAlphabet (trim s.toList)).bind readPlain

/-- The value has an exponent that a written number can have. -/
def isWithinReach : Extended → Bool
  | .finite d => d.withinReach
  | _ => true

/-- The value that a text stands for. -/
def ofText? (s : String) : Option Extended :=
  (spelled? s).filter isWithinReach

end Extended
end Decimal
end LoanDesk
