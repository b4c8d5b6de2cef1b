import LoanDesk.Decimal.Order
import LoanDesk.Decimal.Text

/-
# Binary numbers of 64 bits

A measured number is a whole multiple `mantissa * 2 ^ exponent` of a power of two
with at most 53 bits and an exponent from -1074 to 971, held in lowest form: either
53 bits or the lowest exponent. It is written with the fewest decimal digits that
read back as the same number, the nearest of those; positionally from 0.0001 up to
10 ^ 16 and with an exponent otherwise.

Key definitions: `Binary64`, `Binary64.nearest`, `Binary64.ofDecimal`,
`Binary64.exact`, `Binary64.shortest`, `Binary64.text`, `Binary64.ofText?`.
-/

namespace LoanDesk

/-- A binary number, an infinity or not a number. -/
inductive Binary64 where
  | finite (negative : Bool) (mantissa : Nat) (exponent : Int)
  | infinity (negative : Bool)
  | nan
deriving DecidableEq, Repr

namespace Binary64

open LoanDesk.Text

/-- The fraction `n / d` rounded to a whole number, a half to the even neighbour. -/
def roundDiv (n d : Nat) : Nat :=
  let q := n / d
  let r := n % d
  if d < 2 * r ∨ (2 * r = d ∧ q % 2 = 1) then q + 1 else q

/-- The exponent of the last bit of the number nearest to `n / d`. -/
def unitExponent (n d : Nat) : Int :=
  let e : Int := (n.log2 : Int) - d.log2 - 53
  let quotient := n * Nat.pow 2 (-e).toNat / (d * Nat.pow 2 e.toNat)
  max (if quotient < Nat.pow 2 53 then e else e + 1) (-1074)

/-- The number nearest to the fraction `n / d`, of two the one with an even mantissa. -/
def nearest (negative : Bool) (n d : Nat) : Binary64 :=
  if n = 0 then .finite negative 0 (-1074)
  else
    let e := unitExponent n d
    let m := roundDiv (n * Nat.pow 2 (-e).toNat) (d * Nat.pow 2 e.toNat)
    let (m, e) := if m = Nat.pow 2 53 then (Nat.pow 2 52, e + 1) else (m, e)
    if 971 < e then .infinity negative else .finite negative m e

/-- The number nearest to a decimal number. -/
def ofDecimal (d : Decimal) : Binary64 :=
  if d.isZero ∨ d.adjusted < -400 then .finite d.negative 0 (-1074)
  else if 400 < d.adjusted then .infinity d.negative
  else nearest d.negative (d.coefficient * Nat.pow 10 d.exponent.toNat)
    (Nat.pow 10 (-d.exponent).toNat)

/-- The mantissa and exponent without common factors of two. -/
def lowestTerms : Nat → Nat → Int → Nat × Int
  | 0, m, e => (m, e)
  | tries + 1, m, e => if e < 0 ∧ m % 2 = 0 then lowestTerms tries (m / 2) (e + 1) else (m, e)

/-- The decimal number that is equal to a finite binary number. -/
def exactFinite (negative : Bool) (m : Nat) (e : Int) : Decimal :=
  if m = 0 then ⟨negative, 0, 0⟩
  else
    let (m, e) := lowestTerms 1074 m e
    if 0 ≤ e then ⟨negative, m * Nat.pow 2 e.toNat, 0⟩ else ⟨negative, m * Nat.pow 5 (-e).toNat, e⟩

/-- The decimal value that is equal to a binary value. -/
def exact : Binary64 → Decimal.Extended
  | .finite n m e => .finite (exactFinite n m e)
  | .infinity n => .infinity n
  | .nan => .nan false false 0

/-- The two neighbours of a decimal number with `n` digits, nearer one first. -/
def neighbours (d : Decimal) (n : Nat) : Decimal × Decimal :=
  let k := d.digits - n
  let below : Decimal := ⟨d.negative, d.coefficient / Nat.pow 10 k, d.exponent + k⟩
  let above : Decimal := ⟨d.negative, d.coefficient / Nat.pow 10 k + 1, d.exponent + k⟩
  let r := d.coefficient % Nat.pow 10 k
  if 2 * r < Nat.pow 10 k ∨ (2 * r = Nat.pow 10 k ∧ below.coefficient % 2 = 0) then (below, above)
  else (above, below)

/-- The decimal number with the fewest digits, `n` or more, that reads back as `x`, the nearest
of those to the exact value `d`; tried for `tries` lengths. -/
def shortestFrom (x : Binary64) (d : Decimal) : Nat → Nat → Decimal
  | 0, _ => d
  | tries + 1, n =>
    if d.digits ≤ n then d
    else
      let (near, far) := neighbours d n
      if ofDecimal near = x then near
      else if ofDecimal far = x then far
      else shortestFrom x d tries (n + 1)

/-- The shortest decimal number that reads back as the given finite number. -/
def shortest (negative : Bool) (m : Nat) (e : Int) : Decimal :=
  shortestFrom (.finite negative m e) (exactFinite negative m e) 17 1

/-- The digits of a number without the zeros at their end. -/
def significant (n : Nat) : List Char :=
  match ((natDigits n).reverse.dropWhile (· == '0')).reverse with
  | [] => ['0']
  | ds => ds

/-- A number in positional form, which always has a fraction. -/
def positional (ds : List Char) (place : Int) : List Char :=
  let cs := Decimal.withPoint ds place
  if (ds.length : Int) ≤ place then cs ++ ['.', '0'] else cs

/-- A number as one digit, its fraction and an exponent of at least two digits. -/
def scientific (ds : List Char) (e : Int) : List Char :=
  (match ds with
    | [] => []
    | [d] => [d]
    | d :: rest => d :: '.' :: rest) ++
    'e' :: (if e < 0 then '-' else '+') :: padded 2 e.natAbs

/-- The characters of a decimal number in the form of a measured one. -/
def measured (d : Decimal) : List Char :=
  let ds := significant d.coefficient
  let e := if d.isZero then 0 else d.adjusted
  Decimal.signChars d.negative ++
    (if -4 ≤ e ∧ e < 16 then positional ds (e + 1) else scientific ds e)

/-- The characters of a binary number. -/
def chars : Binary64 → List Char
  | .finite n m e => measured (shortest n m e)
  | .infinity n => Decimal.signChars n ++ "inf".toList
  | .nan => "nan".toList

/-- The text of a binary number. -/
def text (x : Binary64) : String :=
  String.ofList x.chars

/-- The number nearest to a decimal value. -/
def ofExtended : Decimal.Extended → Binary64
  | .finite d => ofDecimal d
  | .infinity n => .infinity n
  | .nan .. => .nan

/-- The number that a text stands for; no exponent is too large or too small. -/
def ofText? (s : String) : Option Binary64 :=
  (Decimal.Extended.spelled? s).map ofExtended

/-- The number nearest to an integer. -/
def ofInt (i : Int) : Binary64 :=
  ofDecimal (Decimal.ofInt i)

/-- The whole part of a finite number, towards zero. -/
def truncated? : Binary64 → Option Int
  | .finite n m e => some (exactFinite n m e).truncated
  | _ => none

end Binary64
end LoanDesk
