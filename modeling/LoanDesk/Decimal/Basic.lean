/-
# Decimal numbers

A decimal number is a sign, a coefficient and a power of ten. Numbers that are
equal as amounts may differ as decimals: `1.0` and `1.00` have their own
coefficient and exponent, and zero has a sign. `Decimal.Extended` adds the
infinities and the two kinds of not-a-number.

Key definitions: `digitCount`, `Decimal`, `Decimal.adjusted`, `Decimal.Extended`,
`Decimal.Signal`.
-/

namespace LoanDesk

/-- The least number of places from `k` on that hold `n`, among the next `tries`. -/
def placesFrom (n : Nat) : Nat → Nat → Nat
  | 0, k => k
  | tries + 1, k => if n < Nat.pow 10 k then k else placesFrom n tries (k + 1)

/-- The number of decimal digits; zero has one. The search starts at the digits of the power
of two below `n`, since `10 ^ 15051 ≤ 2 ^ 50000`. -/
def digitCount (n : Nat) : Nat :=
  placesFrom n (n.log2 + 1) (n.log2 * 15051 / 50000 + 1)

/-- The number `± coefficient * 10 ^ exponent`. -/
structure Decimal where
  negative : Bool
  coefficient : Nat
  exponent : Int
deriving DecidableEq, Repr

namespace Decimal

/-- An integer as a decimal number. -/
def ofInt (i : Int) : Decimal :=
  ⟨i < 0, i.natAbs, 0⟩

/-- A natural number as a decimal number. -/
def ofNat (n : Nat) : Decimal :=
  ⟨false, n, 0⟩

instance (n : Nat) : OfNat Decimal n := ⟨ofNat n⟩

instance : Inhabited Decimal := ⟨0⟩

/-- The number is zero, of either sign. -/
def isZero (d : Decimal) : Bool :=
  d.coefficient == 0

/-- The digits of the coefficient. -/
def digits (d : Decimal) : Nat :=
  digitCount d.coefficient

/-- The exponent of the leading digit. -/
def adjusted (d : Decimal) : Int :=
  d.exponent + (d.digits : Int) - 1

/-- The number with the other sign. -/
def negate (d : Decimal) : Decimal :=
  { d with negative := !d.negative }

/-- The coefficient with its sign. -/
def signed (d : Decimal) : Int :=
  if d.negative then -(d.coefficient : Int) else d.coefficient

/-- The coefficient that the number has at an exponent not above its own. -/
def coefficientAt (d : Decimal) (e : Int) : Nat :=
  d.coefficient * Nat.pow 10 (d.exponent - e).toNat

/-- The coefficient with its sign at an exponent not above the number's own. -/
def signedAt (d : Decimal) (e : Int) : Int :=
  d.signed * Nat.pow 10 (d.exponent - e).toNat

/-- The whole part of the number, towards zero. -/
def truncated (d : Decimal) : Int :=
  let n : Nat :=
    if 0 ≤ d.exponent then d.coefficient * Nat.pow 10 d.exponent.toNat
    else if d.adjusted < 0 then 0
    else d.coefficient / Nat.pow 10 (-d.exponent).toNat
  if d.negative then -(n : Int) else n

/-- The outcomes of an operation that has no answer within its bounds. -/
inductive Signal where
  | invalidOperation
  | divisionByZero
  | overflow
deriving DecidableEq, Repr

/-- A decimal number, an infinity or not a number; the last may carry digits and may be of
the kind that no operation accepts. -/
inductive Extended where
  | finite (d : Decimal)
  | infinity (negative : Bool)
  | nan (negative signaling : Bool) (payload : Nat)
deriving DecidableEq, Repr

/-- The value is a number. -/
def Extended.isFinite : Extended → Bool
  | .finite _ => true
  | _ => false

end Decimal
end LoanDesk
