import LoanDesk.Decimal.Basic

/-
# Order of decimal numbers

Numbers compare by amount: `1.0` and `1.00` are equal, and so are the two zeros.
The leading digits decide unless they have the same place. What is not a number
compares with nothing.

Key definitions: `Decimal.order`, `Decimal.Extended.order?`.
-/

namespace LoanDesk
namespace Decimal

/-- One, zero or minus one, as the number is above, at or below zero. -/
def sign (d : Decimal) : Int :=
  if d.isZero then 0 else if d.negative then -1 else 1

/-- How the magnitudes of two numbers other than zero compare. -/
def magnitudeOrder (a b : Decimal) : Ordering :=
  if a.adjusted = b.adjusted then
    let e := min a.exponent b.exponent
    compare (a.coefficientAt e) (b.coefficientAt e)
  else compare a.adjusted b.adjusted

/-- How two numbers compare. -/
def order (a b : Decimal) : Ordering :=
  if a.sign = b.sign then
    if a.sign = 0 then .eq
    else if a.negative then magnitudeOrder b a
    else magnitudeOrder a b
  else compare a.sign b.sign

namespace Extended

/-- Minus one and one for the infinities, and zero for numbers. -/
def reach : Extended → Int
  | .infinity true => -1
  | .infinity false => 1
  | _ => 0

/-- How two values compare; none if one of them is not a number. -/
def order? : Extended → Extended → Option Ordering
  | .nan .., _ => none
  | _, .nan .. => none
  | .finite a, .finite b => some (Decimal.order a b)
  | a, b => some (compare a.reach b.reach)

/-- The value with the other sign. -/
def negate : Extended → Extended
  | .finite d => .finite d.negate
  | .infinity n => .infinity !n
  | .nan n s p => .nan (!n) s p

end Extended
end Decimal
end LoanDesk
