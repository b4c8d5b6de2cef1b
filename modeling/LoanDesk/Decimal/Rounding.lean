import LoanDesk.Decimal.Basic

/-
# Rounding to a number of digits

Results have at most as many digits as the precision in force; digits beyond them
are dropped and a half goes to the even neighbour. The leading digit lies between
`10 ^ lowest` and `10 ^ highest`; a result above is an overflow, one below loses
digits until nothing is left. Rounding to a place sends a half away from zero.

Key definitions: `dropHalfEven`, `dropHalfUp`, `Decimal.fit`, `Decimal.roundedAt`.
-/

namespace LoanDesk

/-- The number without its last `k` digits, a half rounded to the even neighbour. -/
def dropHalfEven (n k : Nat) : Nat :=
  if digitCount n < k then 0
  else
    let q := n / Nat.pow 10 k
    let r := n % Nat.pow 10 k
    if Nat.pow 10 k < 2 * r ∨ (2 * r = Nat.pow 10 k ∧ q % 2 = 1) then q + 1 else q

/-- The number without its last `k` digits, a half rounded up. -/
def dropHalfUp (n k : Nat) : Nat :=
  if digitCount n < k then 0
  else
    let q := n / Nat.pow 10 k
    let r := n % Nat.pow 10 k
    if Nat.pow 10 k ≤ 2 * r then q + 1 else q

namespace Decimal

/-- The highest exponent of a leading digit. -/
def highest : Int := 999999

/-- The lowest exponent of a leading digit with all digits kept. -/
def lowest : Int := -999999

/-- The lowest exponent of any digit at a precision. -/
def tiniest (precision : Nat) : Int :=
  lowest - precision + 1

/-- The number with at most `precision` digits, none of them below `least`, when its leading
digit is in range. -/
def shortened (precision : Nat) (d : Decimal) (least : Int) : Decimal :=
  let c := dropHalfEven d.coefficient (least - d.exponent).toNat
  if precision < digitCount c then ⟨d.negative, c / 10, least + 1⟩ else ⟨d.negative, c, least⟩

/-- The number that stands for `d` at a precision. -/
def fit (precision : Nat) (d : Decimal) : Except Signal Decimal :=
  if d.isZero then
    .ok { d with exponent := min (max d.exponent (tiniest precision)) highest }
  else if highest < d.adjusted then .error .overflow
  else
    let least := max (d.exponent + d.digits - precision) (tiniest precision)
    if d.exponent < least then
      let r := shortened precision d least
      if highest < r.adjusted then .error .overflow else .ok r
    else .ok d

/-- The number at the exponent `place`, a half rounded away from zero. -/
def atPlace (d : Decimal) (place : Int) : Decimal :=
  if place ≤ d.exponent then ⟨d.negative, d.coefficientAt place, place⟩
  else ⟨d.negative, dropHalfUp d.coefficient (place - d.exponent).toNat, place⟩

/-- The number at the exponent `place`, if `precision` digits hold it. -/
def roundedAt (precision : Nat) (place : Int) (d : Decimal) : Except Signal Decimal :=
  if d.isZero then .ok ⟨d.negative, 0, place⟩
  else if (precision : Int) < d.adjusted - place + 1 then .error .invalidOperation
  else
    let r := d.atPlace place
    if precision < r.digits then .error .invalidOperation else .ok r

end Decimal
end LoanDesk
