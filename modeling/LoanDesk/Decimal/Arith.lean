import LoanDesk.Decimal.Rounding

/-
# Arithmetic at a precision

Every operation gives the exact result rounded by `Decimal.fit`. Where the exact
result would need digits without end, or more than anyone can write down, a
stand-in that rounds alike takes its place: a quotient is cut behind the last digit
that counts, with that digit odd if more followed; a summand far below the other
becomes one unit below the last digit that counts.

Key definitions: `Decimal.add`, `Decimal.sub`, `Decimal.mul`, `Decimal.div`,
`Decimal.pow`, `Decimal.reduced`.
-/

namespace LoanDesk
namespace Decimal

/-- The exact sum at the lower of the two exponents; a zero sum is positive. -/
def exactSum (a b : Decimal) : Decimal :=
  let e := min a.exponent b.exponent
  let s := a.signedAt e + b.signedAt e
  ⟨s < 0, s.natAbs, e⟩

/-- The summand `low` beside `high`, whose exponent is not lower: one unit in its place if it
lies wholly below every digit that a sum of `precision` digits looks at. -/
def nudge (precision : Nat) (high low : Decimal) : Decimal :=
  let floor := high.exponent + min (-1) ((high.digits : Int) - precision - 2)
  if low.adjusted < floor then ⟨low.negative, 1, floor⟩ else low

/-- The number with zeros appended down to the exponent of a zero summand, as far as the
precision reaches. -/
def besideZero (precision : Nat) (d : Decimal) (zeroExponent : Int) : Decimal :=
  let e := max (min d.exponent zeroExponent) (d.exponent - precision - 1)
  ⟨d.negative, d.coefficientAt e, e⟩

/-- The sum. -/
def add (precision : Nat) (a b : Decimal) : Except Signal Decimal :=
  if a.isZero && b.isZero then
    fit precision ⟨a.negative && b.negative, 0, min a.exponent b.exponent⟩
  else if a.isZero then fit precision (besideZero precision b a.exponent)
  else if b.isZero then fit precision (besideZero precision a b.exponent)
  else if a.exponent < b.exponent then fit precision (exactSum (nudge precision b a) b)
  else fit precision (exactSum a (nudge precision a b))

/-- The difference. -/
def sub (precision : Nat) (a b : Decimal) : Except Signal Decimal :=
  add precision a b.negate

/-- The exact product. -/
def exactProduct (a b : Decimal) : Decimal :=
  ⟨a.negative != b.negative, a.coefficient * b.coefficient, a.exponent + b.exponent⟩

/-- The product. -/
def mul (precision : Nat) (a b : Decimal) : Except Signal Decimal :=
  fit precision (exactProduct a b)

/-- The coefficient without its last digits as long as they are zeros and the exponent stays
within `ceiling`, among the next `tries`. -/
def dropZeros : Nat → Nat → Int → Int → Nat × Int
  | 0, c, e, _ => (c, e)
  | tries + 1, c, e, ceiling =>
    if e < ceiling ∧ c % 10 = 0 then dropZeros tries (c / 10) (e + 1) ceiling else (c, e)

/-- The quotient of two numbers that are not zero, with at least `precision` and one digits; the
last of them is odd if digits followed. An exact quotient takes the exponent nearest to the
difference of the two. -/
def quotient (precision : Nat) (a b : Decimal) : Decimal :=
  let shift : Int := (b.digits : Int) - a.digits + precision + 1
  let e := a.exponent - b.exponent - shift
  let n := a.coefficient * Nat.pow 10 shift.toNat
  let m := b.coefficient * Nat.pow 10 (-shift).toNat
  let q := n / m
  let sign := a.negative != b.negative
  if n % m = 0 then
    let (c, e) := dropZeros (digitCount q) q e (a.exponent - b.exponent)
    ⟨sign, c, e⟩
  else ⟨sign, if q % 5 = 0 then q + 1 else q, e⟩

/-- The quotient; nothing divides by zero. -/
def div (precision : Nat) (a b : Decimal) : Except Signal Decimal :=
  if b.isZero then .error (if a.isZero then .invalidOperation else .divisionByZero)
  else if a.isZero then
    fit precision ⟨a.negative != b.negative, 0, a.exponent - b.exponent⟩
  else fit precision (quotient precision a b)

/-- The exact power. -/
def exactPower (d : Decimal) (n : Nat) : Decimal :=
  ⟨d.negative && n % 2 == 1, d.coefficient.pow n, d.exponent * n⟩

/-- The number cut to `kept` digits, without bounds on the exponent. -/
def keep (kept : Nat) (d : Decimal) : Decimal :=
  if d.digits ≤ kept then d
  else shortened kept d (d.exponent + d.digits - kept)

/-- The power by squaring, every factor cut to `kept` digits. -/
def powerKeeping (kept : Nat) (d : Decimal) (n : Nat) : Decimal :=
  if n = 0 then 1
  else if n % 2 = 0 then
    let h := powerKeeping kept d (n / 2)
    keep kept (exactProduct h h)
  else keep kept (exactProduct d (powerKeeping kept d (n - 1)))
termination_by n

/-- The number of digits up to which a power is worked out in full. -/
def powerRoom : Nat := 1000000

/-- The power with a whole exponent, correctly rounded. That whole powers are correctly rounded is
an assumption: the arithmetic that this stands for promises it for almost all operands only. A power
too long to write out (`powerRoom`) is worked out by `powerKeeping`, with as many more digits than
the precision as the exponent has, and ten. -/
def pow (precision : Nat) (d : Decimal) (n : Nat) : Except Signal Decimal :=
  if d.isZero && n != 0 then .ok ⟨d.negative && n % 2 == 1, 0, 0⟩
  else if d.digits * n ≤ powerRoom then fit precision (exactPower d n)
  else fit precision (powerKeeping (precision + digitCount n + 10) d n)

/-- The number in its shortest form: rounded, and without zeros at the end. -/
def reduced (precision : Nat) (d : Decimal) : Except Signal Decimal := do
  let r ← fit precision d
  if r.isZero then return ⟨r.negative, 0, 0⟩
  let (c, e) := dropZeros r.digits r.coefficient r.exponent highest
  return ⟨r.negative, c, e⟩

end Decimal
end LoanDesk
