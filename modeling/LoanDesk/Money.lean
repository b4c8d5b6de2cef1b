import LoanDesk.Refusal
import LoanDesk.Decimal.Arith

/-
# Money

Amounts are decimal numbers, never binary ones: a measured number counts as the
shortest decimal that reads back as it. Texts may carry a currency symbol, blanks
and separators. With both a comma and a point the commas separate thousands; a comma
alone separates thousands if more than two digits follow it. Amounts are kept to the
cent, a half cent rounded away from zero, and shown with thousands separated.

Key definitions: `Money.precision`, `Money.ofText`, `Money.ofValue`, `Money.cents`,
`Money.ofValueToCents`, `Money.shown`, `Money.shownValue`.
-/

namespace LoanDesk
namespace Money

/-- The digits that every amount is computed with. -/
def precision : Nat := 28

/-- The character may be part of an amount. -/
def isAmountChar (c : Char) : Bool :=
  Text.isDigit c || c == '.' || c == ',' || c == '-' || c == '+'

/-- The characters with every comma taken out. -/
def withoutCommas (cs : List Char) : List Char :=
  cs.filter (· != ',')

/-- The characters with the commas settled: each is dropped as a separator of thousands or stands
for the point, as `decimal_from_string` decides. -/
def settleCommas (cs : List Char) : List Char :=
  if ',' ∉ cs then cs
  else if '.' ∈ cs then withoutCommas cs
  else if cs.count ',' = 1 ∧ ((cs.dropWhile (· != ',')).drop 1).length ≤ 2 then
    cs.map fun c => if c = ',' then '.' else c
  else withoutCommas cs

/-- The characters of an amount without its decoration. -/
def bare (cs : List Char) : List Char :=
  settleCommas ((Text.trim cs).filter isAmountChar)

/-- The amount that a text stands for. -/
def ofText (s : String) : Except Fault Decimal :=
  if s = "" then .error .emptyAmount
  else
    match Decimal.Extended.ofText? (String.ofList (bare s.toList)) with
    | some (.finite d) => .ok d
    | _ => .error (.unreadableAmount s)

/-- The amount that a value stands for, if it is a text (`decimal_from_string`). -/
def ofTextValue : Value → Except Fault Decimal
  | .text s => ofText s
  | _ => .error .emptyAmount

/-- The value, if it is a number with an end. -/
def finite (v : Value) : Decimal.Extended → Except Fault Decimal
  | .finite d => .ok d
  | _ => .error (.noFiniteAmount v.quoted)

/-- The amount that a value stands for. Truth values are no amounts (`to_decimal`). -/
def ofValue (v : Value) : Except Fault Decimal :=
  match v with
  | .decimal x => finite v x
  | .int i => .ok (Decimal.ofInt i)
  | .float x =>
    match Decimal.Extended.ofText? x.text with
    | some y => finite v y
    | none => .error (.noFiniteAmount v.quoted)
  | .text s => ofText s
  | _ => .error (.noAmount v.quoted)

/-- The place of the cents. -/
def centPlace : Int := -2

/-- The amount to the cent, at a precision. -/
def centsAt (precision : Nat) (d : Decimal) : Except Decimal.Signal Decimal :=
  d.roundedAt precision centPlace

/-- The amount to the cent. -/
def cents (d : Decimal) : Except Decimal.Signal Decimal :=
  centsAt precision d

/-- The value to the cent, by `cents`; what is not a number stays so, unless nothing accepts it. -/
def extendedCents : Decimal.Extended → Except Decimal.Signal Decimal.Extended
  | .finite d => (cents d).map .finite
  | .nan n false payload => .ok (.nan n false (payload % Nat.pow 10 precision))
  | _ => .error .invalidOperation

/-- The amount that a value stands for, to the cent (`quantize_currency`). -/
def ofValueToCents (v : Value) : Except Fault Decimal.Extended :=
  match v with
  | .decimal x => Fault.ofArithmetic (extendedCents x)
  | _ => do Fault.ofArithmetic (extendedCents (.finite (← ofValue v)))

/-- The digits with a comma before every third digit from the end; `ds` is held last digit
first, and so is the result. -/
def groupReversed : List Char → List Char
  | a :: b :: c :: d :: rest => a :: b :: c :: ',' :: groupReversed (d :: rest)
  | ds => ds

/-- The digits with thousands separated. -/
def grouped (ds : List Char) : List Char :=
  (groupReversed ds.reverse).reverse

/-- The characters of an amount of so many cents. -/
def shownCents (negative : Bool) (n : Nat) : List Char :=
  (if negative && n != 0 then ['-'] else []) ++
    '$' :: (grouped (Text.natDigits (n / 100)) ++ '.' :: Text.padded 2 (n % 100))

/-- The text of an amount, to the cent: `-$12,500.00`. -/
def shown (d : Decimal) : Except Decimal.Signal String :=
  (cents d).map fun r => String.ofList (shownCents r.negative r.coefficient)

/-- The text of the amount that a value stands for (`format_currency`). -/
def shownValue (v : Value) : Except Fault String := do
  match ← ofValueToCents v with
  | .finite r => return String.ofList (shownCents r.negative r.coefficient)
  | _ => throw (.arithmetic .invalidOperation)

end Money
end LoanDesk
