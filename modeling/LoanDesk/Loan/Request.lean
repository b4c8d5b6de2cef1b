import LoanDesk.Money

/-
# Loan requests

A request names an amount, an annual rate in percent and a term in months. It is
checked against limits, one rule after the other, and the first rule that it breaks
refuses it: the amount is positive and not too large, the rate lies between its
bounds, the term is a whole number between its bounds.

Key definitions: `Loan.Limits`, `Loan.Request`, `Loan.Request.of`,
`Loan.Limits.check`.
-/

namespace LoanDesk
namespace Loan

/-- The bounds for requests (`LoanLimits`). Nothing checks them, so each is a value of any kind;
they should be decimals, and whole numbers for the months. -/
structure Limits where
  mostAmount : Value := .decimal (.finite (Decimal.ofNat 100000000))
  leastRate : Value := .decimal (.finite (Decimal.ofNat 0))
  mostRate : Value := .decimal (.finite (Decimal.ofNat 50))
  leastMonths : Value := .int 1
  mostMonths : Value := .int 240
deriving Repr

/-- The bounds that hold unless others are set. -/
def Limits.standard : Limits := {}

/-- What is asked for (`LoanRequest`). -/
structure Request where
  amount : Value
  rate : Value
  term : Value
deriving Repr

/-- The amount that a value stands for, or the refusal that `refuse` gives for its text. -/
def Request.number (v : Value) (refuse : String → Refusal) : Except Fault Value :=
  match Money.ofValue v with
  | .ok d => .ok (.decimal (.finite d))
  | .error f => .error (if f.isAmountFault then .refused (refuse v.shown) else f)

/-- The request for loosely typed values (`LoanRequest.of`). Amount and rate must be numbers; the
term is left to the limits. -/
def Request.of (amount rate term : Value) : Except Fault Request := do
  let amount ← number amount .amountUnreadable
  let rate ← number rate .rateUnreadable
  return ⟨amount, rate, term⟩

/-- How two values compare as numbers. What is no number at all has no order; beside a decimal it
may not even be asked for one. -/
def compareAmounts (a b : Value) : Except Fault (Option Ordering) :=
  match a.amount?, b.amount? with
  | some x, some y =>
    match x.order? y with
    | some o => .ok (some o)
    | none =>
      if a.isDecimal || b.isDecimal then .error (.arithmetic .invalidOperation) else .ok none
  | _, _ => .error .wrongKind

/-- The first value is the smaller number. -/
def isBelow (a b : Value) : Except Fault Bool :=
  (compareAmounts a b).map (· == some .lt)

/-- The first value is the larger number. -/
def isAbove (a b : Value) : Except Fault Bool :=
  isBelow b a

/-- A percentage without needless zeros (`_format_percent`). -/
def percentText : Value → Except Fault String
  | .decimal (.finite d) => (Fault.ofArithmetic (d.reduced Money.precision)).map Decimal.plain
  | .decimal (.nan _ true _) => .error (.arithmetic .invalidOperation)
  | .decimal x => .ok x.plain
  | _ => .error .missingPart

namespace Limits

/-- The amount is positive and not too large. -/
def checkAmount (limits : Limits) (amount : Value) : Except Fault Unit := do
  if (← compareAmounts amount (.decimal (.finite 0))) ≠ some .gt then
    refuse (.amountNotPositive amount.shown)
  if ← isAbove amount limits.mostAmount then
    refuse (.amountTooLarge amount.shown limits.mostAmount.shown)

/-- The rate lies outside its bounds. -/
def rateOutside (limits : Limits) (rate : Value) : Except Fault Bool := do
  if ← isBelow rate limits.leastRate then return true
  isAbove rate limits.mostRate

/-- The rate is refused unless it lies between its bounds. -/
def checkRate (limits : Limits) (rate : Value) : Except Fault Unit := do
  if ← limits.rateOutside rate then
    let least ← percentText limits.leastRate
    let most ← percentText limits.mostRate
    refuse (.rateOutOfRange rate.shown least most)

/-- The term is no whole number or lies outside its bounds. -/
def termOutside (limits : Limits) (term : Value) : Except Fault Bool := do
  if !term.isInt then return true
  if ← isBelow term limits.leastMonths then return true
  isAbove term limits.mostMonths

/-- The term is refused unless it lies between its bounds. -/
def checkTerm (limits : Limits) (term : Value) : Except Fault Unit := do
  if ← limits.termOutside term then
    refuse (.termOutOfRange term limits.leastMonths limits.mostMonths)

/-- The request keeps every rule, or the first that it breaks refuses it
(`LoanRequestValidator.validate`). -/
def check (limits : Limits) (r : Request) : Except Fault Unit := do
  limits.checkAmount r.amount
  limits.checkRate r.rate
  limits.checkTerm r.term

end Limits
end Loan
end LoanDesk
