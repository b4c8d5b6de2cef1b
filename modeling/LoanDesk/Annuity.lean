import LoanDesk.Money

/-
# Annuities

A loan is paid back in equal monthly payments: with the monthly rate `r` and `n`
months, `P * r * (1 + r) ^ n / ((1 + r) ^ n - 1)` of the principal `P`, and `P / n`
without interest. The sum `1 + r` must hold every digit of `r`, so small rates are
computed with more digits: as many as `r` has zeros behind the point, and some more.
Rates too small to earn a cent count as none.

A schedule charges each month's interest on what is left of the principal. The last
payment takes up what rounding has left over, so the balance ends at zero.

Key definitions: `Annuity.monthlyRate`, `Annuity.payment`, `Annuity.paymentFor`,
`Annuity.Quote`, `Annuity.quoteFor`, `Annuity.Entry`, `Annuity.entries`,
`Annuity.scheduleFor`.
-/

namespace LoanDesk
namespace Annuity

open Money

/-- The months of a year. -/
def monthsPerYear : Decimal := 12

/-- The parts of a whole that a percentage counts. -/
def percent : Decimal := 100

/-- The digits kept beyond the leading zeros of a small rate. -/
def guardDigits : Nat := 28

/-- Rates with more leading zeros than this earn less than a cent. -/
def mostLeadingZeros : Int := 1000

/-- The monthly rate of an annual rate in percent: 12 gives one hundredth (`monthly_rate_for`). -/
def monthlyRate (annual : Decimal) : Except Decimal.Signal Decimal := do
  let perYear ← annual.div precision monthsPerYear
  perYear.div precision percent

/-- The places from the point to the leading digit of a rate; none for zero. -/
def leadingZeros (rate : Decimal) : Int :=
  if rate.isZero then 0 else -rate.adjusted

/-- The digits that a payment at a monthly rate is computed with: `guardDigits` beyond its
`leadingZeros`. -/
def workingPrecision (rate : Decimal) : Nat :=
  precision + (max 0 (leadingZeros rate)).toNat + guardDigits

/-- The payment of a loan without interest. -/
def plainPayment (principal : Decimal) (months : Nat) : Except Decimal.Signal Decimal := do
  cents (← principal.div precision (Decimal.ofNat months))

/-- The payment of a loan with interest at a monthly rate. -/
def interestPayment (principal rate : Decimal) (months : Nat) :
    Except Decimal.Signal Decimal := do
  let p := workingPrecision rate
  let growth ← (← Decimal.add p 1 rate).pow p months
  let charged ← Decimal.mul p rate growth
  let weighted ← Decimal.mul p principal charged
  let earned ← Decimal.sub p growth 1
  centsAt p (← weighted.div p earned)

/-- The monthly payment that pays back the principal in so many months
(`compute_monthly_payment`). -/
def payment (principal annual : Decimal) (months : Nat) : Except Decimal.Signal Decimal := do
  let rate ← monthlyRate annual
  if rate.isZero || mostLeadingZeros < leadingZeros rate then plainPayment principal months
  else interestPayment principal rate months

/-- The number of months that a value stands for: an integer of at least one. -/
def months? : Value → Option Nat
  | .int i => if 1 ≤ i then some i.toNat else none
  | _ => none

/-- The number of months that a value stands for, or the refusal of a term too short. -/
def months (v : Value) : Except Fault Nat :=
  match months? v with
  | some n => .ok n
  | none => refuse .termTooShort

/-- The monthly rate of the annual rate that a value stands for: `monthlyRate` behind
`Money.ofValue`. -/
def rateFor (annual : Value) : Except Fault Decimal := do
  Fault.ofArithmetic (monthlyRate (← ofValue annual))

/-- The monthly payment for values, by `payment`; the term is looked at first. -/
def paymentFor (principal annual term : Value) : Except Fault Decimal := do
  let n ← months term
  let principal ← ofValue principal
  let annual ← ofValue annual
  Fault.ofArithmetic (payment principal annual n)

/-- A payment and what it comes to over the whole term (`PaymentQuote`). -/
structure Quote where
  amount : Decimal
  rate : Decimal
  months : Nat
  payment : Decimal
  total : Decimal
  interest : Decimal
deriving DecidableEq, Repr

/-- The quote of a loan, whose payment is that of `payment`. -/
def quote (principal annual : Decimal) (months : Nat) : Except Decimal.Signal Quote := do
  let payment ← payment principal annual months
  let total ← cents (← payment.mul precision (Decimal.ofNat months))
  let interest ← cents (← total.sub precision principal)
  return ⟨principal, annual, months, payment, total, interest⟩

/-- The quote for values; the numbers are read before the term is looked at (`quote_payment`). -/
def quoteFor (principal annual term : Value) : Except Fault Quote := do
  let principal ← ofValue principal
  let annual ← ofValue annual
  let n ← months term
  Fault.ofArithmetic (quote principal annual n)

/-- One month of a schedule (`AmortizationEntry`). -/
structure Entry where
  number : Nat
  payment : Decimal
  principal : Decimal
  interest : Decimal
  balance : Decimal
deriving DecidableEq, Repr

/-- The entry of month `number`, of which `left` follow: it pays the interest on the balance and
as much of the balance as the payment allows, all of it in the last month. -/
def entry (payment rate balance : Decimal) (number left : Nat) :
    Except Decimal.Signal Entry := do
  let interest ← cents (← balance.mul precision rate)
  let reduction ← payment.sub precision interest
  if left = 0 ∨ Decimal.order reduction balance = .gt then
    let paid ← balance.add precision interest
    let rest ← balance.sub precision balance
    return ⟨number, paid, balance, interest, rest⟩
  else
    let rest ← balance.sub precision reduction
    return ⟨number, payment, reduction, interest, rest⟩

/-- The entries from month `number` on, at most `count` of them, until nothing is left. -/
def entries (payment rate : Decimal) : Nat → Decimal → Nat → Except Decimal.Signal (List Entry)
  | 0, _, _ => .ok []
  | left + 1, balance, number => do
    let e ← entry payment rate balance number left
    if e.balance.isZero then return [e]
    else return e :: (← entries payment rate left e.balance (number + 1))

/-- The schedule of a loan: the `entries` from the first month on. -/
def schedule (principal annual : Decimal) (months : Nat) :
    Except Decimal.Signal (List Entry) := do
  let payment ← payment principal annual months
  let balance ← cents principal
  let rate ← monthlyRate annual
  entries payment rate months balance 1

/-- The schedule for values; the term is looked at first (`build_schedule`). -/
def scheduleFor (principal annual term : Value) : Except Fault (List Entry) := do
  let n ← months term
  let principal ← ofValue principal
  let annual ← ofValue annual
  Fault.ofArithmetic (schedule principal annual n)

end Annuity
end LoanDesk
