import LoanDesk.Refusal

/-
# Numbers in records

A record may hold a number in any form: as a number, as a text, or in parts. Decimals
are taken exactly, binary numbers included; whole numbers lose their fraction. Here is
also what else records are read for: stamps, statuses and ids.

Key definitions: `Value.toDecimal`, `Value.toInteger`, `integerOfText?`, `Value.asKey`.
-/

namespace LoanDesk

open LoanDesk.Text

/-- The digits of a whole number in which single underscores may stand between digits; `after`
says that a digit stands before. -/
def groupedDigits (after : Bool) : List Char → Option (List Nat)
  | [] => if after then some [] else none
  | c :: rest =>
    match digitValue? c with
    | some d => (groupedDigits true rest).map (d :: ·)
    | none => if after && c == '_' then groupedDigits false rest else none

/-- The most digits that a whole number may be read from. -/
def integerDigitRoom : Nat := 4300

/-- The blanks around whole numbers; the separators of files, groups, records and units are none. -/
def isNumberBlank (c : Char) : Bool :=
  isBlank c && !(28 ≤ c.toNat && c.toNat ≤ 31)

/-- The whole number that a text stands for: a sign, digits of any script and underscores between
them, blanks around it all. -/
def integerOfText? (s : String) : Option Int := do
  let (negative, rest) := Decimal.Extended.splitSign (trimBy isNumberBlank s.toList)
  let ds ← groupedDigits false rest
  if integerDigitRoom < ds.length then none
  let n : Int := ofDigits ds
  return if negative then -n else n

namespace Value

/-- The integer that a value holds as such, if a machine word has room for it. -/
def asWord : Value → Except Fault Int
  | int i => if fitsWord i then .ok i else .error .outOfRange
  | bool b => .ok (if b then 1 else 0)
  | _ => .error .noMeaning

/-- A digit of a number in parts. -/
def toDigit (v : Value) : Except Fault Nat := do
  let i ← v.asWord
  if 0 ≤ i ∧ i ≤ 9 then return i.toNat else throw .noMeaning

/-- The digits of a number in parts. -/
def toDigits : List Value → Except Fault (List Nat)
  | [] => .ok []
  | v :: rest => do return (← v.toDigit) :: (← toDigits rest)

/-- The sign of a number in parts: zero, or one for a minus. -/
def toSign (v : Value) : Except Fault Bool := do
  match ← v.asWord with
  | 0 => return false
  | 1 => return true
  | _ => throw .noMeaning

/-- A decimal within the exponents that can be written. -/
def withinReach (d : Decimal) : Except Fault Decimal.Extended :=
  if d.withinReach then .ok (.finite d) else .error (.arithmetic .invalidOperation)

/-- The decimal of a sign, digits and an exponent; in place of the exponent may stand `F` for
infinity, and `n` or `N` for what is not a number. -/
def ofParts (sign digits exponent : Value) : Except Fault Decimal.Extended := do
  let negative ← sign.toSign
  match exponent with
  | text s =>
    if s = "F" ∨ s = "n" ∨ s = "N" then
      let ds ← digitsOf digits
      if s = "F" then return .infinity negative
      else return .nan negative (s = "N") (ofDigits ds)
    else throw .noMeaning
  | e =>
    let e ← e.asWord
    let ds ← digitsOf digits
    withinReach ⟨negative, ofDigits ds, e⟩
where
  digitsOf : Value → Except Fault (List Nat)
    | list items => toDigits items
    | _ => .error .noMeaning

/-- The decimal value of anything that a record may hold for one. -/
def toDecimal : Value → Except Fault Decimal.Extended
  | bool b => .ok (.finite (if b then 1 else 0))
  | int i => .ok (.finite (Decimal.ofInt i))
  | float x => .ok x.exact
  | decimal x => .ok x
  | text s =>
    match Decimal.Extended.ofText? s with
    | some x => .ok x
    | none => .error (.arithmetic .invalidOperation)
  | torn _ => .error (.arithmetic .invalidOperation)
  | list [sign, digits, exponent] => ofParts sign digits exponent
  | list _ => .error .noMeaning
  | _ => .error .wrongKind

/-- The whole part of a decimal value. -/
def truncated : Decimal.Extended → Except Fault Int
  | .finite d => .ok d.truncated
  | .infinity _ => .error .outOfRange
  | .nan .. => .error .noMeaning

/-- The whole number of anything that a record may hold for one. -/
def toInteger : Value → Except Fault Int
  | bool b => .ok (if b then 1 else 0)
  | int i => .ok i
  | float x => truncated x.exact
  | decimal x => truncated x
  | text s =>
    match integerOfText? s with
    | some i => .ok i
    | none => .error .noMeaning
  | torn _ => .error .noMeaning
  | _ => .error .wrongKind

/-- The stamp that a text in a record stands for. -/
def toStamp : Value → Except Fault Stamp
  | text s =>
    match Stamp.ofIso? s with
    | some t => .ok t
    | none => .error .noMeaning
  | torn _ => .error .noMeaning
  | _ => .error .wrongKind

/-- The status that a value in a record stands for: its word, spelled exactly. -/
def toStatus : Value → Except Fault Loan.Status
  | status s => .ok s
  | text s =>
    match Loan.Status.ofWord? s with
    | some st => .ok st
    | none => .error .noMeaning
  | _ => .error .noMeaning

/-- A value that can tell things apart, as ids and names do: neither a list nor a record, nor a
number that no operation accepts. -/
def asKey : Value → Except Fault Value
  | list _ | record _ | decimal (.nan _ true _) => .error .wrongKind
  | v => .ok v

/-- The value of a field that a record must have. -/
def field (fs : Fields) (name : String) : Except Fault Value :=
  match Fields.get? fs name with
  | some v => .ok v
  | none => .error .missingField

end Value
end LoanDesk
