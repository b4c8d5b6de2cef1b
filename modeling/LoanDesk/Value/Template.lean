import LoanDesk.Decimal.Rounding
import LoanDesk.Value.Number

/-
# Templates

A template is a text with places for values. A place begins with a percent sign; it
may name a field in brackets, then come marks, a width and a precision, and a letter
says in which form the value is written. Two percent signs stand for one. Either every
place takes the next of a row of values, and none may be left over, or places take named
fields of a record.

Key definitions: `Template.Place`, `Template.Piece`, `Template.read?`,
`Template.Written`, `Template.Supply`, `Template.fill?`, `Template.filled?`.
-/

namespace LoanDesk
namespace Template

/-- A width or a precision: left out, written in the template, or taken from the values. -/
inductive Measure where
  | unset
  | given (n : Nat)
  | taken
deriving DecidableEq, Repr

/-- A place for a value. -/
structure Place where
  name : Option String := none
  /-- The value stands at the left of its room. -/
  left : Bool := false
  /-- A number that is not negative has a plus sign. -/
  plus : Bool := false
  /-- A number that is not negative has a blank for its sign. -/
  blank : Bool := false
  /-- The number says its base, or keeps its point. -/
  alternate : Bool := false
  /-- The room of a number is filled with zeros. -/
  zeros : Bool := false
  width : Measure := .unset
  precision : Measure := .unset
  form : Char := 's'
deriving DecidableEq, Repr

/-- A part of a template. -/
inductive Piece where
  | literal (s : Text.Sign)
  | place (p : Place)
deriving DecidableEq, Repr

/-! ### Reading -/

/-- What a template may go on with. -/
inductive Stage where
  | outside
  | opening
  | name (depth : Nat) (soFar : List Char)
  | marks
  | width
  | point
  | opened
  | precision
  | size
  | form
deriving DecidableEq, Repr

/-- What a character does. -/
inductive Turn where
  | literal
  | goesOn (stage : Stage) (p : Place)
  | ends (p : Place)

/-- A measure with one more digit. -/
def Measure.withDigit (m : Measure) (d : Nat) : Measure :=
  match m with
  | .given n => .given (n * 10 + d)
  | _ => .given d

/-- The letter of a form ends a place. -/
def turnForm (p : Place) (c : Char) : Turn :=
  .ends { p with form := c }

/-- A letter for the size of a number has no effect. -/
def turnSize (p : Place) (c : Char) : Turn :=
  if c = 'h' ∨ c = 'l' ∨ c = 'L' then .goesOn .form p else turnForm p c

/-- Digits of a precision. -/
def turnPrecision (p : Place) (c : Char) : Turn :=
  match Text.asciiDigit? c with
  | some d => .goesOn .precision { p with precision := p.precision.withDigit d }
  | none => turnSize p c

/-- The start of a precision behind its point: a star stands for all of it. -/
def turnOpened (p : Place) (c : Char) : Turn :=
  if c = '*' then .goesOn .size { p with precision := .taken } else turnPrecision p c

/-- A point before a precision. -/
def turnPoint (p : Place) (c : Char) : Turn :=
  if c = '.' then .goesOn .opened { p with precision := .given 0 } else turnSize p c

/-- Digits of a width. -/
def turnWidth (p : Place) (c : Char) : Turn :=
  match Text.asciiDigit? c with
  | some d => .goesOn .width { p with width := p.width.withDigit d }
  | none =>
    if c = '*' ∧ p.width = .unset then .goesOn .point { p with width := .taken }
    else turnPoint p c

/-- Marks before a width. -/
def turnMarks (p : Place) (c : Char) : Turn :=
  if c = '-' then .goesOn .marks { p with left := true }
  else if c = '+' then .goesOn .marks { p with plus := true }
  else if c = ' ' then .goesOn .marks { p with blank := true }
  else if c = '#' then .goesOn .marks { p with alternate := true }
  else if c = '0' then .goesOn .marks { p with zeros := true }
  else turnWidth p c

/-- Characters of a name up to the bracket that closes it. -/
def turnName (depth : Nat) (soFar : List Char) (p : Place) (c : Char) : Turn :=
  if c = ')' ∧ depth = 0 then .goesOn .marks { p with name := some (String.ofList soFar.reverse) }
  else if c = ')' then .goesOn (.name (depth - 1) (c :: soFar)) p
  else if c = '(' then .goesOn (.name (depth + 1) (c :: soFar)) p
  else .goesOn (.name depth (c :: soFar)) p

/-- What a character does at a stage. -/
def turn (stage : Stage) (p : Place) (c : Char) : Turn :=
  match stage with
  | .outside => if c = '%' then .goesOn .opening {} else .literal
  | .opening =>
    if c = '%' then .literal
    else if c = '(' then .goesOn (.name 0 []) p
    else turnMarks p c
  | .name depth soFar => turnName depth soFar p c
  | .marks => turnMarks p c
  | .width => turnWidth p c
  | .point => turnPoint p c
  | .opened => turnOpened p c
  | .precision => turnPrecision p c
  | .size => turnSize p c
  | .form => turnForm p c

/-- The pieces of the rest of a template. No place has half a character in it. -/
def readFrom (stage : Stage) (p : Place) : Text.Torn → Option (List Piece)
  | [] => if stage = .outside then some [] else none
  | .char c :: rest =>
    match turn stage p c with
    | .literal => (readFrom .outside {} rest).map (.literal (.char c) :: ·)
    | .goesOn stage p => readFrom stage p rest
    | .ends p => (readFrom .outside {} rest).map (.place p :: ·)
  | s :: rest =>
    if stage = .outside then (readFrom .outside {} rest).map (.literal s :: ·) else none

/-- The pieces of a template. -/
def read? (t : Text.Torn) : Option (List Piece) :=
  readFrom .outside {} t

/-! ### Forms -/

/-- A value as it is written, before it gets its room: sign, mark of the base, and the rest. -/
structure Written where
  sign : List Char := []
  base : List Char := []
  body : Text.Torn
  isNumber : Bool := true
deriving DecidableEq, Repr

/-- A text as it is written, cut at the precision. -/
def textForm (t : Text.Torn) (precision : Option Nat) : Written :=
  { body := match precision with
      | some n => t.take n
      | none => t
    isNumber := false }

/-- The characters spelled out where they are not plain. -/
def plain (cs : List Char) : List Char :=
  cs.flatMap fun c =>
    if c.toNat < 128 then [c]
    else if c.toNat < 256 then '\\' :: 'x' :: Text.hexDigits 2 c.toNat
    else if c.toNat < 65536 then '\\' :: 'u' :: Text.hexDigits 4 c.toNat
    else '\\' :: 'U' :: Text.hexDigits 8 c.toNat

/-- The sign of a number at a place. -/
def signFor (p : Place) (negative : Bool) : List Char :=
  if negative then ['-'] else if p.plus then ['+'] else if p.blank then [' '] else []

/-- Digits filled with zeros to a precision. -/
def filledDigits (ds : List Char) (precision : Option Nat) : List Char :=
  List.replicate (precision.getD 0 - ds.length) '0' ++ ds

/-- An integer as it is written. -/
def wholeForm (p : Place) (i : Int) (base : List Char) (ds : List Char) (precision : Option Nat) :
    Written :=
  { sign := signFor p (decide (i < 0)), base := if p.alternate then base else []
    body := .ofChars (filledDigits ds precision) }

/-- The integer that a value is counted as; measured numbers lose their fraction. -/
def whole? : Value → Option Int
  | .bool b => some (if b then 1 else 0)
  | .int i => some i
  | .float x => x.truncated?
  | .decimal (.finite d) => some d.truncated
  | _ => none

/-- The integer that a value is. -/
def exactWhole? : Value → Option Int
  | .bool b => some (if b then 1 else 0)
  | .int i => some i
  | _ => none

/-- The value as a measured number. -/
def measure? (v : Value) : Option Binary64 :=
  match v with
  | .int i =>
    match Binary64.ofInt i with
    | .infinity _ => none
    | x => some x
  | .decimal (.nan _ true _) => none
  | v => v.amount?.map Binary64.ofExtended

/-- The capital of a small letter from `a` to `z`. -/
def capital (c : Char) : Char :=
  c.toUpper

/-- The coefficient at `places` places after the point, a half to the even neighbour. -/
def coefficientAt (d : Decimal) (places : Nat) : Nat :=
  let k := -d.exponent - (places : Int)
  if k ≤ 0 then d.coefficient * Nat.pow 10 (-k).toNat else dropHalfEven d.coefficient k.toNat

/-- A row of digits with a point before the last `places` of them. -/
def pointed (ds : List Char) (places : Nat) (keepPoint : Bool) : List Char :=
  let ds := List.replicate (places + 1 - ds.length) '0' ++ ds
  let (whole, fraction) := ds.splitAt (ds.length - places)
  whole ++ (if places = 0 && !keepPoint then [] else '.' :: fraction)

/-- The digits of a number rounded to `n` significant ones, and the power of ten of the first. -/
def leading (d : Decimal) (n : Nat) : List Char × Int :=
  if d.isZero then (List.replicate n '0', 0)
  else
    let k := (d.digits : Int) - n
    let c :=
      if k ≤ 0 then d.coefficient * Nat.pow 10 (-k).toNat
      else dropHalfEven d.coefficient k.toNat
    if n < digitCount c then (Text.natDigits (c / 10), d.adjusted + 1)
    else (Text.natDigits c, d.adjusted)

/-- The exponent of a number, of at least two digits. -/
def exponentChars (e : Int) : List Char :=
  'e' :: (if e < 0 then '-' else '+') :: Text.padded 2 e.natAbs

/-- Digits without the zeros at their end. -/
def withoutZeros (ds : List Char) : List Char :=
  (ds.reverse.dropWhile (· == '0')).reverse

/-- The first digit, a point and the others. -/
def mantissa (ds : List Char) (keepPoint : Bool) : List Char :=
  match ds with
  | [] => []
  | [d] => if keepPoint then [d, '.'] else [d]
  | d :: rest => d :: '.' :: rest

/-- A number with as many digits as the precision, by position or by exponent, whichever is
natural. -/
def generalChars (d : Decimal) (precision : Nat) (keepPoint : Bool) : List Char :=
  let n := max precision 1
  let (ds, e) := leading d n
  if -4 ≤ e ∧ e < (n : Int) then
    let whole := if 0 ≤ e then ds.take (e.toNat + 1) else ['0']
    let fraction :=
      if 0 ≤ e then ds.drop (e.toNat + 1) else List.replicate (-e - 1).toNat '0' ++ ds
    let fraction := if keepPoint then fraction else withoutZeros fraction
    whole ++ (if fraction.isEmpty && !keepPoint then [] else '.' :: fraction)
  else
    let kept := if keepPoint then ds else ds.take 1 ++ withoutZeros (ds.drop 1)
    mantissa kept keepPoint ++ exponentChars e

/-- The characters of a finite number without its sign, in the form of a small letter. -/
def finiteChars (form : Char) (d : Decimal) (precision : Nat) (keepPoint : Bool) : List Char :=
  if form = 'f' then pointed (Text.natDigits (coefficientAt d precision)) precision keepPoint
  else if form = 'e' then
    let (ds, e) := leading d (precision + 1)
    mantissa ds keepPoint ++ exponentChars e
  else generalChars d precision keepPoint

/-- A measured number as it is written. -/
def measureForm (p : Place) (x : Binary64) (precision : Option Nat) : Written :=
  let small := p.form.toLower
  let (negative, cs) :=
    match x.exact with
    | .finite d => (d.negative, finiteChars small d (precision.getD 6) p.alternate)
    | .infinity n => (n, "inf".toList)
    | .nan .. => (false, "nan".toList)
  { sign := signFor p negative, body := .ofChars (if small = p.form then cs else cs.map capital) }

/-- The sign that a value stands for: a text of one, or its code point. -/
def sign? (v : Value) : Option Text.Sign :=
  match exactWhole? v, v with
  | some (.ofNat n), _ => if n ≤ 0x10FFFF then some (.ofPoint n) else none
  | none, .text s =>
    match s.toList with
    | [c] => some (.char c)
    | _ => none
  | none, .torn [s] => some s
  | _, _ => none

/-- The most digits that an integer is written with in tens. -/
def tensRoom : Nat := 4300

/-- The value is too large for an integer that is written in tens. -/
def isBeyondTens : Value → Bool
  | .decimal (.finite d) => !d.isZero && (tensRoom : Int) ≤ d.adjusted
  | v => Nat.pow 10 tensRoom ≤ ((whole? v).getD 0).natAbs

/-- The integer that a value is counted as, if it can be written in tens. -/
def writableWhole? (v : Value) : Option Int :=
  if isBeyondTens v then none else whole? v

/-- A value as a place wants it. -/
def formOf? (p : Place) (precision : Option Nat) (v : Value) : Option Written :=
  match p.form with
  | 's' => some (textForm v.signs precision)
  | 'r' => some (textForm (.ofChars v.quoted.toList) precision)
  | 'a' => some (textForm (.ofChars (plain v.quoted.toList)) precision)
  | 'c' => (sign? v).map fun s => textForm [s] none
  | 'd' | 'i' | 'u' =>
    (writableWhole? v).map fun i => wholeForm p i [] (Text.natDigits i.natAbs) precision
  | 'o' => (exactWhole? v).map fun i =>
      wholeForm p i ['0', 'o'] (Nat.toDigits 8 i.natAbs) precision
  | 'x' => (exactWhole? v).map fun i =>
      wholeForm p i ['0', 'x'] (Nat.toDigits 16 i.natAbs) precision
  | 'X' => (exactWhole? v).map fun i =>
      wholeForm p i ['0', 'X'] ((Nat.toDigits 16 i.natAbs).map capital) precision
  | 'e' | 'E' | 'f' | 'F' | 'g' | 'G' => (measure? v).map fun x => measureForm p x precision
  | _ => none

/-- A form in its room. -/
def Written.placed (f : Written) (p : Place) (width : Nat) : Text.Torn :=
  let front := Text.Torn.ofChars (f.sign ++ f.base)
  let missing := width - (front ++ f.body).length
  let fill (c : Char) : Text.Torn := List.replicate missing (.char c)
  if p.left then front ++ f.body ++ fill ' '
  else if f.isNumber && p.zeros then front ++ fill '0' ++ f.body
  else fill ' ' ++ front ++ f.body

/-! ### Filling -/

/-- The values that places take. -/
structure Supply where
  /-- The record that named places look into. -/
  record : Option Fields := none
  /-- The values that are still to be taken. -/
  waiting : List Value
deriving Repr

namespace Supply

/-- A row of values; one record by itself, unless it is empty, is there for named places. -/
def of : List Value → Supply
  | [.record (f :: fs)] => ⟨some (f :: fs), [.record (f :: fs)]⟩
  | vs => ⟨none, vs⟩

/-- The next value. -/
def take? (s : Supply) : Option (Value × Supply) :=
  match s.waiting with
  | v :: rest => some (v, { s with waiting := rest })
  | [] => none

/-- The supply once a place has named a field. -/
def named? (s : Supply) (name : Option String) : Option Supply :=
  match name with
  | none => some s
  | some n => do
    let v ← Fields.get? (← s.record) n
    return { s with waiting := [v] }

/-- A measure that is not out of all bounds. -/
def bounded? (i : Int) : Option Int :=
  if i.natAbs < 0x80000000 then some i else none

/-- A measure, and what is left; one that is taken must be an integer of a row. -/
def measure? (s : Supply) (m : Measure) : Option (Option Int × Supply) :=
  match m with
  | .unset => some (none, s)
  | .given n => (bounded? n).map fun i => (some i, s)
  | .taken =>
    match s.record, s.take? with
    | none, some (v, s) => ((exactWhole? v).bind bounded?).map fun i => (some i, s)
    | _, _ => none

/-- Nothing is left over. -/
def isSpent (s : Supply) : Bool :=
  s.record.isSome || s.waiting.isEmpty

end Supply

/-- The signs of a place, and what is left. A negative width stands for a place at the left;
a negative precision counts as zero. -/
def fillPlace? (p : Place) (s : Supply) : Option (Text.Torn × Supply) := do
  let s ← s.named? p.name
  let (width, s) ← s.measure? p.width
  let (precision, s) ← s.measure? p.precision
  let (v, s) ← s.take?
  let width := width.getD 0
  let p := { p with left := p.left || decide (width < 0) }
  let f ← formOf? p (precision.map Int.toNat) v
  return (f.placed p width.natAbs, s)

/-- The signs of the pieces, if the values fit. -/
def fill? : List Piece → Supply → Option Text.Torn
  | [], s => if s.isSpent then some [] else none
  | .literal sign :: rest, s => (fill? rest s).map (sign :: ·)
  | .place p :: rest, s => do
    let (t, s) ← fillPlace? p s
    return t ++ (← fill? rest s)

/-- The text of a template with its places filled; without values it stands as it is. -/
def filled? (template : Text.Torn) (values : List Value) : Option Value :=
  if values.isEmpty then some (.ofSigns template)
  else do
    let pieces ← read? template
    return .ofSigns (← fill? pieces (.of values))

end Template
end LoanDesk
