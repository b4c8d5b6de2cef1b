import LoanDesk.Value.Number

/-
# Forms

Settings and requests from the web are checked against forms. A field takes a value
that can be read as what it wants, within reason: whole numbers from texts, truth
from a few words, amounts from texts and measured numbers. What cannot be read is a
problem of a certain sort at a certain place, with what was found there, and all
problems are reported together, in the order of the fields.

A whole number in a text is a minus or none and plain digits that do not start with a
zero. Only a text that is none as it stands is tidied, once: the blanks around it, a
plus, the zeros in front and what stands between them, a fraction of zeros and single
underscores are taken away, and what is left must be a whole number as it stands.

Key definitions: `Form.text`, `Form.anyText`, `Form.whole`, `Form.wholeOrWord`,
`Form.truth`, `Form.amount`, `Form.texts`, `Form.Checked`, `Form.optional`,
`Form.required`.
-/

namespace LoanDesk
namespace Form

/-- A value read for a field, or the problems that stand against it. -/
abbrev Checked (α : Type) := Except (List Problem) α

/-- One problem, at the place itself. -/
def problem {α : Type} (sort : String) (found : Value) : Checked α :=
  .error [⟨sort, [], found⟩]

/-- The problems of a part, seen from the whole. -/
def within {α : Type} (place : Value) : Checked α → Checked α
  | .ok a => .ok a
  | .error ps => .error (ps.map fun p => { p with place := place :: p.place })

/-- Two readings, or the problems of both. -/
def both {α β : Type} : Checked α → Checked β → Checked (α × β)
  | .ok a, .ok b => .ok (a, b)
  | .ok _, .error q => .error q
  | .error p, .ok _ => .error p
  | .error p, .error q => .error (p ++ q)

/-- A reading and a condition, or the problems of both. -/
def also {α : Type} (a : Checked α) (b : Checked Unit) : Checked α :=
  (both a b).map (·.1)

/-- A text; a status counts as its word. -/
def text : Value → Checked String
  | .text s => .ok s
  | .torn t => .ok (String.ofList t.replaced)
  | .status s => .ok s.word
  | v => problem "string_type" v

/-- A text as it is, whole or torn. -/
def anyText : Value → Checked Value
  | .torn t => .ok (.torn t)
  | v => (text v).map .text

/-- Blanks that a form passes over at the ends of a number. -/
def isFormBlank (c : Char) : Bool :=
  Text.isBlank c && !(28 ≤ c.toNat && c.toNat ≤ 31)

/-- Why a text is no whole number. -/
inductive WholeFlaw where
  | noNumber
  | tooLong
deriving DecidableEq, Repr

/-- The sort of problem behind a flaw. -/
def WholeFlaw.sort : WholeFlaw → String
  | noNumber => "int_parsing"
  | tooLong => "int_parsing_size"

/-- The most digits of a whole number. -/
def wholeRoom : Nat := 4300

/-- The whole number that digits stand for, which must be all there is. -/
def plainWhole (negative : Bool) (cs : List Char) : Except WholeFlaw Int :=
  let digits := cs.takeWhile fun c => (Text.asciiDigit? c).isSome
  if digits.isEmpty || (digits.head? == some '0' && digits.length ≠ 1) then .error .noNumber
  else if wholeRoom < digits.length then .error .tooLong
  else if digits.length ≠ cs.length then .error .noNumber
  else
    let n : Int := Text.ofDigits (digits.filterMap Text.asciiDigit?)
    .ok (if negative then -n else n)

/-- The whole number that a text is as it stands. -/
def strictWhole : List Char → Except WholeFlaw Int
  | '-' :: rest => plainWhole true rest
  | cs => plainWhole false cs

/-- The characters from the first digit on that is not zero, or from a minus or a point; of zeros
alone the last character. Only zeros and underscores may stand before. -/
def afterZeros (last : Char) : List Char → Option (List Char)
  | [] => some [last]
  | c :: rest =>
    if c == '0' || c == '_' then afterZeros c rest
    else if (Text.asciiDigit? c).isSome || c == '-' || c == '.' then some (c :: rest)
    else none

/-- The characters without the zeros that they start with. -/
def withoutLeadingZeros : List Char → Option (List Char)
  | [] => none
  | c :: rest =>
    if c == '0' then afterZeros c rest
    else if (Text.asciiDigit? c).isSome || c == '-' then some (c :: rest)
    else none

/-- The characters before a point that only zeros follow, one at least. -/
def withoutZeroFraction (cs : List Char) : List Char :=
  match cs.dropWhile (· != '.') with
  | '.' :: '0' :: zeros => if zeros.all (· == '0') then cs.takeWhile (· != '.') else cs
  | _ => cs

/-- No underscore stands beside another or at the end; `after` says that one stands before. -/
def underscoresApart (after : Bool) : List Char → Bool
  | [] => !after
  | c :: rest => !(after && c == '_') && underscoresApart (c == '_') rest

/-- The characters without underscores, if each stands between two others. -/
def withoutUnderscores (cs : List Char) : List Char :=
  if underscoresApart true cs then cs.filter (· != '_') else cs

/-- The text without a plus. -/
def withoutPlus : List Char → List Char
  | '+' :: rest => rest
  | cs => cs

/-- A text tidied for reading it as a whole number. -/
def tidied (cs : List Char) : Option (List Char) :=
  (withoutLeadingZeros (withoutPlus (Text.trimBy isFormBlank cs))).map fun rest =>
    withoutUnderscores (withoutZeroFraction rest)

/-- The whole number that a text stands for. -/
def wholeOfText (s : String) : Except WholeFlaw Int :=
  match strictWhole s.toList with
  | .ok i => .ok i
  | .error .tooLong => .error .tooLong
  | .error .noNumber =>
    match tidied s.toList with
    | some rest => strictWhole rest
    | none => .error .noNumber

/-- The integer that a decimal number is equal to. -/
def integerOf? (d : Decimal) : Option Int :=
  if Decimal.order (Decimal.ofInt d.truncated) d = .eq then some d.truncated else none

/-- The whole number that an amount is equal to, or the sort of problem with it. -/
def wholeOfAmount : Decimal.Extended → Except String Int
  | .finite d =>
    match integerOf? d with
    | some i => .ok i
    | none => .error "int_from_float"
  | _ => .error "finite_number"

/-- The whole number of at most 63 bits that a measured number is equal to. -/
def wholeOfMeasure (x : Binary64) : Except String Int := do
  let i ← wholeOfAmount x.exact
  if fitsWord i ∧ fitsWord (-i) then return i else throw "int_parsing_size"

/-- What was read of a value, or a problem of the sort that was found with it. -/
def orProblem {α : Type} (v : Value) : Except String α → Checked α
  | .ok a => .ok a
  | .error sort => problem sort v

/-- A whole number. -/
def whole (v : Value) : Checked Int :=
  orProblem v <|
    match v with
    | .bool b => .ok (if b then 1 else 0)
    | .int i => .ok i
    | .text s => (wholeOfText s).mapError WholeFlaw.sort
    | .torn _ => .error "string_unicode"
    | .float x => wholeOfMeasure x
    | .decimal x => wholeOfAmount x
    | _ => .error "int_type"

/-- A whole number, or a status, which is left as its word. -/
def wholeOrWord : Value → Checked Value
  | .status s => .ok (.text s.word)
  | v => (whole v).map .int

/-- The words for yes. -/
def yesWords : List String := ["1", "on", "t", "true", "y", "yes"]

/-- The words for no. -/
def noWords : List String := ["0", "off", "f", "false", "n", "no"]

/-- The truth value that a word stands for. -/
def truthOfText (s : String) : Except String Bool :=
  if yesWords.contains s.toLower then .ok true
  else if noWords.contains s.toLower then .ok false
  else .error "bool_parsing"

/-- One is yes and zero is no. -/
def truthOfWhole (i : Int) : Except String Bool :=
  if i = 1 then .ok true
  else if i = 0 then .ok false
  else .error "bool_parsing"

/-- The truth value of a measured number: one that is no whole number has none. -/
def truthOfMeasure (x : Binary64) : Except String Bool :=
  match wholeOfMeasure x with
  | .ok i => truthOfWhole i
  | .error _ => .error "bool_type"

/-- A truth value. -/
def truth (v : Value) : Checked Bool :=
  orProblem v <|
    match v with
    | .bool b => .ok b
    | .text s => truthOfText s
    | .torn _ => .error "string_unicode"
    | .int i => if fitsWord i then truthOfWhole i else .error "bool_type"
    | .float x => truthOfMeasure x
    | .decimal (.finite d) => truthOfMeasure (Binary64.ofDecimal d)
    | _ => .error "bool_type"

/-- The number, if it has an end. -/
def finite : Decimal.Extended → Except String Decimal
  | .finite d => .ok d
  | _ => .error "finite_number"

/-- The number that a text stands for, if it has an end. -/
def finiteOfText (s : String) : Except String Decimal :=
  match Decimal.Extended.ofText? s with
  | some x => finite x
  | none => .error "decimal_parsing"

/-- An amount. A measured number counts as the shortest decimal that reads back as it. -/
def amount (v : Value) : Checked Decimal :=
  orProblem v <|
    match v with
    | .decimal x => finite x
    | .int i => .ok (Decimal.ofInt i)
    | .float x => finiteOfText x.text
    | .text s => finiteOfText s
    | .torn _ => .error "decimal_parsing"
    | _ => .error "decimal_type"

/-- The texts of a list, from place `i` on. -/
def textsFrom (i : Int) : List Value → Checked (List String)
  | [] => .ok []
  | v :: rest =>
    (both (within (.int i) (text v)) (textsFrom (i + 1) rest)).map fun p => p.1 :: p.2

/-- A list of texts. -/
def texts : Value → Checked (List String)
  | .list items => textsFrom 0 items
  | v => problem "list_type" v

/-- A field that may be left out. -/
def optional {α : Type} (name : String) (v : Option Value) (read : Value → Checked α)
    (otherwise : α) : Checked α :=
  match v with
  | none => .ok otherwise
  | some v => within (.text name) (read v)

/-- A field of a record that must be there. -/
def required {α : Type} (fs : Fields) (name : String) (read : Value → Checked α) : Checked α :=
  within (.text name) <|
    match Fields.get? fs name with
    | none => problem "missing" (.record fs)
    | some v => read v

end Form
end LoanDesk
