import LoanDesk.Text.Encoding
import LoanDesk.Value

/-
# Reading JSON

A reader takes characters from the front of a text and gives back the rest. Blanks
may stand around every token; of fields with one name the last counts, in the place
of the first. Besides the numbers of the standard it knows the words for the
infinities and not-a-number. A text in which a surrogate pair is torn apart is read as
such, and so is the value of a field with such a name. Only halves that the text spells
out are joined, not those that stand in its bytes (`Encoding.charsOf`). A reader has
room for integers of so many digits and for lists and records so deep within each
other; what is larger is told apart from what is no JSON at all.

Key definitions: `Json.Flaw`, `Json.readString`, `Json.readNumber`, `Json.readValue`,
`Json.read`, `Json.readBytes`, `Json.parse?`.
-/

namespace LoanDesk
namespace Json

open LoanDesk.Text

/-- What is wrong with a text that should hold a value. -/
inductive Flaw where
  /-- The text is no JSON. -/
  | malformed
  /-- An integer has too many digits. -/
  | tooLong
  /-- Lists and records lie too deep within each other. -/
  | tooDeep
  /-- The bytes are no text. -/
  | noText
deriving DecidableEq, Repr

/-- The character may stand around tokens. -/
def isSpace (c : Char) : Bool :=
  c == ' ' || c == '\t' || c == '\n' || c == '\r'

/-- The characters without the blanks in front. -/
def skip (cs : List Char) : List Char :=
  cs.dropWhile isSpace

/-- The value of a digit in base sixteen. -/
def hexValue? (c : Char) : Option Nat :=
  if '0' ≤ c ∧ c ≤ '9' then some (c.toNat - 48)
  else if 'a' ≤ c ∧ c ≤ 'f' then some (c.toNat - 87)
  else if 'A' ≤ c ∧ c ≤ 'F' then some (c.toNat - 55)
  else none

/-- The unit that four digits in base sixteen spell. -/
def unit? (a b c d : Char) : Option Nat := do
  return (((← hexValue? a) * 16 + (← hexValue? b)) * 16 + (← hexValue? c)) * 16 + (← hexValue? d)

/-- The character that a letter after a backslash stands for. -/
def ofEscape? (c : Char) : Option Char :=
  if c = '"' ∨ c = '\\' ∨ c = '/' then some c
  else if c = 'b' then some '\x08'
  else if c = 'f' then some '\x0c'
  else if c = 'n' then some '\n'
  else if c = 'r' then some '\r'
  else if c = 't' then some '\t'
  else none

/-- What a string is spelled with: characters, units, and halves that stand for themselves. -/
inductive Piece where
  | plain (c : Char)
  | unit (n : Nat)
  | lone (n : Nat)
deriving DecidableEq, Repr

/-- The pieces of a string up to its closing quote, and the rest. -/
def readPieces : List Char → Option (List Piece × List Char)
  | [] => none
  | c :: rest =>
    if c = '"' then some ([], rest)
    else if c = '\\' then
      match rest with
      | [] => none
      | 'u' :: p :: q :: r :: s :: rest =>
        match unit? p q r s with
        | some n => (readPieces rest).map fun t => (.unit n :: t.1, t.2)
        | none => none
      | e :: rest =>
        match ofEscape? e with
        | some x => (readPieces rest).map fun t => (.plain x :: t.1, t.2)
        | none => none
    else if c = Encoding.halfMark then
      match rest with
      | p :: q :: r :: s :: rest =>
        match unit? p q r s with
        | some n => (readPieces rest).map fun t => (.lone n :: t.1, t.2)
        | none => none
      | _ => none
    else if c.toNat < 32 then none
    else (readPieces rest).map fun t => (.plain c :: t.1, t.2)

/-- The signs of pieces: two units that form a pair are one character. -/
def join : List Piece → Torn
  | [] => []
  | .plain c :: rest => .char c :: join rest
  | .lone n :: rest => .ofPoint n :: join rest
  | .unit n :: .unit m :: rest =>
    if isPair n m then .char (ofPair n m) :: join rest
    else .ofPoint n :: join (.unit m :: rest)
  | .unit n :: rest => .ofPoint n :: join rest

/-- A string up to its closing quote, and the rest. -/
def readString (cs : List Char) : Except Flaw (Torn × List Char) :=
  match readPieces cs with
  | some (pieces, rest) => .ok (join pieces, rest)
  | none => .error .malformed

/-- A field of a record: a torn name leaves its mark on the value. -/
def fieldOf (name : Torn) (v : Value) : String × Value :=
  match name.whole? with
  | some cs => (String.ofList cs, v)
  | none => (String.ofList name.replaced, .torn name)

/-- The digits at the front and the rest. -/
def digitsAndRest (cs : List Char) : List Char × List Char :=
  (cs.takeWhile Char.isDigit, cs.dropWhile Char.isDigit)

/-- The whole part of a number: zero alone, or digits that do not start with zero. -/
def readWhole (cs : List Char) : Option (List Char × List Char) :=
  match cs with
  | '0' :: rest => some (['0'], rest)
  | _ =>
    match digitsAndRest cs with
    | ([], _) => none
    | r => some r

/-- A fraction at the front, if digits follow the point. -/
def readPoint (cs : List Char) : List Char × List Char :=
  match cs with
  | '.' :: rest =>
    match digitsAndRest rest with
    | ([], _) => ([], cs)
    | (ds, rest) => ('.' :: ds, rest)
  | _ => ([], cs)

/-- An exponent at the front, if digits follow its mark and sign. -/
def readPower (cs : List Char) : List Char × List Char :=
  match cs with
  | c :: rest =>
    if c = 'e' ∨ c = 'E' then
      let (sign, digits) :=
        match rest with
        | '+' :: r => (['+'], r)
        | '-' :: r => (['-'], r)
        | r => ([], r)
      match digitsAndRest digits with
      | ([], _) => ([], cs)
      | (ds, rest) => ('e' :: (sign ++ ds), rest)
    else ([], cs)
  | [] => ([], cs)

/-- A number without its sign: an integer, unless it has a fraction or an exponent. -/
def readMagnitude (negative : Bool) (cs : List Char) : Except Flaw (Value × List Char) :=
  match readWhole cs with
  | none => .error .malformed
  | some (whole, rest) =>
    let (fraction, rest) := readPoint rest
    let (power, rest) := readPower rest
    if fraction.isEmpty && power.isEmpty then
      if Value.integerRoom < whole.length then .error .tooLong
      else
        let n : Int := ofDigits (whole.map fun c => c.toNat - 48)
        .ok (.int (if negative then -n else n), rest)
    else
      let sign := if negative then ['-'] else []
      match Binary64.ofText? (String.ofList (sign ++ whole ++ fraction ++ power)) with
      | some x => .ok (.float x, rest)
      | none => .error .malformed

/-- The rest after a word at the front. -/
def afterWord? (word : String) (cs : List Char) : Option (List Char) :=
  if word.toList.isPrefixOf cs then some (cs.drop word.length) else none

/-- The words that stand for values. -/
def words : List (String × Value) := [
  ("null", .null), ("true", .bool true), ("false", .bool false), ("NaN", .float .nan),
  ("Infinity", .float (.infinity false)), ("-Infinity", .float (.infinity true))]

/-- A word at the front. -/
def readWord (cs : List Char) : Option (Value × List Char) :=
  words.findSome? fun w => (afterWord? w.1 cs).map fun rest => (w.2, rest)

/-- A number at the front. -/
def readNumber (cs : List Char) : Except Flaw (Value × List Char) :=
  match cs with
  | '-' :: rest => readMagnitude true rest
  | _ => readMagnitude false cs

mutual

/-- A value at the front, in which lists and records lie at most `room` deep within each other and
which is at most `fuel` long. -/
def readValue : Nat → Nat → List Char → Except Flaw (Value × List Char)
  | 0, _, _ => .error .malformed
  | fuel + 1, room, cs =>
    match cs with
    | [] => .error .malformed
    | c :: rest =>
      if c = '"' then do
        let (t, rest) ← readString rest
        return (.ofSigns t, rest)
      else if c = '[' then
        if room = 0 then .error .tooDeep
        else
          let rest := skip rest
          match rest with
          | ']' :: rest => .ok (.list [], rest)
          | _ => (readItems fuel (room - 1) rest).map fun p => (.list p.1, p.2)
      else if c = '\x7b' then
        if room = 0 then .error .tooDeep
        else
          let rest := skip rest
          match rest with
          | '\x7d' :: rest => .ok (.record [], rest)
          | _ =>
            (readFields fuel (room - 1) rest).map fun p => (.record (Fields.ofPairs p.1), p.2)
      else
        match readWord cs with
        | some r => .ok r
        | none => readNumber cs

/-- Items up to the closing bracket, at least one. -/
def readItems : Nat → Nat → List Char → Except Flaw (List Value × List Char)
  | 0, _, _ => .error .malformed
  | fuel + 1, room, cs => do
    let (v, rest) ← readValue fuel room cs
    match skip rest with
    | ']' :: rest => return ([v], rest)
    | ',' :: rest => (readItems fuel room (skip rest)).map fun p => (v :: p.1, p.2)
    | _ => throw .malformed

/-- Fields up to the closing brace, at least one. -/
def readFields : Nat → Nat → List Char → Except Flaw (List (String × Value) × List Char)
  | 0, _, _ => .error .malformed
  | fuel + 1, room, cs =>
    match cs with
    | '"' :: rest => do
      let (name, rest) ← readString rest
      match skip rest with
      | ':' :: rest =>
        let (v, rest) ← readValue fuel room (skip rest)
        match skip rest with
        | '\x7d' :: rest => return ([fieldOf name v], rest)
        | ',' :: rest =>
          (readFields fuel room (skip rest)).map fun p => (fieldOf name v :: p.1, p.2)
        | _ => throw .malformed
      | _ => throw .malformed
    | _ => .error .malformed

end

/-- The value that characters spell, alone but for blanks around it, with room for lists and
records so deep within each other. -/
def readWithin (room : Nat) (cs : List Char) : Except Flaw Value := do
  let (v, rest) ← readValue (cs.length + 1) room (skip cs)
  if (skip rest).isEmpty then return v else throw .malformed

/-- How deep lists and records from outside may lie within each other. -/
def deepest : Nat := 960

/-- The value of a text from outside. -/
def read (cs : List Char) : Except Flaw Value :=
  readWithin deepest (cs.flatMap fun c => Encoding.charsOf c.toNat)

/-- The value of bytes from outside. -/
def readBytes (bytes : List UInt8) : Except Flaw Value :=
  match Encoding.ofBytes? bytes with
  | some cs => readWithin deepest cs
  | none => .error .noText

/-- The value that a text written by `Json.print` holds. -/
def parse? (s : String) : Option Value :=
  match readWithin s.length s.toList with
  | .ok v => some v
  | .error _ => none

end Json
end LoanDesk
