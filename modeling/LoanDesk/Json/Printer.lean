import LoanDesk.Value

/-
# Writing JSON

A value is written in printable ASCII characters on one line: what lies outside is
spelled as UTF-16 units, so no text can break a line. Values that JSON does not know
are written as the texts that a document keeps of them. A writer has room for integers of
so many digits and for lists and records so deep within each other; `Json.obstacle?` is
the first thing that it has no room for.

Key definitions: `Json.Style`, `Json.escaped`, `Json.quoted`, `Json.chars`,
`Json.print`, `Json.Obstacle`, `Json.obstacle?`.
-/

namespace LoanDesk
namespace Json

/-- What stands between items, and between a name and its value. -/
structure Style where
  between : List Char
  afterName : List Char
deriving DecidableEq, Repr

/-- Blanks after commas and colons. -/
def Style.wide : Style := ⟨[',', ' '], [':', ' ']⟩

/-- No blanks at all. -/
def Style.narrow : Style := ⟨[','], [':']⟩

/-- A UTF-16 unit spelled out. -/
def spelledUnit (n : Nat) : List Char :=
  '\\' :: 'u' :: Text.hexDigits 4 n

/-- The character as it stands in a JSON text. -/
def escaped (c : Char) : List Char :=
  if c = '"' then ['\\', '"']
  else if c = '\\' then ['\\', '\\']
  else if 32 ≤ c.toNat ∧ c.toNat < 127 then [c]
  else if c.toNat = 8 then ['\\', 'b']
  else if c.toNat = 9 then ['\\', 't']
  else if c.toNat = 10 then ['\\', 'n']
  else if c.toNat = 12 then ['\\', 'f']
  else if c.toNat = 13 then ['\\', 'r']
  else if c.toNat < 65536 then spelledUnit c.toNat
  else
    spelledUnit (55296 + (c.toNat - 65536) / 1024) ++
      spelledUnit (56320 + (c.toNat - 65536) % 1024)

/-- The characters as they stand in a JSON text. -/
def escape (cs : List Char) : List Char :=
  cs.flatMap escaped

/-- A JSON string. -/
def quoted (s : String) : List Char :=
  '"' :: (escape s.toList ++ ['"'])

/-- A binary number; the infinities and not-a-number have words. -/
def floatChars : Binary64 → List Char
  | .nan => "NaN".toList
  | .infinity false => "Infinity".toList
  | .infinity true => "-Infinity".toList
  | x => x.chars

/-- A sign as it stands in a JSON text. -/
def escapedSign : Text.Sign → List Char
  | .char c => escaped c
  | .half n _ => spelledUnit n

/-- A JSON string for a text that may be torn. -/
def quotedTorn (t : Text.Torn) : List Char :=
  '"' :: (t.flatMap escapedSign ++ ['"'])

mutual

/-- The characters of a value. -/
def chars (style : Style) : Value → List Char
  | .null => "null".toList
  | .bool b => if b then "true".toList else "false".toList
  | .int i => Text.intDigits i
  | .float x => floatChars x
  | .decimal x => quoted x.text
  | .text s => quoted s
  | .torn t => quotedTorn t
  | .moment t => quoted t.spaced
  | .status s => quoted s.qualified
  | .list items => '[' :: itemChars style items
  | .record fields => '\x7b' :: fieldChars style fields

/-- The characters of the items of a list and its closing bracket. -/
def itemChars (style : Style) : List Value → List Char
  | [] => [']']
  | v :: rest => chars style v ++ moreItemChars style rest

/-- The characters of the items after the first. -/
def moreItemChars (style : Style) : List Value → List Char
  | [] => [']']
  | v :: rest => style.between ++ (chars style v ++ moreItemChars style rest)

/-- The characters of the fields of a record and its closing brace. -/
def fieldChars (style : Style) : List (String × Value) → List Char
  | [] => ['\x7d']
  | (n, v) :: rest =>
    quoted n ++ (style.afterName ++ (chars style v ++ moreFieldChars style rest))

/-- The characters of the fields after the first. -/
def moreFieldChars (style : Style) : List (String × Value) → List Char
  | [] => ['\x7d']
  | (n, v) :: rest =>
    style.between ++ (quoted n ++ (style.afterName ++ (chars style v ++ moreFieldChars style rest)))

end

/-- The text of a value. -/
def print (style : Style) (v : Value) : String :=
  String.ofList (chars style v)

/-! ### What cannot be written -/

/-- What stands in the way of writing a value. -/
inductive Obstacle where
  /-- An integer has too many digits. -/
  | tooLong
  /-- Lists and records lie too deep within each other. -/
  | tooDeep
deriving DecidableEq, Repr

mutual

/-- The first obstacle to writing a value with room for lists and records `room` deep within each
other. What is written as a text of its own takes as much room as a list. -/
def obstacle? : Nat → Value → Option Obstacle
  | _, .int i => if i.natAbs < Nat.pow 10 Value.integerRoom then none else some .tooLong
  | 0, .list _ | 0, .record _ | 0, .decimal _ | 0, .moment _ | 0, .status _ => some .tooDeep
  | room + 1, .list items => itemsObstacle? room items
  | room + 1, .record fields => fieldsObstacle? room fields
  | _, _ => none

/-- The first obstacle to writing the items of a list. -/
def itemsObstacle? : Nat → List Value → Option Obstacle
  | _, [] => none
  | room, v :: rest => (obstacle? room v).or (itemsObstacle? room rest)

/-- The first obstacle to writing the values of fields. -/
def fieldsObstacle? : Nat → List (String × Value) → Option Obstacle
  | _, [] => none
  | room, (_, v) :: rest => (obstacle? room v).or (fieldsObstacle? room rest)

end

end Json
end LoanDesk
