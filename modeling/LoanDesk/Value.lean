import LoanDesk.Binary64
import LoanDesk.Text.Torn
import LoanDesk.Time.Iso
import LoanDesk.Loan.Status

/-
# Loosely typed values

Requests, documents and the details of a refusal hold values whose kind is known
only when they are looked at. `Value.shown` is the text of a value by itself and
`Value.quoted` the one within a message; `Value.same` is equality by amount, in
which truth counts as one and a list or a record compares part by part; and
`Value.stored` is what a document keeps of a value.

Key definitions: `Value`, `Fields`, `Value.shown`, `Value.quoted`, `Value.recorded`,
`Value.same`, `Value.isFinite`, `Value.isWhole`, `Value.isWritable`, `Value.stored`,
`Value.amount?`.
-/

namespace LoanDesk

/-- A value of any kind. -/
inductive Value where
  | null
  | bool (b : Bool)
  | int (i : Int)
  | float (x : Binary64)
  | decimal (x : Decimal.Extended)
  | text (s : String)
  /-- A text with halves of surrogate pairs. -/
  | torn (t : Text.Torn)
  | moment (t : Stamp)
  | status (s : Loan.Status)
  | list (items : List Value)
  | record (fields : List (String × Value))
deriving Repr, Inhabited

instance : Coe String Value := ⟨.text⟩

/-- The integers that a signed machine word of 64 bits holds. -/
def fitsWord (i : Int) : Bool :=
  -0x8000000000000000 ≤ i && i < 0x8000000000000000

/-- Named values in the order in which their names first came. -/
abbrev Fields := List (String × Value)

namespace Fields

/-- The value of a name. -/
def get? (fs : Fields) (name : String) : Option Value :=
  (fs.find? fun f => f.1 == name).map (·.2)

/-- The value of a name, or nothing. -/
def get (fs : Fields) (name : String) : Value :=
  (get? fs name).getD .null

/-- The fields with a name given a value, in its place or at the end. -/
def put : Fields → String → Value → Fields
  | [], name, v => [(name, v)]
  | (n, old) :: rest, name, v =>
    if n = name then (n, v) :: rest else (n, old) :: put rest name v

/-- The names, in order. -/
def names (fs : Fields) : List String :=
  fs.map (·.1)

/-- The fields of pairs in which a name may come again: the last value counts. -/
def ofPairs (pairs : List (String × Value)) : Fields :=
  pairs.foldl (fun fs p => put fs p.1 p.2) []

end Fields

namespace Value

/-- The number that a value stands for, exactly: truth counts as one. -/
def amount? : Value → Option Decimal.Extended
  | bool b => some (.finite (if b then 1 else 0))
  | int i => some (.finite (Decimal.ofInt i))
  | float x => some x.exact
  | decimal x => some x
  | _ => none

/-- The value is a decimal. -/
def isDecimal : Value → Bool
  | decimal _ => true
  | _ => false

/-- The value is an integer. -/
def isInt : Value → Bool
  | int _ => true
  | _ => false

/-- The text of an integer. -/
def intText (i : Int) : String :=
  String.ofList (Text.intDigits i)

mutual

/-- The text of a value within a message. -/
def quoted : Value → String
  | null => "None"
  | bool b => if b then "True" else "False"
  | int i => intText i
  | float x => x.text
  | decimal x => "Decimal('" ++ x.text ++ "')"
  | text s => Text.quoted s
  | torn t => t.quoted
  | moment t => t.constructed
  | status s => s.quoted
  | list items => "[" ++ ", ".intercalate (quotedItems items) ++ "]"
  | record fields => "\x7b" ++ ", ".intercalate (quotedFields fields) ++ "\x7d"

/-- The texts of the items of a list. -/
def quotedItems : List Value → List String
  | [] => []
  | v :: rest => quoted v :: quotedItems rest

/-- The texts of the fields of a record. -/
def quotedFields : List (String × Value) → List String
  | [] => []
  | (n, v) :: rest => (Text.quoted n ++ ": " ++ quoted v) :: quotedFields rest

end

/-- The text of a value by itself. -/
def shown : Value → String
  | decimal x => x.text
  | text s => s
  | torn t => String.ofList t.replaced
  | moment t => t.spaced
  | status s => s.qualified
  | v => quoted v

/-- The value of a text that may be torn. -/
def ofSigns (t : Text.Torn) : Value :=
  match t.whole? with
  | some cs => text (String.ofList cs)
  | none => torn t

/-- The signs of the text of a value by itself. -/
def signs : Value → Text.Torn
  | torn t => t
  | v => Text.Torn.ofChars v.shown.toList

/-- A value as the records of loans and users hold it: a decimal is a text there. -/
def recorded : Value → Value
  | decimal x => text x.text
  | v => v

/-- The value counts as true: it is not null, false, zero or empty. -/
def truthy : Value → Bool
  | null => false
  | bool b => b
  | int i => i != 0
  | float (.finite _ m _) => m != 0
  | decimal (.finite d) => !d.isZero
  | text s => s != ""
  | list items => !items.isEmpty
  | record fields => !fields.isEmpty
  | _ => true

/-- Two values that are numbers are equal numbers. -/
def sameAmount (a b : Value) : Bool :=
  match a.amount?, b.amount? with
  | some x, some y => Decimal.Extended.order? x y == some .eq
  | _, _ => false

mutual

/-- The values are equal: as amounts, as texts, or part by part. -/
def same : Value → Value → Bool
  | null, null => true
  | text a, text b | torn a, torn b => a == b
  | moment a, moment b => a.same b
  | status a, status b => a == b
  | list as, list bs => sameItems as bs
  | record as, record bs => as.length == bs.length && sameFields as bs
  | a, b => sameAmount a b

/-- Two lists are equal item by item. -/
def sameItems : List Value → List Value → Bool
  | [], [] => true
  | a :: as, b :: bs => same a b && sameItems as bs
  | _, _ => false

/-- Every field of the first record has an equal one of its name in the second. -/
def sameFields : List (String × Value) → List (String × Value) → Bool
  | [], _ => true
  | (n, a) :: rest, bs =>
    (match Fields.get? bs n with
     | some b => same a b
     | none => false) && sameFields rest bs

end

mutual

/-- The test holds for every part of the value that has no parts of its own. -/
def everyPart (test : Value → Bool) : Value → Bool
  | list items => everyItem test items
  | record fields => everyField test fields
  | v => test v

/-- The test holds for every part of the items. -/
def everyItem (test : Value → Bool) : List Value → Bool
  | [] => true
  | v :: rest => everyPart test v && everyItem test rest

/-- The test holds for every part of the fields. -/
def everyField (test : Value → Bool) : List (String × Value) → Bool
  | [] => true
  | (_, v) :: rest => everyPart test v && everyField test rest

end

/-- Every measured number in the value has an end: strict readers take no other. -/
def isFinite (v : Value) : Bool :=
  v.everyPart fun part =>
    match part with
    | float (.finite ..) => true
    | float _ => false
    | _ => true

/-- Every text in the value is whole, and every measured number has an end: strict writers take no
other. -/
def isWhole (v : Value) : Bool :=
  v.isFinite && v.everyPart fun part =>
    match part with
    | torn _ => false
    | _ => true

/-- The most digits of an integer that is read or written. -/
def integerRoom : Nat := 4300

/-- Every integer in the value can be written. -/
def isWritable (v : Value) : Bool :=
  v.everyPart fun part =>
    match part with
    | int i => i.natAbs < Nat.pow 10 integerRoom
    | _ => true

mutual

/-- What a document keeps of a value: numbers, texts, truth values and their arrangement; a
decimal, a stamp and a status become texts, and halves that belong together are joined. -/
def stored : Value → Value
  | decimal x => text x.text
  | torn t => ofSigns t.joined
  | moment t => text t.spaced
  | status s => text s.qualified
  | list items => list (storedItems items)
  | record fields => record (storedFields fields)
  | v => v

/-- What a document keeps of the items of a list. -/
def storedItems : List Value → List Value
  | [] => []
  | v :: rest => stored v :: storedItems rest

/-- What a document keeps of the fields of a record. -/
def storedFields : List (String × Value) → List (String × Value)
  | [] => []
  | (n, v) :: rest => (n, stored v) :: storedFields rest

end

end Value
end LoanDesk
