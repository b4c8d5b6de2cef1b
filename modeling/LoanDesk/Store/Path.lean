import LoanDesk.Refusal
import LoanDesk.Json.Printer

/-
# Paths into documents

A path starts at the top of a document and goes down by names and places:
`.name` or `."name"` into a record, `[2]` or `[#-1]` into a list, the latter counted
from the end. Names are compared with the way the document spells them. A step that
does not fit what it meets finds nothing; a step that is no step at all is a fault,
but only once it is reached.

Key definitions: `Store.Extract`, `Store.Extract.ofValue`, `Store.lookup`,
`Store.extract`.
-/

namespace LoanDesk
namespace Store

/-- What a database makes of a part of a document. -/
inductive Extract where
  | null
  | integer (i : Int)
  | real (x : Binary64)
  | text (s : String)
  | torn (t : Text.Torn)
deriving DecidableEq, Repr

/-- The extract of a text that may be torn. -/
def Extract.ofSigns (t : Text.Torn) : Extract :=
  match t.whole? with
  | some cs => .text (String.ofList cs)
  | none => .torn t

/-- The text up to a zero character. -/
def upToZero (s : String) : String :=
  String.ofList (s.toList.takeWhile fun c => c.toNat != 0)

/-- What a database makes of a value: truth values are numbers, integers too large are rounded,
texts end at a zero character, and lists and records are their own text without blanks. -/
def Extract.ofValue : Value → Extract
  | .null => .null
  | .bool b => .integer (if b then 1 else 0)
  | .int i => if fitsWord i then .integer i else .real (Binary64.ofInt i)
  | .float x => .real x
  | .text s => .text (upToZero s)
  | .torn t => .ofSigns (t.takeWhile fun s => s != .char (Char.ofNat 0))
  | v => .text (Json.print .narrow v)

/-- The field of a record whose name is spelled so. -/
def fieldSpelled? (fs : Fields) (key : List Char) : Option Value :=
  (fs.find? fun f => Json.escape f.1.toList == key).map (·.2)

/-- The digits at the front as a number of 32 bits, and the rest. -/
def readIndex (cs : List Char) : Nat × List Char :=
  (Text.ofDigits ((cs.takeWhile Char.isDigit).map fun c => c.toNat - 48) % 0x100000000,
    cs.dropWhile Char.isDigit)

/-- Where an opening bracket leads in a list of `n` items: to a place and the rest behind the
closing bracket, or nowhere. A distance from the end that leaves the list leads nowhere, whatever
comes after it. -/
def readPlace (cs : List Char) (n : Nat) : Except Fault (Option (Nat × List Char)) :=
  let closed (place : Nat) (rest : List Char) : Except Fault (Option (Nat × List Char)) :=
    match rest with
    | ']' :: rest => .ok (some (place, rest))
    | _ => .error .statement
  match cs with
  | '#' :: '-' :: c :: digits =>
    if c.isDigit then
      let (back, rest) := readIndex (c :: digits)
      if n < back then .ok none else closed (n - back) rest
    else .error .statement
  | '#' :: rest => closed n rest
  | c :: _ => if c.isDigit then closed (readIndex cs).1 (readIndex cs).2 else .error .statement
  | [] => .error .statement

/-- The name behind a point, and the rest: up to the next step, or up to the closing quote. -/
def readName? (cs : List Char) : Option (List Char × List Char) :=
  match cs with
  | '"' :: rest =>
    match rest.dropWhile (· != '"') with
    | [] => none
    | _ :: after => some (rest.takeWhile (· != '"'), after)
  | _ =>
    match cs.takeWhile fun c => c != '.' && c != '[' with
    | [] => none
    | key => some (key, cs.dropWhile fun c => c != '.' && c != '[')

/-- The part of a value at the end of a path of at most `fuel` steps. -/
def lookup : Nat → Value → List Char → Except Fault (Option Value)
  | _, v, [] => .ok (some v)
  | 0, _, _ => .ok none
  | fuel + 1, v, '.' :: cs =>
    match v with
    | .record fs =>
      match readName? cs with
      | none => .error .statement
      | some (key, rest) =>
        match fieldSpelled? fs key with
        | some w => lookup fuel w rest
        | none => .ok none
    | _ => .ok none
  | fuel + 1, v, '[' :: cs =>
    match v with
    | .list items => do
      match ← readPlace cs items.length with
      | some (place, rest) =>
        match items[place]? with
        | some w => lookup fuel w rest
        | none => return none
      | none => return none
    | _ => if cs.head? = some '#' then .ok none else (readPlace cs 0).map fun _ => none
  | _, _, _ => .error .statement

/-- What a database extracts from a document under a key, which is a path without its first
point. -/
def extract (document : Value) (key : String) : Except Fault Extract := do
  if !document.isFinite then throw .statement
  let path := '.' :: (upToZero key).toList
  match ← lookup path.length document path with
  | some v => return .ofValue v
  | none => return .null

end Store
end LoanDesk
