import LoanDesk.Json.Parser

/-
# Hosts

The host of an address is a name, four numbers of a byte each with points between them,
or eight groups of digits in base sixteen in brackets, with colons between them. Two
colons in a row stand for groups of zeros, once and for one group at least, and the
last two groups may be four numbers of a byte. What is written in brackets, or like four
numbers, must be what it looks like; a name is not looked at.

Key definitions: `Web.parts`, `Web.Host.isFour`, `Web.Host.isEight`, `Web.Host.isGood`.
-/

namespace LoanDesk
namespace Web

/-- The parts of a text between marks. -/
def parts (mark : Char) : List Char → List (List Char)
  | [] => [[]]
  | c :: rest =>
    if c = mark then [] :: parts mark rest
    else
      match parts mark rest with
      | [] => [[c]]
      | p :: ps => (c :: p) :: ps

/-- The text before the first mark, and the text after it. -/
def cut (mark : Char) (cs : List Char) : List Char × List Char :=
  (cs.takeWhile (· != mark), (cs.dropWhile (· != mark)).drop 1)

namespace Host

/-- The number is written in plain digits, without a zero in front, and fits a byte. -/
def isOctet (cs : List Char) : Bool :=
  !cs.isEmpty && cs.all Char.isDigit && (cs.length == 1 || cs.head? != some '0') &&
    cs.length ≤ 3 && Text.ofDigits (cs.filterMap Text.asciiDigit?) < 256

/-- Four numbers of a byte each. -/
def isFour (cs : List Char) : Bool :=
  (parts '.' cs).length == 4 && (parts '.' cs).all isOctet

/-- The digits at the front, and the rest behind one more character. -/
def splitRun (cs : List Char) : List Char × List Char :=
  (cs.takeWhile Char.isDigit, (cs.dropWhile Char.isDigit).drop 1)

/-- The host is written like four numbers. -/
def looksFour (cs : List Char) : Bool :=
  let (a, cs) := splitRun cs
  let (b, cs) := splitRun cs
  let (c, cs) := splitRun cs
  !a.isEmpty && !b.isEmpty && !c.isEmpty && !cs.isEmpty && cs.all Char.isDigit

/-- One to four digits in base sixteen. -/
def isGroup (cs : List Char) : Bool :=
  !cs.isEmpty && cs.length ≤ 4 && cs.all fun c => (Json.hexValue? c).isSome

/-- Groups in which four numbers at the end count as two groups. -/
def widened (groups : List (List Char)) : Option (List (List Char)) :=
  match groups.reverse with
  | last :: before =>
    if last.contains '.' then
      if isFour last then some (before.reverse ++ [['0'], ['0']]) else none
    else some groups
  | [] => some []

/-- The groups on one side of two colons in a row: there are none, or each is one. The colon at
the very end of the text leaves an empty group `edge`, which must then stand alone. -/
def isSide (groups : List (List Char)) : Bool :=
  groups == [[]] || groups.all isGroup

/-- The groups make an address: eight of them, or fewer around one gap. -/
def areEight (groups : List (List Char)) : Bool :=
  match groups with
  | [] | [_] | [_, _] => false
  | first :: rest =>
    let inner := rest.dropLast
    let front := first :: inner.takeWhile (!·.isEmpty)
    if inner.all (!·.isEmpty) then groups.length == 8 && groups.all isGroup
    else
      let back := groups.drop (front.length + 1)
      let count (side : List (List Char)) : Nat := if side == [[]] then 0 else side.length
      isSide front && isSide back && count front + count back < 8

/-- Eight groups, perhaps with the name of a zone behind a percent sign. -/
def isEight (cs : List Char) : Bool :=
  let (address, zone) := cut '%' cs
  (!cs.contains '%' || (!zone.isEmpty && !zone.contains '%')) && !cs.contains '/' &&
    (parts ':' address).length > 2 && ((widened (parts ':' address)).map areEight).getD false

/-- The host stands in brackets. -/
def isBracketed (cs : List Char) : Bool :=
  cs.head? == some '[' && cs.getLast? == some ']' && 1 < cs.length

/-- The host is what it looks like. -/
def isGood (cs : List Char) : Bool :=
  if looksFour cs then isFour cs
  else if isBracketed cs then isEight (cs.drop 1).dropLast
  else true

end Host
end Web
end LoanDesk
