import LoanDesk.Text.CaseTable
import LoanDesk.Text.Blank

/-
# Small and capital letters

`lower` writes a text in small letters. A letter may give several characters, and a
capital sigma at the end of a word has a form of its own: it ends a word when a
letter stands before it and none after it, marks and apostrophes passed over.
`capitalized` writes the first letter in its title form and the rest small, `capitals`
all letters large.

Key definitions: `smallLetter`, `lower`, `capitalized`, `capitals`.
-/

namespace LoanDesk
namespace Text

/-- The run that moves the code point, if one does. -/
def CaseRun.find? (runs : List CaseRun) (n : Nat) : Option CaseRun :=
  runs.find? fun r => r.first ≤ n && n ≤ r.last && (n - r.first) % r.stride == 0

/-- The code point in the other case of a table of runs. -/
def shifted (runs : List CaseRun) (n : Nat) : Nat :=
  match CaseRun.find? runs n with
  | some r => (n + r.shift).toNat
  | none => n

/-- The small form of a letter away from its neighbours; the dotted capital I gives two
characters. -/
def smallLetter (c : Char) : List Char :=
  if c.toNat < 128 then [if 'A' ≤ c ∧ c ≤ 'Z' then Char.ofNat (c.toNat + 32) else c]
  else if c.toNat = 304 then ['i', Char.ofNat 775]
  else [Char.ofNat (shifted lowerRuns c.toNat)]

/-- The first of the characters that is not passed over has case. -/
def letterNext (cs : List Char) : Bool :=
  match cs.dropWhile fun c => inRanges ignorableRanges c.toNat with
  | [] => false
  | c :: _ => inRanges casedRanges c.toNat

/-- The small form of a letter between the characters before it, nearest first, and those
after it. -/
def smallBetween (before : List Char) (c : Char) (after : List Char) : List Char :=
  if c = 'Σ' then [if letterNext before && !letterNext after then 'ς' else 'σ']
  else smallLetter c

/-- The small forms of the characters that follow `before`, which is held nearest first. -/
def lowerAfter : List Char → List Char → List Char
  | _, [] => []
  | before, c :: after => smallBetween before c after ++ lowerAfter (c :: before) after

/-- The characters in small letters. -/
def lower (cs : List Char) : List Char :=
  lowerAfter [] cs

/-- The text in small letters. -/
def lowered (s : String) : String :=
  String.ofList (lower s.toList)

/-- The form of a letter at the start of a title. -/
def titleLetter (c : Char) : List Char :=
  if c.toNat < 128 then [if 'a' ≤ c ∧ c ≤ 'z' then Char.ofNat (c.toNat - 32) else c]
  else
    match titleSpellings.find? fun p => p.1 == c.toNat with
    | some (_, cs) => cs.map Char.ofNat
    | none => [Char.ofNat (shifted titleRuns c.toNat)]

/-- The text with its first letter in title form and the others small. -/
def capitalized (s : String) : String :=
  match s.toList with
  | [] => ""
  | c :: rest => String.ofList (titleLetter c ++ lowerAfter [c] rest)

/-- The capital form of a letter: most often the one that it has in titles. -/
def capitalLetter (c : Char) : List Char :=
  match capitalSpellings.find? fun p => p.1 == c.toNat with
  | some (_, cs) => cs.map Char.ofNat
  | none =>
    match CaseRun.find? capitalRuns c.toNat with
    | some r => [Char.ofNat (c.toNat + r.shift).toNat]
    | none => titleLetter c

/-- The text in capitals. -/
def capitals (s : String) : String :=
  String.ofList (s.toList.flatMap capitalLetter)

end Text
end LoanDesk
