/-
# Blank characters and trimming

A blank is a character that a field may carry at its ends without meaning: the
spaces of every script and the controls that separate lines and records. `trim`
takes them from both ends and leaves the middle alone.

Key definitions: `isBlank`, `trim`, `trimmed`.
-/

namespace LoanDesk
namespace Text

/-- The ranges of the blank characters, by code point. -/
def blankRanges : List (Nat × Nat) := [
  (9, 13), (28, 32), (133, 133), (160, 160), (5760, 5760), (8192, 8202), (8232, 8233),
  (8239, 8239), (8287, 8287), (12288, 12288)]

/-- The ranges hold the code point. -/
def inRanges (ranges : List (Nat × Nat)) (n : Nat) : Bool :=
  ranges.any fun r => r.1 ≤ n && n ≤ r.2

/-- The character separates fields and is nothing by itself. -/
def isBlank (c : Char) : Bool :=
  inRanges blankRanges c.toNat

/-- The characters without those at both ends that `drop` names. -/
def trimBy (drop : Char → Bool) (cs : List Char) : List Char :=
  ((cs.dropWhile drop).reverse.dropWhile drop).reverse

/-- The characters without the blanks at both ends. -/
def trim (cs : List Char) : List Char :=
  trimBy isBlank cs

/-- The text without the blanks at both ends. -/
def trimmed (s : String) : String :=
  String.ofList (trim s.toList)

end Text
end LoanDesk
