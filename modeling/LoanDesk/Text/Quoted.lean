import LoanDesk.Text.PrintableTable
import LoanDesk.Text.Blank

/-
# Text in quotes

A message that names a text writes it in quotes with everything that would not
print spelled out. The quote is the single one, unless the text holds a single
quote and no double one.

Key definitions: `isPrintable`, `escaped`, `quoted`.
-/

namespace LoanDesk
namespace Text

/-- The character has a picture of its own. -/
def isPrintable (c : Char) : Bool :=
  if c.toNat < 127 then 32 ≤ c.toNat else !inRanges unprintableRanges c.toNat

/-- The lowest `width` digits of a number in base sixteen. -/
def hexDigits : Nat → Nat → List Char
  | 0, _ => []
  | width + 1, n => hexDigits width (n / 16) ++ [Nat.digitChar (n % 16)]

/-- The character as it stands between the quotes `q`. -/
def escaped (q c : Char) : List Char :=
  if c = q ∨ c = '\\' then ['\\', c]
  else if c = '\n' then ['\\', 'n']
  else if c = '\r' then ['\\', 'r']
  else if c = '\t' then ['\\', 't']
  else if isPrintable c then [c]
  else if c.toNat < 256 then '\\' :: 'x' :: hexDigits 2 c.toNat
  else if c.toNat < 65536 then '\\' :: 'u' :: hexDigits 4 c.toNat
  else '\\' :: 'U' :: hexDigits 8 c.toNat

/-- The quote that a text is put between. -/
def quoteFor (cs : List Char) : Char :=
  if '\'' ∈ cs ∧ '"' ∉ cs then '"' else '\''

/-- The text between quotes, with what does not print spelled out. -/
def quoted (s : String) : String :=
  let q := quoteFor s.toList
  String.ofList (q :: s.toList.flatMap (escaped q) ++ [q])

end Text
end LoanDesk
