import LoanDesk.Text.Case
import LoanDesk.Text.Quoted

/-
# Torn texts

A text from outside may hold half of a surrogate pair by itself, which is no character
and has no bytes. Such a text is a row of signs, each of them a character or a half. It
can be trimmed, written in small letters, compared and spelled out like any other, but
not sent.

Key definitions: `Sign`, `Torn`, `Torn.whole?`, `Torn.joined`, `Torn.trimmed`,
`Torn.lowered`, `Torn.quoted`.
-/

namespace LoanDesk
namespace Text

/-- The number is half of a surrogate pair. -/
def isHalf (n : Nat) : Bool :=
  0xD800 ≤ n && n < 0xE000

/-- The units form a pair. -/
def isPair (n m : Nat) : Bool :=
  0xD800 ≤ n && n < 0xDC00 && 0xDC00 ≤ m && m < 0xE000

/-- The character of a pair of units. -/
def ofPair (high low : Nat) : Char :=
  Char.ofNat (65536 + (high - 55296) * 1024 + (low - 56320))

/-- A sign of a text: a character, or half of a surrogate pair by itself. -/
inductive Sign where
  | char (c : Char)
  | half (n : Nat) (isHalf : isHalf n = true)
deriving DecidableEq, Repr

/-- The sign of a code point. -/
def Sign.ofPoint (n : Nat) : Sign :=
  if h : isHalf n = true then .half n h else .char (Char.ofNat n)

/-- The sign is a blank character. -/
def Sign.isBlank : Sign → Bool
  | char c => Text.isBlank c
  | half .. => false

/-- A text of signs. -/
abbrev Torn := List Sign

namespace Torn

/-- The text of characters. -/
def ofChars (cs : List Char) : Torn :=
  cs.map .char

/-- The characters of a text that has no halves. -/
def whole? : Torn → Option (List Char)
  | [] => some []
  | .char c :: rest => (whole? rest).map (c :: ·)
  | .half .. :: _ => none

/-- The characters in front of the first half. -/
def front : Torn → List Char
  | .char c :: rest => c :: front rest
  | _ => []

/-- The characters, with the replacement character for a half. -/
def replaced (t : Torn) : List Char :=
  t.map fun s =>
    match s with
    | .char c => c
    | .half .. => Char.ofNat 0xFFFD

/-- The text in which every half is joined to the half behind it that completes the pair. -/
def joined : Torn → Torn
  | .half n h :: .half m k :: rest =>
    if isPair n m then .char (ofPair n m) :: joined rest
    else .half n h :: joined (.half m k :: rest)
  | s :: rest => s :: joined rest
  | [] => []

/-- The text without the blanks at both ends. -/
def trimmed (t : Torn) : Torn :=
  ((t.dropWhile Sign.isBlank).reverse.dropWhile Sign.isBlank).reverse

/-- The small forms of the signs that follow the characters `before`, which are held nearest
first. A half parts words. -/
def loweredAfter : List Char → Torn → Torn
  | _, [] => []
  | before, .char c :: rest =>
    ofChars (smallBetween before c (front rest)) ++ loweredAfter (c :: before) rest
  | _, .half n h :: rest => .half n h :: loweredAfter [] rest

/-- The text in small letters. -/
def lowered (t : Torn) : Torn :=
  loweredAfter [] t

/-- A sign as it stands between the quotes `q`: a half is spelled out. -/
def escapedSign (q : Char) : Sign → List Char
  | .char c => escaped q c
  | .half n _ => '\\' :: 'u' :: hexDigits 4 n

/-- The text between quotes, with what does not print spelled out. -/
def quoted (t : Torn) : String :=
  let q := quoteFor t.replaced
  String.ofList (q :: t.flatMap (escapedSign q) ++ [q])

end Torn
end Text
end LoanDesk
