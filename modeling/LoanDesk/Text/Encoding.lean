import LoanDesk.Text.Torn

/-
# Texts from bytes

A text may come as bytes of UTF-8, or in units of 16 or 32 bits with either byte first.
A mark at the front tells which; without one, the zero bytes among the first four do,
since a text of this kind starts with two plain characters. The mark itself does not
belong to the text. Half of a surrogate pair by itself is let through: it is spelled out
behind `Encoding.halfMark`, a control character that no text in JSON may hold, so that it
is told apart from a half that the text itself spells out.

Key definitions: `Encoding`, `Encoding.detect`, `Encoding.charsOf`, `Encoding.decode?`,
`Encoding.ofBytes?`.
-/

namespace LoanDesk

/-- The forms in which a text comes as bytes. -/
inductive Encoding where
  | utf8
  | utf16 (lowFirst : Bool)
  | utf32 (lowFirst : Bool)
deriving DecidableEq, Repr

namespace Encoding

/-- The form that the bytes have, and the bytes behind the mark if there is one. -/
def detect : List Nat → Encoding × List Nat
  | 0x00 :: 0x00 :: 0xFE :: 0xFF :: rest => (.utf32 false, rest)
  | 0xFF :: 0xFE :: 0x00 :: 0x00 :: rest => (.utf32 true, rest)
  | 0xFE :: 0xFF :: rest => (.utf16 false, rest)
  | 0xFF :: 0xFE :: rest => (.utf16 true, rest)
  | 0xEF :: 0xBB :: 0xBF :: rest => (.utf8, rest)
  | [0x00, b] => (.utf16 false, [0x00, b])
  | [a, 0x00] => (.utf16 true, [a, 0x00])
  | 0x00 :: b :: c :: d :: rest =>
    (if b = 0 then .utf32 false else .utf16 false, 0x00 :: b :: c :: d :: rest)
  | a :: 0x00 :: c :: d :: rest =>
    (if c = 0 ∧ d = 0 then .utf32 true else .utf16 true, a :: 0x00 :: c :: d :: rest)
  | bytes => (.utf8, bytes)

/-- The control character that stands before the digits of a half. -/
def halfMark : Char := '\x01'

/-- The characters of a code point: a half is spelled out behind `halfMark`. The mark itself gives
way to another control character, which JSON refuses just as well. -/
def charsOf (n : Nat) : List Char :=
  if Text.isHalf n then halfMark :: Text.hexDigits 4 n
  else if n = halfMark.toNat then ['\x00']
  else [Char.ofNat n]

/-- The bits that a byte adds to a character which it goes on with. -/
def tail? (b : Nat) : Option Nat :=
  if 0x80 ≤ b ∧ b < 0xC0 then some (b - 0x80) else none

/-- The code point of three bytes. -/
def three? (a b c : Nat) : Option Nat := do
  let n := (a - 0xE0) * 4096 + (← tail? b) * 64 + (← tail? c)
  if n < 0x800 then none else return n

/-- The code point of four bytes. -/
def four? (a b c d : Nat) : Option Nat := do
  let n := (a - 0xF0) * 262144 + (← tail? b) * 4096 + (← tail? c) * 64 + (← tail? d)
  if n < 0x10000 ∨ 0x10FFFF < n then none else return n

/-- The code points of bytes of UTF-8, halves of surrogate pairs among them. -/
def utf8? : List Nat → Option (List Nat)
  | [] => some []
  | a :: rest =>
    if a < 0x80 then (utf8? rest).map (a :: ·)
    else
      match rest with
      | b :: c :: d :: rest =>
        if a < 0xC2 then none
        else if a < 0xE0 then do
          return ((a - 0xC0) * 64 + (← tail? b)) :: (← utf8? (c :: d :: rest))
        else if a < 0xF0 then do return (← three? a b c) :: (← utf8? (d :: rest))
        else if a < 0xF5 then do return (← four? a b c d) :: (← utf8? rest)
        else none
      | [b, c] =>
        if 0xC2 ≤ a ∧ a < 0xE0 then do
          return ((a - 0xC0) * 64 + (← tail? b)) :: (← utf8? [c])
        else if 0xE0 ≤ a ∧ a < 0xF0 then (three? a b c).map fun n => [n]
        else none
      | [b] =>
        if 0xC2 ≤ a ∧ a < 0xE0 then (tail? b).map fun t => [(a - 0xC0) * 64 + t] else none
      | [] => none

/-- The units of 16 bits in a row of bytes. -/
def units? (lowFirst : Bool) : List Nat → Option (List Nat)
  | a :: b :: rest =>
    (units? lowFirst rest).map ((if lowFirst then b * 256 + a else a * 256 + b) :: ·)
  | [] => some []
  | [_] => none

/-- The code points of units of 16 bits: two halves that fit are one character. -/
def joined : List Nat → List Nat
  | n :: m :: rest =>
    if 0xD800 ≤ n ∧ n < 0xDC00 ∧ 0xDC00 ≤ m ∧ m < 0xE000 then
      (0x10000 + (n - 0xD800) * 1024 + (m - 0xDC00)) :: joined rest
    else n :: joined (m :: rest)
  | ns => ns

/-- The code points in groups of four bytes. -/
def utf32? (lowFirst : Bool) : List Nat → Option (List Nat)
  | a :: b :: c :: d :: rest =>
    let n :=
      if lowFirst then ((d * 256 + c) * 256 + b) * 256 + a
      else ((a * 256 + b) * 256 + c) * 256 + d
    if 0x10FFFF < n then none else (utf32? lowFirst rest).map (n :: ·)
  | [] => some []
  | _ => none

/-- The characters of bytes in a form. -/
def decode? (e : Encoding) (bytes : List Nat) : Option (List Char) :=
  let points :=
    match e with
    | utf8 => utf8? bytes
    | utf16 lowFirst => (units? lowFirst bytes).map joined
    | utf32 lowFirst => utf32? lowFirst bytes
  points.map fun ns => ns.flatMap charsOf

/-- The characters of bytes in the form that they show. -/
def ofBytes? (bytes : List UInt8) : Option (List Char) :=
  let (e, bytes) := detect (bytes.map UInt8.toNat)
  e.decode? bytes

end Encoding
end LoanDesk
