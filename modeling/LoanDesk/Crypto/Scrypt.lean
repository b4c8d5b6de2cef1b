import LoanDesk.Crypto.Hmac

/-
# Slow digests of passwords

A password and a salt are stretched to one kilobyte, mixed with itself sixteen
thousand times over sixteen megabytes, and squeezed to 64 bytes. Whoever tries
passwords has to pay for the memory every time.

Key definitions: `Scrypt.scramble`, `Scrypt.mixBlocks`, `Scrypt.mix`,
`Scrypt.digest`, `Scrypt.hex`.
-/

namespace LoanDesk
namespace Scrypt

/-- How often the kilobyte is mixed, and how many copies of it are kept. -/
def cost : Nat := 16384

/-- The word turned left by `k` bits. -/
@[inline] def turnLeft (x k : UInt32) : UInt32 :=
  (x <<< k) ||| (x >>> (32 - k))

/-- Mixes sixteen words by columns and by rows, `count` times. -/
def scramble (count : Nat) (x0 x1 x2 x3 x4 x5 x6 x7 x8 x9 x10 x11 x12 x13 x14 x15 : UInt32) :
    Array UInt32 :=
  match count with
  | 0 => #[x0, x1, x2, x3, x4, x5, x6, x7, x8, x9, x10, x11, x12, x13, x14, x15]
  | count + 1 =>
    let x4 := x4 ^^^ turnLeft (x0 + x12) 7
    let x8 := x8 ^^^ turnLeft (x4 + x0) 9
    let x12 := x12 ^^^ turnLeft (x8 + x4) 13
    let x0 := x0 ^^^ turnLeft (x12 + x8) 18
    let x9 := x9 ^^^ turnLeft (x5 + x1) 7
    let x13 := x13 ^^^ turnLeft (x9 + x5) 9
    let x1 := x1 ^^^ turnLeft (x13 + x9) 13
    let x5 := x5 ^^^ turnLeft (x1 + x13) 18
    let x14 := x14 ^^^ turnLeft (x10 + x6) 7
    let x2 := x2 ^^^ turnLeft (x14 + x10) 9
    let x6 := x6 ^^^ turnLeft (x2 + x14) 13
    let x10 := x10 ^^^ turnLeft (x6 + x2) 18
    let x3 := x3 ^^^ turnLeft (x15 + x11) 7
    let x7 := x7 ^^^ turnLeft (x3 + x15) 9
    let x11 := x11 ^^^ turnLeft (x7 + x3) 13
    let x15 := x15 ^^^ turnLeft (x11 + x7) 18
    let x1 := x1 ^^^ turnLeft (x0 + x3) 7
    let x2 := x2 ^^^ turnLeft (x1 + x0) 9
    let x3 := x3 ^^^ turnLeft (x2 + x1) 13
    let x0 := x0 ^^^ turnLeft (x3 + x2) 18
    let x6 := x6 ^^^ turnLeft (x5 + x4) 7
    let x7 := x7 ^^^ turnLeft (x6 + x5) 9
    let x4 := x4 ^^^ turnLeft (x7 + x6) 13
    let x5 := x5 ^^^ turnLeft (x4 + x7) 18
    let x11 := x11 ^^^ turnLeft (x10 + x9) 7
    let x8 := x8 ^^^ turnLeft (x11 + x10) 9
    let x9 := x9 ^^^ turnLeft (x8 + x11) 13
    let x10 := x10 ^^^ turnLeft (x9 + x8) 18
    let x12 := x12 ^^^ turnLeft (x15 + x14) 7
    let x13 := x13 ^^^ turnLeft (x12 + x15) 9
    let x14 := x14 ^^^ turnLeft (x13 + x12) 13
    let x15 := x15 ^^^ turnLeft (x14 + x13) 18
    scramble count x0 x1 x2 x3 x4 x5 x6 x7 x8 x9 x10 x11 x12 x13 x14 x15

/-- The sum of two rows of words. -/
def addWords (a b : Array UInt32) : Array UInt32 :=
  Array.zipWith (· + ·) a b

/-- The words of `a` combined with sixteen words of `b` from `at_` on, scrambled and added. -/
def step (a b : Array UInt32) (at_ : Nat) : Array UInt32 :=
  let y0 := a.getD 0 0 ^^^ b.getD (at_ + 0) 0
  let y1 := a.getD 1 0 ^^^ b.getD (at_ + 1) 0
  let y2 := a.getD 2 0 ^^^ b.getD (at_ + 2) 0
  let y3 := a.getD 3 0 ^^^ b.getD (at_ + 3) 0
  let y4 := a.getD 4 0 ^^^ b.getD (at_ + 4) 0
  let y5 := a.getD 5 0 ^^^ b.getD (at_ + 5) 0
  let y6 := a.getD 6 0 ^^^ b.getD (at_ + 6) 0
  let y7 := a.getD 7 0 ^^^ b.getD (at_ + 7) 0
  let y8 := a.getD 8 0 ^^^ b.getD (at_ + 8) 0
  let y9 := a.getD 9 0 ^^^ b.getD (at_ + 9) 0
  let y10 := a.getD 10 0 ^^^ b.getD (at_ + 10) 0
  let y11 := a.getD 11 0 ^^^ b.getD (at_ + 11) 0
  let y12 := a.getD 12 0 ^^^ b.getD (at_ + 12) 0
  let y13 := a.getD 13 0 ^^^ b.getD (at_ + 13) 0
  let y14 := a.getD 14 0 ^^^ b.getD (at_ + 14) 0
  let y15 := a.getD 15 0 ^^^ b.getD (at_ + 15) 0
  addWords #[y0, y1, y2, y3, y4, y5, y6, y7, y8, y9, y10, y11, y12, y13, y14, y15]
    (scramble 4 y0 y1 y2 y3 y4 y5 y6 y7 y8 y9 y10 y11 y12 y13 y14 y15)

/-- Mixes the pairs of sixteen-word blocks of `b` from pair `i` on, `count` of them, starting from
the block `x`; results of even blocks are gathered apart from those of odd ones. -/
def mixPairs (b : Array UInt32) :
    Nat → Nat → Array UInt32 → Array UInt32 → Array UInt32 → Array UInt32
  | 0, _, _, even, odd => even ++ odd
  | count + 1, i, x, even, odd =>
    let y := step x b (i * 32)
    let z := step y b (i * 32 + 16)
    mixPairs b count (i + 1) z (even ++ y) (odd ++ z)

/-- Mixes a kilobyte of 256 words once. -/
def mixBlocks (b : Array UInt32) : Array UInt32 :=
  mixPairs b 8 0 (b.extract 240 256) #[] #[]

/-- The kilobytes that mixing passes through, `count` of them, and the one after. -/
def fill : Nat → Array UInt32 → Array (Array UInt32) → Array (Array UInt32) × Array UInt32
  | 0, x, kept => (kept, x)
  | count + 1, x, kept => fill count (mixBlocks x) (kept.push x)

/-- Mixes on, each time with the kept kilobyte that the words themselves choose. -/
def revisit (kept : Array (Array UInt32)) : Nat → Array UInt32 → Array UInt32
  | 0, x => x
  | count + 1, x =>
    let j := (x.getD 240 0).toNat % cost
    revisit kept count (mixBlocks (Array.zipWith (· ^^^ ·) x (kept.getD j #[])))

/-- Mixes a kilobyte over all its memory. -/
def mix (x : Array UInt32) : Array UInt32 :=
  let (kept, x) := fill cost x #[]
  revisit kept cost x

/-- The words of a row of bytes, low byte first. -/
def words : Bytes → List UInt32
  | a :: b :: c :: d :: rest =>
    (a.toUInt32 ||| b.toUInt32 <<< 8 ||| c.toUInt32 <<< 16 ||| d.toUInt32 <<< 24) :: words rest
  | _ => []

/-- The bytes of a word, low byte first. -/
def wordBytes (w : UInt32) : Bytes :=
  [w.toUInt8, (w >>> 8).toUInt8, (w >>> 16).toUInt8, (w >>> 24).toUInt8]

/-- The digest of a password with a salt. -/
def digest (password salt : Bytes) : Bytes :=
  let mixed := mix (words (Hmac.derive password salt 1024)).toArray
  Hmac.derive password (mixed.toList.flatMap wordBytes) 64

/-- A byte in two digits of base sixteen. -/
def hexByte (b : UInt8) : List Char :=
  [Nat.digitChar (b.toNat / 16), Nat.digitChar (b.toNat % 16)]

/-- The bytes of a text. -/
def textBytes (s : String) : Bytes :=
  s.toUTF8.toList

/-- The digest of a password with a salt, in digits of base sixteen. -/
def hex (password salt : String) : String :=
  String.ofList ((digest (textBytes password) (textBytes salt)).flatMap hexByte)

end Scrypt
end LoanDesk
