/-
# Digests of 256 bits

The message is padded to blocks of 64 bytes; each block is mixed into a state of
eight words in 64 rounds, and the last state is the digest.

Key definitions: `Bytes`, `Sha256.compress`, `Sha256.pad`, `Sha256.digest`.
-/

namespace LoanDesk

/-- A row of bytes. -/
abbrev Bytes := List UInt8

namespace Sha256

/-- The eight words that blocks are mixed into. -/
structure State where
  a : UInt32
  b : UInt32
  c : UInt32
  d : UInt32
  e : UInt32
  f : UInt32
  g : UInt32
  h : UInt32
deriving DecidableEq, Repr

/-- The state before the first block: the first bits of the square roots of small primes. -/
def start : State := ⟨0x6a09e667, 0xbb67ae85, 0x3c6ef372, 0xa54ff53a,
  0x510e527f, 0x9b05688c, 0x1f83d9ab, 0x5be0cd19⟩

/-- The constants of the rounds: the first bits of the cube roots of small primes. -/
def constants : List UInt32 := [
0x428a2f98, 0x71374491, 0xb5c0fbcf, 0xe9b5dba5, 0x3956c25b, 0x59f111f1,
  0x923f82a4, 0xab1c5ed5, 0xd807aa98, 0x12835b01, 0x243185be, 0x550c7dc3,
  0x72be5d74, 0x80deb1fe, 0x9bdc06a7, 0xc19bf174, 0xe49b69c1, 0xefbe4786,
  0x0fc19dc6, 0x240ca1cc, 0x2de92c6f, 0x4a7484aa, 0x5cb0a9dc, 0x76f988da,
  0x983e5152, 0xa831c66d, 0xb00327c8, 0xbf597fc7, 0xc6e00bf3, 0xd5a79147,
  0x06ca6351, 0x14292967, 0x27b70a85, 0x2e1b2138, 0x4d2c6dfc, 0x53380d13,
  0x650a7354, 0x766a0abb, 0x81c2c92e, 0x92722c85, 0xa2bfe8a1, 0xa81a664b,
  0xc24b8b70, 0xc76c51a3, 0xd192e819, 0xd6990624, 0xf40e3585, 0x106aa070,
  0x19a4c116, 0x1e376c08, 0x2748774c, 0x34b0bcb5, 0x391c0cb3, 0x4ed8aa4a,
  0x5b9cca4f, 0x682e6ff3, 0x748f82ee, 0x78a5636f, 0x84c87814, 0x8cc70208,
  0x90befffa, 0xa4506ceb, 0xbef9a3f7, 0xc67178f2]

/-- The word turned right by `k` bits. -/
@[inline] def turnRight (x k : UInt32) : UInt32 :=
  (x >>> k) ||| (x <<< (32 - k))

/-- One round with the word that the schedule and the constants give for it. -/
def round (s : State) (w : UInt32) : State :=
  let s1 := turnRight s.e 6 ^^^ turnRight s.e 11 ^^^ turnRight s.e 25
  let choice := (s.e &&& s.f) ^^^ (~~~s.e &&& s.g)
  let t1 := s.h + s1 + choice + w
  let s0 := turnRight s.a 2 ^^^ turnRight s.a 13 ^^^ turnRight s.a 22
  let majority := (s.a &&& s.b) ^^^ (s.a &&& s.c) ^^^ (s.b &&& s.c)
  ⟨t1 + (s0 + majority), s.a, s.b, s.c, s.d + t1, s.e, s.f, s.g⟩

/-- The next word of the schedule from the words before it. -/
def nextWord (ws : Array UInt32) : UInt32 :=
  let n := ws.size
  let x := ws.getD (n - 15) 0
  let y := ws.getD (n - 2) 0
  let s0 := turnRight x 7 ^^^ turnRight x 18 ^^^ (x >>> 3)
  let s1 := turnRight y 17 ^^^ turnRight y 19 ^^^ (y >>> 10)
  ws.getD (n - 16) 0 + s0 + ws.getD (n - 7) 0 + s1

/-- The schedule with `count` more words. -/
def extend : Nat → Array UInt32 → Array UInt32
  | 0, ws => ws
  | count + 1, ws => extend count (ws.push (nextWord ws))

/-- The words of a block, four bytes each, high byte first. -/
def words : Bytes → List UInt32
  | a :: b :: c :: d :: rest =>
    (a.toUInt32 <<< 24 ||| b.toUInt32 <<< 16 ||| c.toUInt32 <<< 8 ||| d.toUInt32) :: words rest
  | _ => []

/-- The state with a block mixed in. -/
def compress (s : State) (block : Bytes) : State :=
  let schedule := (extend 48 (words block).toArray).toList
  let r := (List.zipWith (· + ·) constants schedule).foldl round s
  ⟨s.a + r.a, s.b + r.b, s.c + r.c, s.d + r.d, s.e + r.e, s.f + r.f, s.g + r.g, s.h + r.h⟩

/-- The bytes of a number, high byte first. -/
def bigEndian : Nat → Nat → Bytes
  | 0, _ => []
  | width + 1, n => bigEndian width (n / 256) ++ [UInt8.ofNat n]

/-- The message with a mark, zeros and its length in bits, up to whole blocks. -/
def pad (message : Bytes) : Bytes :=
  let n := message.length
  message ++ 0x80 :: (List.replicate ((119 - n % 64) % 64) 0 ++ bigEndian 8 (n * 8))

/-- The state after the blocks of a padded message, of which there are at most `count`. -/
def absorb : Nat → State → Bytes → State
  | 0, s, _ => s
  | count + 1, s, bytes => absorb count (compress s (bytes.take 64)) (bytes.drop 64)

/-- The bytes of a word, high byte first. -/
def wordBytes (w : UInt32) : Bytes :=
  [(w >>> 24).toUInt8, (w >>> 16).toUInt8, (w >>> 8).toUInt8, w.toUInt8]

/-- The bytes of a state. -/
def State.bytes (s : State) : Bytes :=
  [s.a, s.b, s.c, s.d, s.e, s.f, s.g, s.h].flatMap wordBytes

/-- The digest of a message. -/
def digest (message : Bytes) : Bytes :=
  let padded := pad message
  (absorb (padded.length / 64) start padded).bytes

end Sha256
end LoanDesk
