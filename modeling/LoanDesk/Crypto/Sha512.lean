import LoanDesk.Crypto.Sha256

/-
# Digests of 384 and 512 bits

The message is padded to blocks of 128 bytes; each block is mixed into a state of
eight words of 64 bits in 80 rounds. The last state is the longer digest; the shorter
one starts from another state and leaves the last two words out.

Key definitions: `Sha512.compress`, `Sha512.pad`, `Sha512.digest`,
`Sha512.shortDigest`.
-/

namespace LoanDesk
namespace Sha512

/-- The eight words that blocks are mixed into. -/
structure State where
  a : UInt64
  b : UInt64
  c : UInt64
  d : UInt64
  e : UInt64
  f : UInt64
  g : UInt64
  h : UInt64
deriving DecidableEq, Repr

/-- The state before the first block: the first bits of the square roots of small primes. -/
def start : State := ⟨0x6a09e667f3bcc908, 0xbb67ae8584caa73b, 0x3c6ef372fe94f82b,
  0xa54ff53a5f1d36f1, 0x510e527fade682d1, 0x9b05688c2b3e6c1f,
  0x1f83d9abfb41bd6b, 0x5be0cd19137e2179⟩

/-- The state before the first block of the shorter digest: those of the next primes. -/
def shortStart : State := ⟨0xcbbb9d5dc1059ed8, 0x629a292a367cd507, 0x9159015a3070dd17,
  0x152fecd8f70e5939, 0x67332667ffc00b31, 0x8eb44a8768581511,
  0xdb0c2e0d64f98fa7, 0x47b5481dbefa4fa4⟩

/-- The constants of the rounds: the first bits of the cube roots of small primes. -/
def constants : List UInt64 := [
  0x428a2f98d728ae22, 0x7137449123ef65cd, 0xb5c0fbcfec4d3b2f, 0xe9b5dba58189dbbc,
  0x3956c25bf348b538, 0x59f111f1b605d019, 0x923f82a4af194f9b, 0xab1c5ed5da6d8118,
  0xd807aa98a3030242, 0x12835b0145706fbe, 0x243185be4ee4b28c, 0x550c7dc3d5ffb4e2,
  0x72be5d74f27b896f, 0x80deb1fe3b1696b1, 0x9bdc06a725c71235, 0xc19bf174cf692694,
  0xe49b69c19ef14ad2, 0xefbe4786384f25e3, 0x0fc19dc68b8cd5b5, 0x240ca1cc77ac9c65,
  0x2de92c6f592b0275, 0x4a7484aa6ea6e483, 0x5cb0a9dcbd41fbd4, 0x76f988da831153b5,
  0x983e5152ee66dfab, 0xa831c66d2db43210, 0xb00327c898fb213f, 0xbf597fc7beef0ee4,
  0xc6e00bf33da88fc2, 0xd5a79147930aa725, 0x06ca6351e003826f, 0x142929670a0e6e70,
  0x27b70a8546d22ffc, 0x2e1b21385c26c926, 0x4d2c6dfc5ac42aed, 0x53380d139d95b3df,
  0x650a73548baf63de, 0x766a0abb3c77b2a8, 0x81c2c92e47edaee6, 0x92722c851482353b,
  0xa2bfe8a14cf10364, 0xa81a664bbc423001, 0xc24b8b70d0f89791, 0xc76c51a30654be30,
  0xd192e819d6ef5218, 0xd69906245565a910, 0xf40e35855771202a, 0x106aa07032bbd1b8,
  0x19a4c116b8d2d0c8, 0x1e376c085141ab53, 0x2748774cdf8eeb99, 0x34b0bcb5e19b48a8,
  0x391c0cb3c5c95a63, 0x4ed8aa4ae3418acb, 0x5b9cca4f7763e373, 0x682e6ff3d6b2b8a3,
  0x748f82ee5defb2fc, 0x78a5636f43172f60, 0x84c87814a1f0ab72, 0x8cc702081a6439ec,
  0x90befffa23631e28, 0xa4506cebde82bde9, 0xbef9a3f7b2c67915, 0xc67178f2e372532b,
  0xca273eceea26619c, 0xd186b8c721c0c207, 0xeada7dd6cde0eb1e, 0xf57d4f7fee6ed178,
  0x06f067aa72176fba, 0x0a637dc5a2c898a6, 0x113f9804bef90dae, 0x1b710b35131c471b,
  0x28db77f523047d84, 0x32caab7b40c72493, 0x3c9ebe0a15c9bebc, 0x431d67c49c100d4c,
  0x4cc5d4becb3e42b6, 0x597f299cfc657e2a, 0x5fcb6fab3ad6faec, 0x6c44198c4a475817]

/-- The word turned right by `k` bits. -/
@[inline] def turnRight (x k : UInt64) : UInt64 :=
  (x >>> k) ||| (x <<< (64 - k))

/-- One round with the word that the schedule and the constants give for it. -/
def round (s : State) (w : UInt64) : State :=
  let s1 := turnRight s.e 14 ^^^ turnRight s.e 18 ^^^ turnRight s.e 41
  let choice := (s.e &&& s.f) ^^^ (~~~s.e &&& s.g)
  let t1 := s.h + s1 + choice + w
  let s0 := turnRight s.a 28 ^^^ turnRight s.a 34 ^^^ turnRight s.a 39
  let majority := (s.a &&& s.b) ^^^ (s.a &&& s.c) ^^^ (s.b &&& s.c)
  ⟨t1 + (s0 + majority), s.a, s.b, s.c, s.d + t1, s.e, s.f, s.g⟩

/-- The next word of the schedule from the words before it. -/
def nextWord (ws : Array UInt64) : UInt64 :=
  let n := ws.size
  let x := ws.getD (n - 15) 0
  let y := ws.getD (n - 2) 0
  let s0 := turnRight x 1 ^^^ turnRight x 8 ^^^ (x >>> 7)
  let s1 := turnRight y 19 ^^^ turnRight y 61 ^^^ (y >>> 6)
  ws.getD (n - 16) 0 + s0 + ws.getD (n - 7) 0 + s1

/-- The schedule with `count` more words. -/
def extend : Nat → Array UInt64 → Array UInt64
  | 0, ws => ws
  | count + 1, ws => extend count (ws.push (nextWord ws))

/-- The word of a row of bytes, high byte first. -/
def word (bytes : Bytes) : UInt64 :=
  bytes.foldl (fun w b => w <<< 8 ||| b.toUInt64) 0

/-- The words of a block, `count` of them, eight bytes each. -/
def words : Nat → Bytes → List UInt64
  | 0, _ => []
  | count + 1, bytes => word (bytes.take 8) :: words count (bytes.drop 8)

/-- The state with a block mixed in. -/
def compress (s : State) (block : Bytes) : State :=
  let schedule := (extend 64 (words 16 block).toArray).toList
  let r := (List.zipWith (· + ·) constants schedule).foldl round s
  ⟨s.a + r.a, s.b + r.b, s.c + r.c, s.d + r.d, s.e + r.e, s.f + r.f, s.g + r.g, s.h + r.h⟩

/-- The message with a mark, zeros and its length in bits, up to whole blocks. -/
def pad (message : Bytes) : Bytes :=
  let n := message.length
  message ++ 0x80 :: (List.replicate ((239 - n % 128) % 128) 0 ++ Sha256.bigEndian 16 (n * 8))

/-- The state after the blocks of a padded message, of which there are at most `count`. -/
def absorb : Nat → State → Bytes → State
  | 0, s, _ => s
  | count + 1, s, bytes => absorb count (compress s (bytes.take 128)) (bytes.drop 128)

/-- The bytes of a state. -/
def State.bytes (s : State) : Bytes :=
  [s.a, s.b, s.c, s.d, s.e, s.f, s.g, s.h].flatMap fun w => Sha256.bigEndian 8 w.toNat

/-- The bytes that a message leaves of a state. -/
def digestFrom (s : State) (message : Bytes) : Bytes :=
  let padded := pad message
  (absorb (padded.length / 128) s padded).bytes

/-- The digest of a message. -/
def digest (message : Bytes) : Bytes :=
  digestFrom start message

/-- The shorter digest of a message. -/
def shortDigest (message : Bytes) : Bytes :=
  (digestFrom shortStart message).take 48

end Sha512
end LoanDesk
