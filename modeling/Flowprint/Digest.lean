/-
  Flowprint.Digest
  ────────────────────────────────
  The 256-bit secure hash of a byte message (SHA-256), as one value of 256 bits whose leading bits
  serve as identities: 128 of them name a feature, 64 of them name an executable.

  The message schedule is a sliding window of sixteen words: each round takes the word in front
  and appends the next one, so a block is one recursion over the 64 round constants.

  Main definitions:

      Digest.sha256         the hash of a message
      Digest.leading        the first `w` bits of a hash
-/

namespace Flowprint.Digest

/-! ## §1. Words. -/

/-- The 32-bit word of four bytes, most significant first. -/
def word (a b c d : UInt8) : UInt32 :=
  a.toUInt32 <<< 24 ||| b.toUInt32 <<< 16 ||| c.toUInt32 <<< 8 ||| d.toUInt32

/-- A word rotated right by `n` places, for `n` between 1 and 31. -/
def rotateRight (x : UInt32) (n : UInt32) : UInt32 :=
  x >>> n ||| x <<< (32 - n)

/-- The whole words of a run of bytes. -/
def words : List UInt8 → List UInt32
  | a :: b :: c :: d :: rest => word a b c d :: words rest
  | _ => []

/-! ## §2. Compression. -/

/-- The eight chaining words. -/
structure State where
  a : UInt32
  b : UInt32
  c : UInt32
  d : UInt32
  e : UInt32
  f : UInt32
  g : UInt32
  h : UInt32
  deriving Repr, DecidableEq

/-- The chaining words before the first block: the fractional parts of the square roots of the
first eight primes. -/
def State.initial : State :=
  ⟨0x6a09e667, 0xbb67ae85, 0x3c6ef372, 0xa54ff53a, 0x510e527f, 0x9b05688c, 0x1f83d9ab, 0x5be0cd19⟩

/-- Word by word addition. -/
def State.add (x y : State) : State :=
  ⟨x.a + y.a, x.b + y.b, x.c + y.c, x.d + y.d, x.e + y.e, x.f + y.f, x.g + y.g, x.h + y.h⟩

/-- The chaining words as one value, the first word leading. -/
def State.toBits (s : State) : BitVec 256 :=
  s.a.toBitVec ++ s.b.toBitVec ++ s.c.toBitVec ++ s.d.toBitVec
    ++ s.e.toBitVec ++ s.f.toBitVec ++ s.g.toBitVec ++ s.h.toBitVec

/-- The round constants: the fractional parts of the cube roots of the first 64 primes. -/
def roundConstants : List UInt32 :=
  [ 0x428a2f98, 0x71374491, 0xb5c0fbcf, 0xe9b5dba5, 0x3956c25b, 0x59f111f1, 0x923f82a4, 0xab1c5ed5,
    0xd807aa98, 0x12835b01, 0x243185be, 0x550c7dc3, 0x72be5d74, 0x80deb1fe, 0x9bdc06a7, 0xc19bf174,
    0xe49b69c1, 0xefbe4786, 0x0fc19dc6, 0x240ca1cc, 0x2de92c6f, 0x4a7484aa, 0x5cb0a9dc, 0x76f988da,
    0x983e5152, 0xa831c66d, 0xb00327c8, 0xbf597fc7, 0xc6e00bf3, 0xd5a79147, 0x06ca6351, 0x14292967,
    0x27b70a85, 0x2e1b2138, 0x4d2c6dfc, 0x53380d13, 0x650a7354, 0x766a0abb, 0x81c2c92e, 0x92722c85,
    0xa2bfe8a1, 0xa81a664b, 0xc24b8b70, 0xc76c51a3, 0xd192e819, 0xd6990624, 0xf40e3585, 0x106aa070,
    0x19a4c116, 0x1e376c08, 0x2748774c, 0x34b0bcb5, 0x391c0cb3, 0x4ed8aa4a, 0x5b9cca4f, 0x682e6ff3,
    0x748f82ee, 0x78a5636f, 0x84c87814, 0x8cc70208, 0x90befffa, 0xa4506ceb, 0xbef9a3f7, 0xc67178f2 ]

/-- One round with its constant and its schedule word. -/
def State.round (s : State) (k w : UInt32) : State :=
  let s1 := rotateRight s.e 6 ^^^ rotateRight s.e 11 ^^^ rotateRight s.e 25
  let choice := (s.e &&& s.f) ^^^ (~~~s.e &&& s.g)
  let t1 := s.h + s1 + choice + k + w
  let s0 := rotateRight s.a 2 ^^^ rotateRight s.a 13 ^^^ rotateRight s.a 22
  let majority := (s.a &&& s.b) ^^^ (s.a &&& s.c) ^^^ (s.b &&& s.c)
  ⟨t1 + (s0 + majority), s.a, s.b, s.c, s.d + t1, s.e, s.f, s.g⟩

/-- The schedule word that follows a window of sixteen. -/
def scheduleWord (w0 w1 w9 w14 : UInt32) : UInt32 :=
  let s0 := rotateRight w1 7 ^^^ rotateRight w1 18 ^^^ (w1 >>> 3)
  let s1 := rotateRight w14 17 ^^^ rotateRight w14 19 ^^^ (w14 >>> 10)
  w0 + s0 + w9 + s1

/-- A round for each constant, the window sliding by one word per round. -/
def State.rounds : List UInt32 → State → List UInt32 → State
  | k :: ks, s, w0 :: w1 :: window =>
    State.rounds ks (s.round k w0)
      (w1 :: window ++ [scheduleWord w0 w1 (window.getD 7 0) (window.getD 12 0)])
  | _, s, _ => s

/-- The chaining words after a block of sixteen words. -/
def State.absorb (s : State) (block : List UInt32) : State :=
  s.add (State.rounds roundConstants s block)

/-- The chaining words after all blocks. -/
def State.absorbAll (s : State) (message : List UInt32) : State :=
  if _h : 16 ≤ message.length then
    (s.absorb (message.take 16)).absorbAll (message.drop 16)
  else s
termination_by message.length

/-! ## §3. Messages. -/

/-- The last eight bytes of a padded message: its length in bits, most significant first. -/
def lengthBytes (bytes : Nat) : List UInt8 :=
  let bits := 8 * bytes
  [56, 48, 40, 32, 24, 16, 8, 0].map fun shift => .ofNat (bits >>> shift)

/-- A message filled up to whole blocks of 64 bytes. -/
def padded (message : List UInt8) : List UInt8 :=
  message ++ 0x80 :: List.replicate ((119 - message.length % 64) % 64) 0
    ++ lengthBytes message.length

/-- The hash of a message. -/
def sha256 (message : List UInt8) : BitVec 256 :=
  (State.initial.absorbAll (words (padded message))).toBits

/-- The first `w` bits of a hash. -/
def leading (w : Nat) (hash : BitVec 256) : BitVec w :=
  hash.extractLsb' (256 - w) w

end Flowprint.Digest
