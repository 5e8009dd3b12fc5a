/-
  Flowprint.SimHash
  ────────────────────────────────
  Similarity hashes: 128 bits, of which related inputs share more than half.

  A hash is kept as two halves of 64 bits; `toBits` views it as one value of 128 bits, bit 0 the
  least significant bit of the lower half.  Likeness of two hashes is the number of positions at
  which they agree.

  Main statements:

      ofBits_toBits, toBits_ofBits   the two views carry the same hash
      toNat_toBits                   a hash as a number
      distance_self                  a hash differs nowhere from itself
      ones_le                        no value has more ones than places
-/
import Flowprint.Text.Blank
import Flowprint.Text.Radix
import Flowprint.Text.Utf8

namespace Flowprint

/-! ## §1. Counting ones. -/

/-- The number of ones in a value. -/
def ones {w : Nat} (x : BitVec w) : Nat :=
  (List.range w).countP fun i => x.getLsbD i

theorem ones_le {w : Nat} (x : BitVec w) : ones x ≤ w := by
  simpa [ones] using List.countP_le_length (l := List.range w) (p := fun i => x.getLsbD i)

@[simp] theorem ones_zero {w : Nat} : ones (0#w) = 0 := by
  simp [ones]

/-! ## §2. Hashes. -/

/-- A similarity hash. -/
structure SimHash where
  /-- The upper 64 bits. -/
  high : UInt64
  /-- The lower 64 bits. -/
  low : UInt64
  deriving Repr, DecidableEq, Inhabited

namespace SimHash

/-- The number of bits of a hash. -/
def width : Nat := 128

/-- The hash as one value. -/
def toBits (hash : SimHash) : BitVec 128 :=
  hash.high.toBitVec ++ hash.low.toBitVec

/-- The hash with the given bits. -/
def ofBits (bits : BitVec 128) : SimHash :=
  ⟨⟨bits.extractLsb' 64 64⟩, ⟨bits.extractLsb' 0 64⟩⟩

@[simp] theorem toBits_ofBits (bits : BitVec 128) : (ofBits bits).toBits = bits := by
  apply BitVec.eq_of_getLsbD_eq
  intro i hi
  simp only [toBits, ofBits, BitVec.getLsbD_append, BitVec.getLsbD_extractLsb']
  by_cases h : i < 64
  · simp [h]
  · simp [h, show i - 64 < 64 by omega, show 64 + (i - 64) = i by omega]

@[simp] theorem ofBits_toBits (hash : SimHash) : ofBits hash.toBits = hash := by
  have hhigh : (hash.toBits).extractLsb' 64 64 = hash.high.toBitVec := by
    apply BitVec.eq_of_getLsbD_eq
    intro i hi
    simp only [toBits, BitVec.getLsbD_extractLsb', BitVec.getLsbD_append]
    simp [hi]
  have hlow : (hash.toBits).extractLsb' 0 64 = hash.low.toBitVec := by
    apply BitVec.eq_of_getLsbD_eq
    intro i hi
    simp only [toBits, BitVec.getLsbD_extractLsb', BitVec.getLsbD_append]
    simp [hi]
  simp [ofBits, hhigh, hlow]

/-- As a number, a hash is its upper half in front of its lower half. -/
theorem toNat_toBits (hash : SimHash) :
    hash.toBits.toNat = hash.high.toNat * 0x10000000000000000 + hash.low.toNat := by
  rw [toBits, BitVec.toNat_append, ← Nat.shiftLeft_add_eq_or_of_lt hash.low.toBitVec.isLt,
    Nat.shiftLeft_eq]
  rfl

/-- The number of positions at which two hashes differ. -/
def distance (a b : SimHash) : Nat :=
  ones (a.toBits ^^^ b.toBits)

/-- The number of positions at which two hashes agree. -/
def agreement (a b : SimHash) : Nat :=
  width - a.distance b

@[simp] theorem distance_self (a : SimHash) : a.distance a = 0 := by
  simp [distance]

/-- Hashes in the order of their upper halves, then of their lower halves. -/
instance : Ord SimHash where
  compare a b := (compare a.high b.high).then (compare a.low b.low)

/-! ## §3. Written form. -/

/-- A hash as 32 hexadecimal digits. -/
def text (hash : SimHash) : String :=
  .ofList (Text.Radix.hexDigits 16 hash.high.toNat ++ Text.Radix.hexDigits 16 hash.low.toNat)

/-- Why a text is no hash. -/
inductive ReadFault where
  /-- The digits take this number of bytes instead of 32. -/
  | wrongLength (bytes : Nat)
  /-- These digits are no number. -/
  | wrongDigits (digits : String)
  deriving Repr, DecidableEq

/-- The sentence that names a fault. -/
def ReadFault.message : ReadFault → String
  | .wrongLength bytes => s!"expected 32 hex digits, got {bytes} characters"
  | .wrongDigits digits => s!"invalid hex digits in hash: {digits}"

/-- A text without the mark of hexadecimal numbers in front of it. -/
def dropMark : List Char → List Char
  | '0' :: 'x' :: digits => digits
  | digits => digits

/-- The hash that a text denotes: 32 digits, with blanks around them and `0x` in front if the
writer liked. -/
def read (s : String) : Except ReadFault SimHash :=
  let digits := dropMark (Text.trim s.toList)
  if Text.utf8Length digits = 32 then
    match Text.Radix.read 16 Text.Radix.size128 digits with
    | .ok n => .ok (ofBits (.ofNat 128 n))
    | .error _ => .error (.wrongDigits (.ofList digits))
  else .error (.wrongLength (Text.utf8Length digits))

end SimHash

end Flowprint
