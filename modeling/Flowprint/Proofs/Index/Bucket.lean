/-
  Flowprint.Proofs.Index.Bucket
  ────────────────────────────────
  What a bucket holds: the values whose eight leading places are those of the query.

  A bucket is a range of stored halves.  Halves are stored as signed words in the order of the
  halves themselves, and the halves of a range are those with the same leading byte.

  Main statements:

      biased_le_biased      stored halves are in the order of the halves
      inBucket_iff          a value is in a bucket exactly if it has the leading places of the query
-/
import Flowprint.Index.Query
import Mathlib.Algebra.Ring.Int.Defs
import Mathlib.Algebra.Ring.Nat

namespace Flowprint.Index

/-! ## §1. The order of stored halves. -/

/-- A stored half is the half less `2 ^ 63`. -/
theorem toInt_biased (half : UInt64) : (biased half).toInt = (half.toNat : Int) - 2 ^ 63 := by
  -- the flip leaves the lower bits and turns the top bit round
  have hmod : (half.toNat ^^^ 2 ^ 63) % 2 ^ 63 = half.toNat % 2 ^ 63 := by
    rw [Nat.xor_mod_two_pow, Nat.mod_self, Nat.xor_zero]
  have hdiv : (half.toNat ^^^ 2 ^ 63) / 2 ^ 63 = (half.toNat / 2 ^ 63) ^^^ 1 := by
    rw [Nat.xor_div_two_pow, Nat.div_self (by decide)]
  have hlt : half.toNat < 2 ^ 64 := half.toNat_lt
  have htop : half.toNat / 2 ^ 63 = 0 ∨ half.toNat / 2 ^ 63 = 1 := by omega
  have hflip : (half.toNat / 2 ^ 63) ^^^ 1 = 1 - half.toNat / 2 ^ 63 := by
    rcases htop with h | h <;> rw [h] <;> rfl
  rw [hflip] at hdiv
  have hbits : (biased half).toBitVec.toNat = half.toNat ^^^ 2 ^ 63 := by
    show (half ^^^ 0x8000000000000000).toNat = _
    rw [UInt64.toNat_xor]
    rfl
  show (biased half).toBitVec.toInt = _
  rw [BitVec.toInt_eq_toNat_cond, hbits]
  split <;> omega

/-- The signed order of stored halves is the unsigned order of the halves. -/
theorem biased_le_biased {a b : UInt64} : biased a ≤ biased b ↔ a.toNat ≤ b.toNat := by
  rw [Int64.le_iff_toInt_le, toInt_biased, toInt_biased]
  omega

/-! ## §2. Ranges of halves. -/

theorem toNat_bucketRest : bucketRest.toNat = 2 ^ 56 - 1 := by
  decide

/-- A bucket starts at the leading byte of the query. -/
theorem toNat_bucketStart (query : UInt64) :
    (query &&& ~~~bucketRest).toNat = query.toNat / 2 ^ 56 * 2 ^ 56 := by
  -- the mask keeps the leading byte and nothing below it
  have hmask : (~~~bucketRest).toNat = 255 * 2 ^ 56 := by decide
  rw [UInt64.toNat_and, hmask]
  have hlt : query.toNat < 2 ^ 64 := query.toNat_lt
  have hdiv : (query.toNat &&& 255 * 2 ^ 56) / 2 ^ 56 = query.toNat / 2 ^ 56 := by
    rw [Nat.and_div_two_pow, Nat.mul_div_cancel _ (by decide),
      show 255 = 2 ^ 8 - 1 from rfl, Nat.and_two_pow_sub_one_eq_mod]
    omega
  have hmod : (query.toNat &&& 255 * 2 ^ 56) % 2 ^ 56 = 0 := by
    rw [Nat.and_mod_two_pow, Nat.mul_mod_left, Nat.and_zero]
  omega

/-- A bucket ends where the leading byte changes. -/
theorem toNat_bucketEnd (query : UInt64) :
    ((query &&& ~~~bucketRest) ||| bucketRest).toNat
      = query.toNat / 2 ^ 56 * 2 ^ 56 + (2 ^ 56 - 1) := by
  rw [UInt64.toNat_or, toNat_bucketStart, toNat_bucketRest, Nat.mul_comm]
  exact (Nat.two_pow_add_eq_or_of_lt (by decide) _).symm

theorem inBucket_biased {query half : UInt64} :
    inBucket query (biased half) = true ↔ half.toNat / 2 ^ 56 = query.toNat / 2 ^ 56 := by
  show (decide (biased (query &&& ~~~bucketRest) ≤ biased half)
    && decide (biased half ≤ biased ((query &&& ~~~bucketRest) ||| bucketRest))) = true ↔ _
  rw [Bool.and_eq_true, decide_eq_true_eq, decide_eq_true_eq, biased_le_biased, biased_le_biased,
    toNat_bucketStart, toNat_bucketEnd]
  omega

/-! ## §3. Leading places. -/

/-- The leading places of a value, those that a bucket fixes. -/
def leading (x : BitVec 128) : BitVec 8 :=
  x.extractLsb' 120 8

theorem toNat_leading (x : BitVec 128) : (leading x).toNat = x.toNat / 2 ^ 120 := by
  have hlt : x.toNat < 2 ^ 128 := x.isLt
  rw [leading, BitVec.extractLsb'_toNat, Nat.shiftRight_eq_div_pow]
  omega

theorem toNat_high (x : BitVec 128) : (SimHash.ofBits x).high.toNat = x.toNat / 2 ^ 64 := by
  have hlt : x.toNat < 2 ^ 128 := x.isLt
  show (x.extractLsb' 64 64).toNat = _
  rw [BitVec.extractLsb'_toNat, Nat.shiftRight_eq_div_pow]
  omega

/-- A stored value is in the bucket of a query exactly if the two agree on their leading places. -/
theorem inBucket_iff {query stored : BitVec 128} :
    inBucket (SimHash.ofBits query).high (biased (SimHash.ofBits stored).high) = true
      ↔ leading stored = leading query := by
  rw [inBucket_biased, ← BitVec.toNat_inj, toNat_leading, toNat_leading, toNat_high, toNat_high]
  omega

/-- Two values agree on their leading places exactly if they have the same bits there. -/
theorem leading_eq_iff {x y : BitVec 128} :
    leading x = leading y ↔ ∀ i, 120 ≤ i → i < 128 → x.getLsbD i = y.getLsbD i := by
  constructor
  · intro h i hle hlt
    have hbit := congrArg (·.getLsbD (i - 120)) h
    have hsum : 120 + (i - 120) = i := by omega
    simpa [leading, show i - 120 < 8 by omega, hsum] using hbit
  · intro h
    apply BitVec.eq_of_getLsbD_eq
    intro i hi
    simp only [leading, BitVec.getLsbD_extractLsb', hi, decide_true, Bool.true_and]
    exact h (120 + i) (by omega) (by omega)

end Flowprint.Index
