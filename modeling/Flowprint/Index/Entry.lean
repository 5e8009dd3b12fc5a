/-
  Flowprint.Index.Entry
  ────────────────────────────────
  What an index keeps: records of functions, and for each record one entry per permutation that
  files the record under its permuted hash.

  The tables of an index file hold signed words.  A half of a permuted hash is stored with its top
  bit flipped, so that signed order of the stored halves is unsigned order of the halves; the
  entries are kept in that order.

  Main statements:

      unbiased_biased, biased_unbiased   the stored form loses nothing
      Key.cmp_eq_eq                      keys compare equal only if they are
-/
import Flowprint.Graph.Basic
import Flowprint.SimHash

namespace Flowprint.Index

open Std

/-- The number of a record, in the order of insertion. -/
abbrev RecordId := Int

/-- A function in the index. -/
structure Record where
  hash : SimHash
  /-- The executable that the function comes from. -/
  executable : UInt64
  address : Address
  deriving Repr, DecidableEq

/-! ## §1. Stored halves. -/

/-- A word with its top bit flipped, as a signed word. -/
def biased (half : UInt64) : Int64 :=
  (half ^^^ 0x8000000000000000).toInt64

/-- The word that is stored as a signed word. -/
def unbiased (stored : Int64) : UInt64 :=
  stored.toUInt64 ^^^ 0x8000000000000000

@[simp] theorem unbiased_biased (half : UInt64) : unbiased (biased half) = half := by
  rw [unbiased, biased, UInt64.toUInt64_toInt64, UInt64.xor_assoc, UInt64.xor_self,
    UInt64.xor_zero]

@[simp] theorem biased_unbiased (stored : Int64) : biased (unbiased stored) = stored := by
  rw [unbiased, biased, UInt64.xor_assoc, UInt64.xor_self, UInt64.xor_zero,
    Int64.toInt64_toUInt64]

/-! ## §2. Entries. -/

/-- An entry as it is stored and ordered. -/
structure Key where
  permutation : Nat
  high : Int64
  low : Int64
  record : RecordId
  deriving Repr, DecidableEq

namespace Key

/-- Keys in the order of their permutations, then of the stored halves, then of their records. -/
def cmp : Key → Key → Ordering :=
  compareLex (compareOn Key.permutation)
    (compareLex (compareOn Key.high) (compareLex (compareOn Key.low) (compareOn Key.record)))

instance : Ord Key := ⟨cmp⟩

instance : TransOrd Key :=
  inferInstanceAs (TransCmp (compareLex (compareOn Key.permutation)
    (compareLex (compareOn Key.high) (compareLex (compareOn Key.low) (compareOn Key.record)))))

theorem cmp_eq_eq {a b : Key} : cmp a b = .eq ↔ a = b := by
  obtain ⟨p, h, l, r⟩ := a
  obtain ⟨p', h', l', r'⟩ := b
  simp only [cmp, compareLex, Ordering.then_eq_eq, Key.mk.injEq]
  simp only [compareOn, Std.compare_eq_iff_eq]

instance : LawfulEqOrd Key where
  eq_of_compare h := cmp_eq_eq.mp h

/-- The key of a record under a permuted hash. -/
def of (permutation : Nat) (permuted : SimHash) (record : RecordId) : Key :=
  ⟨permutation, biased permuted.high, biased permuted.low, record⟩

/-- The permuted hash of a key. -/
def permuted (key : Key) : SimHash :=
  ⟨unbiased key.high, unbiased key.low⟩

@[simp] theorem permuted_of (permutation : Nat) (permuted : SimHash) (record : RecordId) :
    (of permutation permuted record).permuted = permuted := by
  simp only [of, Key.permuted, unbiased_biased]

end Key

/-- An entry as it is listed. -/
structure Entry where
  permutation : UInt32
  permuted : SimHash
  record : RecordId
  deriving Repr, DecidableEq

/-- The entry of a key. -/
def Key.entry (key : Key) : Entry :=
  ⟨.ofNat key.permutation, key.permuted, key.record⟩

end Flowprint.Index
