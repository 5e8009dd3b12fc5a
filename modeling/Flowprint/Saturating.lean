/-
  Flowprint.Saturating
  ────────────────────────────────
  Arithmetic on 64-bit words that stops at the ends of the range.

  Main statements:

      toNat_satAdd, toNat_satSub, toNat_satMul   the exact result, cut off at the ends
-/

namespace Flowprint

/-- The word of a number, or the largest word if the number is larger. -/
def clampWord (n : Nat) : UInt64 :=
  if n < UInt64.size then .ofNat n else .ofNat (UInt64.size - 1)

/-- Addition that stops at the largest word. -/
def satAdd (a b : UInt64) : UInt64 :=
  clampWord (a.toNat + b.toNat)

/-- Subtraction that stops at zero. -/
def satSub (a b : UInt64) : UInt64 :=
  clampWord (a.toNat - b.toNat)

/-- Multiplication that stops at the largest word. -/
def satMul (a b : UInt64) : UInt64 :=
  clampWord (a.toNat * b.toNat)

theorem toNat_clampWord (n : Nat) : (clampWord n).toNat = min n (UInt64.size - 1) := by
  unfold clampWord
  split
  next h => rw [UInt64.toNat_ofNat_of_lt' h]; omega
  next h => rw [UInt64.toNat_ofNat_of_lt' (by decide)]; omega

theorem toNat_satAdd (a b : UInt64) :
    (satAdd a b).toNat = min (a.toNat + b.toNat) (UInt64.size - 1) :=
  toNat_clampWord _

theorem toNat_satSub (a b : UInt64) : (satSub a b).toNat = a.toNat - b.toNat := by
  have ha : a.toNat < UInt64.size := a.toNat_lt_size
  rw [satSub, toNat_clampWord]
  omega

theorem toNat_satMul (a b : UInt64) :
    (satMul a b).toNat = min (a.toNat * b.toNat) (UInt64.size - 1) :=
  toNat_clampWord _

end Flowprint
