/-
  Flowprint.Proofs.Decimal.Rounding
  ────────────────────────────────
  Rounding to the nearest number of the format.

  A magnitude has an interval of numbers that are rounded to it: halfway to the neighbours on either
  side, and below a power of two only half as far, as the grid is finer there.  A mantissa is first
  shifted to the grid that its number of bits asks for.  For a number in the interval this is the grid of
  the magnitude, or the finer one below it; there rounding carries out of the 53 bits, and a second shift
  comes back to the magnitude.

  Main statements:

      targetExponent_le, le_targetExponent     the grid that is chosen goes by the size of the number
      Magnitude.Rounds.target                  on that grid the nearest point is the magnitude
      Magnitude.Rounds.roundWithAccuracy_eq    numbers in the interval are rounded to the magnitude
-/
import Flowprint.Decimal.Shortest
import Flowprint.Proofs.Decimal.Residue

namespace Flowprint.Decimal

open Float.Model Float.Model.UnpackedFloat

/-! ## §1. Numbers and the magnitudes that they are rounded to. -/

/-- A magnitude of the format: 53 bits, the first of them set but at the least exponent. -/
structure Magnitude.Canonical (x : Magnitude) : Prop where
  pos : 0 < x.significand
  lt : x.significand < 2 ^ 53
  low : minExponent ≤ x.exponent
  high : x.exponent ≤ 971
  normal : 2 ^ 52 ≤ x.significand ∨ x.exponent = minExponent

/-- The value of a magnitude. -/
def Magnitude.value (x : Magnitude) : ℚ :=
  x.significand * 2 ^ x.exponent

/-- How many quarters of its unit a magnitude reaches down. -/
def Magnitude.reach (x : Magnitude) : Nat :=
  if x.narrowBelow then 1 else 2

/-- A number is rounded to a magnitude: it lies in the interval of the magnitude. -/
structure Magnitude.Rounds (x : Magnitude) (v : ℚ) : Prop where
  low : (4 * x.significand - x.reach) * 2 ^ (x.exponent - 2) ≤ v
  high : v ≤ (4 * x.significand + 2) * 2 ^ (x.exponent - 2)
  odd : x.significand % 2 = 1 → (4 * x.significand - x.reach) * 2 ^ (x.exponent - 2) < v
    ∧ v < (4 * x.significand + 2) * 2 ^ (x.exponent - 2)

/-- Powers of two in quarters of a unit. -/
theorem zpow_eq_quarters {e k : ℤ} {n : Nat} (h : k = e - 2 + n) :
    (2 : ℚ) ^ k = 2 ^ n * 2 ^ (e - 2) := by
  rw [h, zpow_add₀ (by norm_num), zpow_natCast, mul_comm]

/-- The value of a magnitude in quarters of its unit. -/
theorem Magnitude.value_eq_quarters (x : Magnitude) :
    x.value = 4 * x.significand * 2 ^ (x.exponent - 2) := by
  have hunit : (2 : ℚ) ^ x.exponent = 2 ^ 2 * 2 ^ (x.exponent - 2) := zpow_eq_quarters (by norm_num)
  rw [Magnitude.value, hunit]
  ring

/-- The gap below a power of two is narrow, unless that is the least one. -/
theorem Magnitude.reach_eq (x : Magnitude) :
    x.reach = 2 ∧ ¬ (x.significand = 2 ^ 52 ∧ minExponent < x.exponent)
      ∨ x.reach = 1 ∧ x.significand = 2 ^ 52 ∧ minExponent < x.exponent := by
  have hnarrow : x.narrowBelow = true ↔ x.significand = 2 ^ 52 ∧ minExponent < x.exponent := by
    rw [Magnitude.narrowBelow, Bool.and_eq_true, beq_iff_eq, decide_eq_true_eq]
    rfl
  rw [Magnitude.reach, ← hnarrow]
  split <;> simp_all

/-! ## §2. The exponent that is rounded to. -/

theorem targetExponent_eq (t : ℤ) :
    Format.binary64.targetExponent t = max (t - 53) minExponent := by
  rfl

section Target

variable {m : Nat} {e k : ℤ} {accuracy : Accuracy} {v : ℚ}

/-- What a number below a power of two is rounded to has no greater exponent. -/
theorem targetExponent_le (h : StandsFor (.ofMantissaAndAccuracy m accuracy) (v / 2 ^ e))
    (hfits : e ≤ Format.binary64.targetExponent (totalExponent m e)) (hk : minExponent ≤ k)
    (hv : v < 2 ^ (k + 53)) : Format.binary64.targetExponent (totalExponent m e) ≤ k := by
  rw [targetExponent_eq, totalExponent] at *
  rcases Nat.eq_zero_or_pos m with rfl | hm
  · rw [Nat.log2_zero] at *
    omega
  · have hpos : (0 : ℚ) < 2 ^ e := by positivity
    have hlog : ((2 : ℚ) ^ m.log2) ≤ m := by exact_mod_cast Nat.log2_self_le hm.ne'
    have hle := h.mantissa_le
    rw [mantissa_ofMantissaAndAccuracy, le_div_iff₀ hpos] at hle
    have hless : (2 : ℚ) ^ ((m.log2 : ℤ) + e) < 2 ^ (k + 53) :=
      calc (2 : ℚ) ^ ((m.log2 : ℤ) + e) = 2 ^ m.log2 * 2 ^ e := by
            rw [zpow_add₀ (by norm_num), zpow_natCast]
        _ ≤ m * 2 ^ e := by gcongr
        _ ≤ v := hle
        _ < 2 ^ (k + 53) := hv
    have := (zpow_lt_zpow_iff_right₀ (by norm_num)).mp hless
    omega

/-- What a number above a power of two is rounded to has no smaller exponent. -/
theorem le_targetExponent (h : StandsFor (.ofMantissaAndAccuracy m accuracy) (v / 2 ^ e))
    (hfits : e ≤ Format.binary64.targetExponent (totalExponent m e)) (hv : 2 ^ (k + 52) ≤ v) :
    k ≤ Format.binary64.targetExponent (totalExponent m e) := by
  have hpos : (0 : ℚ) < 2 ^ e := by positivity
  have hlt := h.lt_mantissa_add_one
  rw [mantissa_ofMantissaAndAccuracy, div_lt_iff₀ hpos] at hlt
  rw [targetExponent_eq, totalExponent] at *
  rcases Nat.eq_zero_or_pos m with rfl | hm
  · rw [Nat.log2_zero] at *
    rw [Nat.cast_zero, zero_add, one_mul] at hlt
    have := (zpow_lt_zpow_iff_right₀ (by norm_num)).mp (hv.trans_lt hlt)
    omega
  · have hlog : (m : ℚ) + 1 ≤ 2 ^ (m.log2 + 1) := by exact_mod_cast Nat.lt_log2_self
    have hless : (2 : ℚ) ^ (k + 52) < 2 ^ ((m.log2 : ℤ) + 1 + e) :=
      calc (2 : ℚ) ^ (k + 52) ≤ v := hv
        _ < (m + 1) * 2 ^ e := hlt
        _ ≤ 2 ^ (m.log2 + 1) * 2 ^ e := by gcongr
        _ = 2 ^ ((m.log2 : ℤ) + 1 + e) := by
            rw [zpow_add₀ (by norm_num), ← zpow_natCast, Nat.cast_add, Nat.cast_one]
    have := (zpow_lt_zpow_iff_right₀ (by norm_num)).mp hless
    omega

/-- The first shift goes to the exponent that is rounded to. -/
theorem shiftToTargetExponent_eq
    (hfits : e ≤ Format.binary64.targetExponent (totalExponent m e)) :
    let target := Format.binary64.targetExponent (totalExponent m e)
    shiftToTargetExponent Format.binary64 m e accuracy
      = (ExtendedMantissa.ofMantissaAndAccuracy m accuracy >>> (target - e).toNat, target) := by
  intro target
  have hsum : e + ((target - e).toNat : ℤ) = target := by
    rw [Int.toNat_of_nonneg (by omega)]
    omega
  rw [shiftToTargetExponent, shiftToExponent, hsum]

/-- What is shifted stands for the number in units of that exponent. -/
theorem StandsFor.shifted (h : StandsFor (.ofMantissaAndAccuracy m accuracy) (v / 2 ^ e)) {t : ℤ}
    (ht : e ≤ t) :
    StandsFor (ExtendedMantissa.ofMantissaAndAccuracy m accuracy >>> (t - e).toNat) (v / 2 ^ t) := by
  have hunits : v / 2 ^ t = v / 2 ^ e / 2 ^ (t - e).toNat := by
    rw [div_div, ← zpow_natCast, ← zpow_add₀ (by norm_num), Int.toNat_of_nonneg (by omega)]
    congr 2
    omega
  rw [hunits]
  exact h.shiftRight _

end Target

/-! ## §3. Rounding. -/

section Round

variable {x : Magnitude}

theorem Magnitude.Canonical.log2 (hx : x.Canonical) :
    x.significand.log2 ≤ 52 ∧ (x.significand.log2 = 52 ∨ x.exponent = minExponent) := by
  have hlt : x.significand.log2 < 53 := (Nat.log2_lt hx.pos.ne').mpr hx.lt
  refine ⟨by omega, hx.normal.imp_left fun hnormal => ?_⟩
  have hge := (Nat.le_log2 hx.pos.ne').mpr hnormal
  omega

/-- A magnitude of the format stays as it is. -/
theorem shiftToTargetExponent_canonical (hx : x.Canonical) :
    shiftToTargetExponent Format.binary64 x.significand x.exponent .exact
      = (⟨x.significand, false, false⟩, x.exponent) := by
  have htarget : Format.binary64.targetExponent (totalExponent x.significand x.exponent)
      = x.exponent := by
    have hlog := hx.log2
    have hlow := hx.low
    rw [targetExponent_eq, totalExponent]
    omega
  rw [shiftToTargetExponent_eq htarget.ge, htarget, Int.sub_self]
  rfl

/-- A carry out of the 53 bits is shifted back into them. -/
theorem shiftToTargetExponent_carry {e : ℤ} (he : minExponent ≤ e) :
    shiftToTargetExponent Format.binary64 (2 ^ 53) e .exact = (⟨2 ^ 52, false, false⟩, e + 1) := by
  have htarget : Format.binary64.targetExponent (totalExponent (2 ^ 53) e) = e + 1 := by
    rw [targetExponent_eq, totalExponent, Nat.log2_two_pow]
    omega
  have hone : (e + 1 - e).toNat = 1 := by omega
  rw [shiftToTargetExponent_eq (by omega), htarget, hone]
  rfl

/-- The interval of a magnitude in its units. -/
theorem Magnitude.Rounds.scaled {v : ℚ} (hv : x.Rounds v) :
    4 * (x.significand : ℚ) - x.reach ≤ 4 * (v / 2 ^ x.exponent)
      ∧ 4 * (v / 2 ^ x.exponent) ≤ 4 * x.significand + 2
      ∧ (x.significand % 2 = 1 → 4 * (x.significand : ℚ) - x.reach < 4 * (v / 2 ^ x.exponent)
        ∧ 4 * (v / 2 ^ x.exponent) < 4 * x.significand + 2) := by
  obtain ⟨hlow, hhigh, hodd⟩ := hv
  have hpos : (0 : ℚ) < 2 ^ (x.exponent - 2) := by positivity
  have hscale : v = 4 * (v / 2 ^ x.exponent) * 2 ^ (x.exponent - 2) := by
    have hunit : (2 : ℚ) ^ x.exponent = 2 ^ 2 * 2 ^ (x.exponent - 2) := zpow_eq_quarters (by norm_num)
    rw [hunit]
    field_simp
    norm_num
  rw [hscale] at hlow hhigh hodd
  refine ⟨le_of_mul_le_mul_right hlow hpos, le_of_mul_le_mul_right hhigh hpos, fun h => ?_⟩
  exact ⟨lt_of_mul_lt_mul_right (hodd h).1 hpos.le, lt_of_mul_lt_mul_right (hodd h).2 hpos.le⟩

/-- A magnitude of which the significand is the nearest natural number in its units. -/
theorem Magnitude.Rounds.nearest {v : ℚ} (hv : x.Rounds v)
    (hside : x.reach = 2 ∨ (x.significand : ℚ) ≤ v / 2 ^ x.exponent) :
    Nearest (v / 2 ^ x.exponent) x.significand := by
  obtain ⟨hlow, hhigh, hodd⟩ := hv.scaled
  rcases hside with hreach | hside
  · rw [hreach] at hlow hodd
    push_cast at hlow hodd
    exact ⟨by linarith, by linarith, fun h => ⟨by linarith [(hodd h).1], by linarith [(hodd h).2]⟩⟩
  · exact ⟨by linarith, by linarith, fun h => ⟨by linarith, by linarith [(hodd h).2]⟩⟩

theorem Magnitude.Rounds.lt_zpow (hx : x.Canonical) {v : ℚ} (hv : x.Rounds v) :
    v < 2 ^ (x.exponent + 53) := by
  have hpos : (0 : ℚ) < 2 ^ x.exponent := by positivity
  have hlt : (x.significand : ℚ) + 1 ≤ 2 ^ 53 := by exact_mod_cast hx.lt
  have hhigh := hv.scaled.2.1
  rw [zpow_add₀ (by norm_num), mul_comm, ← div_lt_iff₀ hpos]
  norm_num at *
  linarith

/-- A normal magnitude is rounded to from numbers with as many bits, but for those just below a power
of two. -/
theorem Magnitude.Rounds.zpow_le (hx : x.Canonical) {v : ℚ} (hv : x.Rounds v)
    (hside : x.reach = 2 ∨ (x.significand : ℚ) ≤ v / 2 ^ x.exponent)
    (hexponent : x.exponent ≠ minExponent) : 2 ^ (x.exponent + 52) ≤ v := by
  have hpos : (0 : ℚ) < 2 ^ x.exponent := by positivity
  have hmin : minExponent < x.exponent := lt_of_le_of_ne hx.low (Ne.symm hexponent)
  have hnormal : (2 : ℚ) ^ 52 ≤ x.significand := by
    exact_mod_cast hx.normal.resolve_right hexponent
  rw [zpow_add₀ (by norm_num), mul_comm, ← le_div_iff₀ hpos]
  rcases hside with hreach | hside
  · have hbits := hx.normal.resolve_right hexponent
    have hmore : 2 ^ 52 + 1 ≤ x.significand := by
      rcases x.reach_eq with ⟨-, hnot⟩ | ⟨hone, -⟩
      · exact lt_of_le_of_ne hbits fun heq => hnot ⟨heq.symm, hmin⟩
      · rw [hone] at hreach
        exact absurd hreach (by decide)
    have hlow := hv.scaled.1
    have hcast : (2 : ℚ) ^ 52 + 1 ≤ x.significand := by exact_mod_cast hmore
    rw [hreach] at hlow
    push_cast at hlow
    linarith
  · linarith

/-- Just below a power of two a number stands on the finer grid, where it is nearest to the carry out of
the 53 bits. -/
theorem Magnitude.Rounds.below {v : ℚ} (hv : x.Rounds v)
    (hside : ¬ (x.reach = 2 ∨ (x.significand : ℚ) ≤ v / 2 ^ x.exponent)) :
    x.significand = 2 ^ 52 ∧ minExponent < x.exponent
      ∧ 2 ^ (x.exponent - 1 + 52) ≤ v ∧ v < 2 ^ (x.exponent - 1 + 53)
      ∧ Nearest (v / 2 ^ (x.exponent - 1)) (2 ^ 53) := by
  rw [not_or, not_le] at hside
  obtain ⟨hreach, hless⟩ := hside
  obtain ⟨hone, hpower, hexponent⟩ := x.reach_eq.resolve_left fun h => hreach h.1
  have hpos : (0 : ℚ) < 2 ^ (x.exponent - 1) := by positivity
  have hhalf : v / 2 ^ x.exponent = v / 2 ^ (x.exponent - 1) / 2 := by
    rw [div_div, ← zpow_add_one₀ (by norm_num), Int.sub_add_cancel]
  have hlow := hv.scaled.1
  rw [hhalf, hpower] at hless hlow
  rw [hone] at hlow
  push_cast at hless hlow
  refine ⟨hpower, hexponent, ?_, ?_, ⟨?_, ?_, fun hodd => absurd hodd (by decide)⟩⟩
  · rw [zpow_add₀ (by norm_num), mul_comm, ← le_div_iff₀ hpos, zpow_ofNat]
    linarith
  · rw [zpow_add₀ (by norm_num), mul_comm, ← div_lt_iff₀ hpos, zpow_ofNat]
    linarith
  · push_cast
    linarith
  · push_cast
    linarith

variable {m : Nat} {e : ℤ} {accuracy : Accuracy} {v : ℚ}

/-- On the grid that a number is rounded to, the nearest point is the magnitude that it is rounded to, or
the carry out of the 53 bits just below it. -/
theorem Magnitude.Rounds.target (hx : x.Canonical) (hv : x.Rounds v)
    (h : StandsFor (.ofMantissaAndAccuracy m accuracy) (v / 2 ^ e))
    (hfits : e ≤ Format.binary64.targetExponent (totalExponent m e)) :
    let target := Format.binary64.targetExponent (totalExponent m e)
    target = x.exponent ∧ Nearest (v / 2 ^ target) x.significand
      ∨ target + 1 = x.exponent ∧ x.significand = 2 ^ 52 ∧ minExponent ≤ target
        ∧ Nearest (v / 2 ^ target) (2 ^ 53) := by
  intro target
  have hmin : minExponent ≤ target := le_max_right _ _
  by_cases hside : x.reach = 2 ∨ (x.significand : ℚ) ≤ v / 2 ^ x.exponent
  · have hle : target ≤ x.exponent := targetExponent_le h hfits hx.low (hv.lt_zpow hx)
    have hge : x.exponent ≤ target := by
      by_cases hexponent : x.exponent = minExponent
      · rw [hexponent]
        exact hmin
      · exact le_targetExponent h hfits (hv.zpow_le hx hside hexponent)
    have heq : target = x.exponent := le_antisymm hle hge
    refine .inl ⟨heq, ?_⟩
    rw [heq]
    exact hv.nearest hside
  · obtain ⟨hpower, hexponent, hlow, hhigh, hnearest⟩ := hv.below hside
    have hle : target ≤ x.exponent - 1 := targetExponent_le h hfits (by omega) hhigh
    have heq : target = x.exponent - 1 := le_antisymm hle (le_targetExponent h hfits hlow)
    refine .inr ⟨by omega, hpower, hmin, ?_⟩
    rw [heq]
    exact hnearest

theorem finite_congr {sign : Sign} {m n : Nat} {e f : ℤ} {hm : 0 < m} {hn : 0 < n} (h : m = n)
    (he : e = f) : UnpackedFloat.finite sign m e hm = .finite sign n f hn := by
  subst h he
  rfl

/-- Rounding gives the magnitude that a number is rounded to. -/
theorem Magnitude.Rounds.roundWithAccuracy_eq (hx : x.Canonical) (hv : x.Rounds v)
    (h : StandsFor (.ofMantissaAndAccuracy m accuracy) (v / 2 ^ e))
    (hfits : e ≤ Format.binary64.targetExponent (totalExponent m e)) (sign : Sign) :
    roundWithAccuracy Format.binary64 sign m e accuracy
      = .finite sign x.significand x.exponent hx.pos := by
  have hshifted := h.shifted hfits
  have hpos : x.significand ≠ 0 := hx.pos.ne'
  rw [roundWithAccuracy, shiftToTargetExponent_eq hfits]
  dsimp only
  rcases hv.target hx h hfits with ⟨heq, hnearest⟩ | ⟨heq, hpower, hmin, hnearest⟩
  · rw [hshifted.roundedMantissa_eq hnearest, heq, shiftToTargetExponent_canonical hx]
    exact dif_neg hpos
  · rw [hshifted.roundedMantissa_eq hnearest, shiftToTargetExponent_carry hmin, heq]
    have hcarry : ¬ 2 ^ 52 = 0 := by decide
    exact (dif_neg hcarry).trans (finite_congr hpower.symm rfl)

end Round

end Flowprint.Decimal
