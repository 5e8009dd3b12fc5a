/-
  Flowprint.Proofs.Decimal.Residue
  ────────────────────────────────
  Mantissas with residual bits, and the numbers that they stand for.

  A number is rounded through a mantissa with two more bits: the first bit behind it, and whether there
  is anything behind that.  The mantissa and the first bit are the number of whole halves, and a shift by
  one bit is a division by two; this is all that has to be known of them.

  Main statements:

      StandsFor.shiftRight         a shift divides the number by a power of two
      StandsFor.roundedMantissa_eq rounding gives the nearest natural number, the even one of two
      standsFor_div                a quotient with its remainder stands for the fraction
-/
import Mathlib.Algebra.Order.Field.Power
import Mathlib.Data.Rat.Cast.Order
import Mathlib.Tactic.FieldSimp
import Mathlib.Tactic.Linarith
import Mathlib.Tactic.NormNum
import Mathlib.Tactic.Positivity
import Mathlib.Tactic.Ring

namespace Flowprint.Decimal

open Float.Model Float.Model.UnpackedFloat

/-! ## §1. Residual bits. -/

/-- The whole halves in a mantissa and its round bit. -/
def halves (em : ExtendedMantissa) : Nat :=
  2 * em.mantissa + em.roundBit.toNat

/-- A mantissa with its residual bits stands for a number: the whole halves of the number are there, and
the sticky bit tells whether it has more than these. -/
structure StandsFor (em : ExtendedMantissa) (u : ℚ) : Prop where
  low : (halves em : ℚ) ≤ 2 * u
  high : 2 * u < halves em + 1
  sticky : em.stickyBit = true ↔ (halves em : ℚ) < 2 * u

theorem halves_shiftRightOne (em : ExtendedMantissa) : halves em.shiftRightOne = em.mantissa := by
  have hparity : (em.mantissa % 2 != 0).toNat = em.mantissa % 2 := by
    rcases Nat.mod_two_eq_zero_or_one em.mantissa with h | h <;> simp [h]
  rw [halves, ExtendedMantissa.shiftRightOne, hparity]
  exact Nat.div_add_mod em.mantissa 2

namespace StandsFor

variable {em : ExtendedMantissa} {u : ℚ}

theorem mantissa_le (h : StandsFor em u) : (em.mantissa : ℚ) ≤ u := by
  have hlow := h.low
  rw [halves] at hlow
  push_cast at hlow
  have hbit : (0 : ℚ) ≤ em.roundBit.toNat := by positivity
  linarith

theorem lt_mantissa_add_one (h : StandsFor em u) : u < em.mantissa + 1 := by
  have hhigh := h.high
  rw [halves] at hhigh
  push_cast at hhigh
  have hbit : (em.roundBit.toNat : ℚ) ≤ 1 := by exact_mod_cast Bool.toNat_le em.roundBit
  linarith

/-- A shift by one bit halves the number. -/
theorem shiftRightOne (h : StandsFor em u) : StandsFor em.shiftRightOne (u / 2) := by
  have hhalf : 2 * (u / 2) = u := by ring
  refine ⟨?_, ?_, ?_⟩
  · rw [halves_shiftRightOne, hhalf]
    exact h.mantissa_le
  · rw [halves_shiftRightOne, hhalf]
    exact h.lt_mantissa_add_one
  · rw [halves_shiftRightOne, hhalf]
    show (em.roundBit || em.stickyBit) = true ↔ _
    rw [Bool.or_eq_true, h.sticky]
    have hlow := h.low
    cases hbit : em.roundBit with
    | true =>
      rw [halves, hbit, Bool.toNat_true] at hlow
      push_cast at hlow
      exact ⟨fun _ => by linarith, fun _ => .inl rfl⟩
    | false =>
      rw [halves, hbit, Bool.toNat_false, Nat.add_zero]
      push_cast
      exact ⟨fun hor => by linarith [hor.resolve_left (by simp)],
        fun hless => .inr (by linarith)⟩

theorem shiftRight (h : StandsFor em u) (n : Nat) : StandsFor (em >>> n) (u / 2 ^ n) := by
  induction n with
  | zero =>
    rw [pow_zero, div_one]
    exact h
  | succ n ih =>
    have hpow : u / 2 ^ (n + 1) = u / 2 ^ n / 2 := by rw [pow_succ, div_div]
    rw [hpow]
    exact ih.shiftRightOne

end StandsFor

/-- A natural number is the nearest to a number, with ties going to the even one. -/
structure Nearest (u : ℚ) (q : Nat) : Prop where
  low : 2 * (q : ℚ) - 1 ≤ 2 * u
  high : 2 * u ≤ 2 * q + 1
  odd : q % 2 = 1 → 2 * (q : ℚ) - 1 < 2 * u ∧ 2 * u < 2 * q + 1

/-- Rounding gives the nearest natural number. -/
theorem StandsFor.roundedMantissa_eq {em : ExtendedMantissa} {u : ℚ} {q : Nat} (h : StandsFor em u)
    (hq : Nearest u q) : em.roundedMantissa = q := by
  obtain ⟨m, r, s⟩ := em
  obtain ⟨hlow, hhigh, hsticky⟩ := h
  obtain ⟨hqlow, hqhigh, hodd⟩ := hq
  simp only [halves] at hlow hhigh hsticky
  cases r with
  | false =>
    rw [Bool.toNat_false, Nat.add_zero] at hlow hhigh hsticky
    push_cast at hlow hhigh hsticky
    -- below the half: nothing is added, whatever the sticky bit is
    have heq : m = q := by
      have hle : m < q + 1 := by
        have : (m : ℚ) < q + 1 := by linarith
        exact_mod_cast this
      have hge : q < m + 1 := by
        have : (q : ℚ) < m + 1 := by linarith
        exact_mod_cast this
      omega
    cases s <;> exact heq
  | true =>
    rw [Bool.toNat_true] at hlow hhigh hsticky
    push_cast at hlow hhigh hsticky
    have hle : m ≤ q := by
      have : (m : ℚ) ≤ q := by linarith
      exact_mod_cast this
    have hge : q < m + 2 := by
      have : (q : ℚ) < m + 2 := by linarith
      exact_mod_cast this
    cases s with
    | false =>
      have hhalf : 2 * u = 2 * m + 1 := by
        have hnot : ¬ (2 * (m : ℚ) + 1 < 2 * u) := fun hless => Bool.false_ne_true (hsticky.mpr hless)
        linarith
      have heven : q % 2 = 0 := by
        refine Nat.mod_two_ne_one.mp fun hq => ?_
        obtain ⟨hless, hmore⟩ := hodd hq
        rw [hhalf] at hless hmore
        have hlt : q < m + 1 := by
          have : (q : ℚ) < m + 1 := by linarith
          exact_mod_cast this
        have hgt : m < q := by
          have : (m : ℚ) < q := by linarith
          exact_mod_cast this
        omega
      show m + m % 2 = q
      omega
    | true =>
      have hmore : m < q := by
        have : (m : ℚ) < q := by linarith [hsticky.mp rfl]
        exact_mod_cast this
      show m + 1 = q
      omega

/-! ## §2. What stands for a number. -/

@[simp] theorem mantissa_ofMantissaAndAccuracy (m : Nat) (accuracy : Accuracy) :
    (ExtendedMantissa.ofMantissaAndAccuracy m accuracy).mantissa = m := by
  cases accuracy with
  | exact => rfl
  | inexact side => cases side <;> rfl

theorem standsFor_exact (m : Nat) : StandsFor (.ofMantissaAndAccuracy m .exact) m := by
  refine ⟨?_, ?_, ?_⟩ <;> simp [halves, ExtendedMantissa.ofMantissaAndAccuracy]

/-- Halves of a fraction are counted in natural numbers. -/
theorem standsFor_fraction {em : ExtendedMantissa} {n d : Nat} (hd : 0 < d)
    (hlow : halves em * d ≤ 2 * n) (hhigh : 2 * n < (halves em + 1) * d)
    (hsticky : em.stickyBit = true ↔ halves em * d < 2 * n) : StandsFor em ((n : ℚ) / d) := by
  have hpos : (0 : ℚ) < d := by exact_mod_cast hd
  have htwo : 2 * ((n : ℚ) / d) = (2 * n : ℕ) / d := by push_cast; ring
  refine ⟨?_, ?_, ?_⟩
  · rw [htwo, le_div_iff₀ hpos]
    exact_mod_cast hlow
  · rw [htwo, div_lt_iff₀ hpos]
    exact_mod_cast hhigh
  · rw [hsticky, htwo, lt_div_iff₀ hpos]
    norm_cast

/-- The residual bits of a remainder: at least one half, and neither nothing nor exactly one half. -/
theorem ofMantissaAndAccuracy_fraction (q : Nat) {r d : Nat} (hd : 0 < d) :
    ExtendedMantissa.ofMantissaAndAccuracy q (accuracyOfFraction r d)
      = ⟨q, decide (d ≤ 2 * r), decide (r ≠ 0 ∧ 2 * r ≠ d)⟩ := by
  by_cases hzero : r = 0
  · subst hzero
    rw [accuracyOfFraction, if_pos rfl, decide_eq_false (by omega), decide_eq_false (by simp)]
    rfl
  · rw [accuracyOfFraction, if_neg hzero]
    rcases Nat.lt_trichotomy (2 * r) d with hlt | heq | hgt
    · rw [Nat.compare_eq_lt.mpr hlt, decide_eq_false (by omega), decide_eq_true (by omega)]
      rfl
    · rw [Nat.compare_eq_eq.mpr heq, decide_eq_true (by omega), decide_eq_false (by omega)]
      rfl
    · rw [Nat.compare_eq_gt.mpr hgt, decide_eq_true (by omega), decide_eq_true (by omega)]
      rfl

/-- A quotient with its remainder stands for the fraction. -/
theorem standsFor_div (n : Nat) {d : Nat} (hd : 0 < d) :
    StandsFor (.ofMantissaAndAccuracy (n / d) (accuracyOfFraction (n % d) d)) ((n : ℚ) / d) := by
  have hsplit := Nat.div_add_mod n d
  have hrest := Nat.mod_lt n hd
  rw [ofMantissaAndAccuracy_fraction _ hd]
  generalize n / d = q at *
  generalize n % d = r at *
  have hhalves : ∀ bit sticky, halves ⟨q, bit, sticky⟩ * d = 2 * (d * q) + bit.toNat * d := by
    intro bit sticky
    rw [halves]
    ring
  by_cases hhalf : d ≤ 2 * r
  · rw [decide_eq_true hhalf]
    refine standsFor_fraction hd ?_ ?_ ?_
    · rw [hhalves, Bool.toNat_true]
      omega
    · rw [Nat.add_mul, hhalves, Bool.toNat_true]
      omega
    · rw [hhalves, Bool.toNat_true, decide_eq_true_eq]
      omega
  · rw [decide_eq_false hhalf]
    refine standsFor_fraction hd ?_ ?_ ?_
    · rw [hhalves, Bool.toNat_false]
      omega
    · rw [Nat.add_mul, hhalves, Bool.toNat_false]
      omega
    · rw [hhalves, Bool.toNat_false, decide_eq_true_eq]
      omega

end Flowprint.Decimal
