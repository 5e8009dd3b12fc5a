/-
  Flowprint.Proofs.Decimal.Interval
  ────────────────────────────────
  The shortest decimal of a magnitude is rounded to the magnitude.

  The search compares fractions of natural numbers with the ends of the interval.  It finds a point at
  the grid with seventeen digits at the latest: there a unit is less than a 10¹⁶-th of the magnitude, so
  that half of it stays inside the interval.

  Main statements:

      rounds_of_reads     what the search takes for a point of the interval is one
      rounds_seventeen    the nearest point with seventeen digits is one
      exists_shortest     the shortest decimal is one
-/
import Flowprint.Proofs.Decimal.Nearest

namespace Flowprint.Decimal

/-! ## §1. Fractions. -/

/-- The value of a fraction. -/
def Fraction.value (y : Fraction) : ℚ :=
  y.num / y.den

section Fractions

variable {y : Fraction}

theorem den_ofBinary (n : Nat) (e : ℤ) : 0 < (Fraction.ofBinary n e).den := by
  cases e with
  | ofNat e => exact Nat.one_pos
  | negSucc e =>
    show 0 < 1 <<< (e + 1)
    rw [Nat.shiftLeft_eq]
    positivity

theorem value_ofBinary (n : Nat) (e : ℤ) : (Fraction.ofBinary n e).value = n * 2 ^ e := by
  cases e with
  | ofNat e =>
    show ((n <<< e : ℕ) : ℚ) / (1 : ℕ) = n * 2 ^ (e : ℤ)
    rw [Nat.shiftLeft_eq, zpow_natCast]
    push_cast
    rw [div_one]
  | negSucc e =>
    show (n : ℚ) / ((1 <<< (e + 1) : ℕ) : ℚ) = n * 2 ^ Int.negSucc e
    rw [Nat.shiftLeft_eq, zpow_negSucc, one_mul]
    push_cast
    rw [div_eq_mul_inv]

theorem den_inUnits (h : 0 < y.den) (p : ℤ) : 0 < (y.inUnits p).den := by
  cases p with
  | ofNat p => exact Nat.mul_pos h (Nat.pow_pos (by decide))
  | negSucc p => exact h

theorem value_inUnits (y : Fraction) (p : ℤ) : (y.inUnits p).value = y.value / 10 ^ p := by
  cases p with
  | ofNat p =>
    show (y.num : ℚ) / ((y.den * 10 ^ p : ℕ) : ℚ) = y.num / y.den / 10 ^ (p : ℤ)
    rw [zpow_natCast, div_div]
    push_cast
    rfl
  | negSucc p =>
    show ((y.num * 10 ^ (p + 1) : ℕ) : ℚ) / y.den = y.num / y.den / 10 ^ Int.negSucc p
    rw [zpow_negSucc, div_inv_eq_mul, div_mul_eq_mul_div]
    push_cast
    rfl

/-- A fraction is compared with a number of units. -/
theorem value_inUnits_le (h : 0 < y.den) (p : ℤ) (n : Nat) :
    (y.inUnits p).num ≤ n * (y.inUnits p).den ↔ y.value ≤ n * 10 ^ p := by
  have hden : (0 : ℚ) < (y.inUnits p).den := by exact_mod_cast den_inUnits h p
  have hpow : (0 : ℚ) < 10 ^ p := by positivity
  rw [← div_le_iff₀ hpow, ← value_inUnits, Fraction.value, div_le_iff₀ hden]
  norm_cast

theorem le_value_inUnits (h : 0 < y.den) (p : ℤ) (n : Nat) :
    n * (y.inUnits p).den ≤ (y.inUnits p).num ↔ n * 10 ^ p ≤ y.value := by
  have hden : (0 : ℚ) < (y.inUnits p).den := by exact_mod_cast den_inUnits h p
  have hpow : (0 : ℚ) < 10 ^ p := by positivity
  rw [← le_div_iff₀ hpow, ← value_inUnits, Fraction.value, le_div_iff₀ hden]
  norm_cast

end Fractions

/-! ## §2. The interval. -/

section Interval

variable {x : Magnitude}

theorem value_lowerEnd (hx : x.Canonical) :
    x.lowerEnd.value = (4 * x.significand - x.reach) * 2 ^ (x.exponent - 2) := by
  have hpos := hx.pos
  have hle : x.reach ≤ 4 * x.significand := by
    rcases x.reach_eq with h | h <;> rw [h.1] <;> omega
  show (Fraction.ofBinary (4 * x.significand - x.reach) _).value = _
  rw [value_ofBinary]
  push_cast [hle]
  rfl

theorem value_upperEnd (x : Magnitude) :
    x.upperEnd.value = (4 * x.significand + 2) * 2 ^ (x.exponent - 2) := by
  rw [Magnitude.upperEnd, value_ofBinary]
  push_cast
  rfl

/-- What lies in the interval of a magnitude is rounded to it. -/
theorem rounds_of_reads (hx : x.Canonical) {p : ℤ} {n : Nat} (h : x.reads p n = true) :
    x.Rounds (n * 10 ^ p) := by
  have hlow : 0 < x.lowerEnd.den := den_ofBinary ..
  have hhigh : 0 < x.upperEnd.den := den_ofBinary ..
  rw [Magnitude.reads] at h
  split at h
  next heven =>
    rw [Bool.and_eq_true, decide_eq_true_eq, decide_eq_true_eq, value_inUnits_le hlow,
      le_value_inUnits hhigh, value_lowerEnd hx, value_upperEnd] at h
    exact ⟨h.1, h.2, fun hodd => by omega⟩
  next hodd =>
    rw [Bool.and_eq_true, decide_eq_true_eq, decide_eq_true_eq, ← not_le, ← not_le,
      le_value_inUnits hlow, value_inUnits_le hhigh, not_le, not_le, value_lowerEnd hx,
      value_upperEnd] at h
    exact ⟨h.1.le, h.2.le, fun _ => h⟩

end Interval

/-! ## §3. The last grid. -/

section LastGrid

variable {y : Fraction}

theorem of_roundsUp {tie : Tie} {low : Nat} :
    (roundsUp tie low y = true → (2 * low + 1) * y.den ≤ 2 * y.num)
      ∧ (roundsUp tie low y = false → 2 * y.num ≤ (2 * low + 1) * y.den) := by
  unfold roundsUp
  split
  next h => exact ⟨fun h => absurd h Bool.false_ne_true, fun _ => (Nat.compare_eq_lt.mp h).le⟩
  next h => exact ⟨fun _ => (Nat.compare_eq_gt.mp h).le, fun h => absurd h.symm Bool.false_ne_true⟩
  next h => exact ⟨fun _ => (Nat.compare_eq_eq.mp h).ge, fun _ => (Nat.compare_eq_eq.mp h).le⟩

/-- The integer nearest to a fraction is half of one away at most. -/
theorem abs_sub_roundQuotient (tie : Tie) (h : 0 < y.den) :
    |y.value - roundQuotient tie y| ≤ 1 / 2 := by
  have hden : (0 : ℚ) < y.den := by exact_mod_cast h
  have hbounds : 2 * y.num ≤ (2 * roundQuotient tie y + 1) * y.den
      ∧ 2 * (roundQuotient tie y * y.den) ≤ 2 * y.num + y.den := by
    have hsplit := Nat.div_add_mod' y.num y.den
    have hrest := Nat.mod_lt y.num h
    obtain ⟨hup, hdown⟩ := @of_roundsUp y tie (y.num / y.den)
    rw [roundQuotient]
    simp only [Nat.add_mul, Nat.mul_assoc, Nat.one_mul] at hup hdown ⊢
    split
    next hgreater =>
      have := hup hgreater
      simp only [Nat.add_mul, Nat.one_mul]
      omega
    next hless =>
      have := hdown (Bool.eq_false_iff.mpr hless)
      omega
  have hle : 2 * (y.num : ℚ) ≤ (2 * roundQuotient tie y + 1) * y.den := by exact_mod_cast hbounds.1
  have hge : 2 * ((roundQuotient tie y : ℚ) * y.den) ≤ 2 * y.num + y.den := by
    exact_mod_cast hbounds.2
  have hnum : (y.num : ℚ) = y.value * y.den := (div_mul_cancel₀ _ hden.ne').symm
  rw [hnum] at hle hge
  rw [abs_le]
  constructor
  · refine le_of_mul_le_mul_right ?_ hden
    linarith
  · refine le_of_mul_le_mul_right ?_ hden
    linarith

/-- A fraction is not less than the power of ten in front of its point. -/
theorem zpow_pointOf_le (hnum : 0 < y.num) (hden : 0 < y.den) :
    (10 : ℚ) ^ (y.pointOf - 1) ≤ y.value := by
  have hpos : (0 : ℚ) < y.den := by exact_mod_cast hden
  unfold Fraction.pointOf
  split
  next hle =>
    have hlow := (pow_length_toDigits (Nat.div_pos hle hden)).1
    have hdigits : 0 < (Nat.toDigits 10 (y.num / y.den)).length := Nat.length_toDigits_pos
    have hexponent : ((Nat.toDigits 10 (y.num / y.den)).length : ℤ) - 1
        = ((Nat.toDigits 10 (y.num / y.den)).length - 1 : ℕ) := by omega
    rw [hexponent, zpow_natCast]
    calc (10 : ℚ) ^ ((Nat.toDigits 10 (y.num / y.den)).length - 1) ≤ (y.num / y.den : ℕ) := by
          exact_mod_cast hlow
      _ ≤ y.num / y.den :=
          (le_div_iff₀ hpos).mpr (by exact_mod_cast Nat.div_mul_le_self y.num y.den)
  next hlt =>
    have hhigh := (pow_length_toDigits (Nat.div_pos (not_le.mp hlt).le hnum)).2
    have hexponent : 1 - ((Nat.toDigits 10 (y.den / y.num)).length : ℤ) - 1
        = -((Nat.toDigits 10 (y.den / y.num)).length : ℤ) := by omega
    have hmul : y.den ≤ 10 ^ (Nat.toDigits 10 (y.den / y.num)).length * y.num := by
      have hbelow : y.den < (y.den / y.num + 1) * y.num :=
        Nat.lt_mul_of_div_lt (Nat.lt_succ_self _) hnum
      exact hbelow.le.trans (Nat.mul_le_mul_right _ hhigh)
    rw [hexponent, zpow_neg, zpow_natCast, Fraction.value, inv_le_iff_one_le_mul₀' (by positivity),
      mul_div_assoc', le_div_iff₀ hpos, one_mul]
    exact_mod_cast hmul

end LastGrid

/-! ## §4. The shortest decimal. -/

section Shortest

variable {x : Magnitude}

theorem den_toFraction (x : Magnitude) : 0 < x.toFraction.den :=
  den_ofBinary ..

theorem value_toFraction (x : Magnitude) : x.toFraction.value = x.value :=
  value_ofBinary ..

theorem num_toFraction (hx : x.Canonical) : 0 < x.toFraction.num := by
  have hpos := hx.pos
  unfold Magnitude.toFraction Fraction.ofBinary
  split
  · rw [Nat.shiftLeft_eq]
    positivity
  · exact hpos

/-- On the grid with seventeen digits, the point nearest to a magnitude is rounded to it. -/
theorem rounds_seventeen (hx : x.Canonical) (tie : Tie) :
    let p := x.toFraction.pointOf - 17
    x.Rounds (roundQuotient tie (x.toFraction.inUnits p) * 10 ^ p) := by
  intro p
  have hten : (0 : ℚ) < 10 ^ p := by positivity
  have hquarter : (0 : ℚ) < 2 ^ (x.exponent - 2) := by positivity
  have hunit : (10 : ℚ) ^ p * 10 ^ 16 ≤ x.value := by
    have hpoint := zpow_pointOf_le (num_toFraction hx) (den_toFraction x)
    have hexponent : x.toFraction.pointOf - 1 = p + (16 : ℕ) := by
      show _ = x.toFraction.pointOf - 17 + ((16 : ℕ) : ℤ)
      omega
    rwa [value_toFraction, hexponent, zpow_add₀ (by norm_num), zpow_natCast] at hpoint
  -- a unit is so small that half of it stays inside the interval
  have hsmall : 2 * (x.significand : ℚ) < x.reach * 10 ^ 16 := by
    rcases x.reach_eq with ⟨hreach, -⟩ | ⟨hreach, hpower, -⟩
    · have hlt : (x.significand : ℚ) < 2 ^ 53 := by exact_mod_cast hx.lt
      rw [hreach]
      push_cast
      linarith
    · rw [hreach, hpower]
      norm_num
  have hhalf : 10 ^ p < 2 * (x.reach * (2 : ℚ) ^ (x.exponent - 2)) := by
    rw [x.value_eq_quarters] at hunit
    have hless := mul_lt_mul_of_pos_right hsmall hquarter
    refine lt_of_mul_lt_mul_right ?_ (show (0 : ℚ) ≤ 10 ^ 16 by positivity)
    linarith
  have hreach : x.reach * (2 : ℚ) ^ (x.exponent - 2) ≤ 2 * 2 ^ (x.exponent - 2) := by
    refine mul_le_mul_of_nonneg_right ?_ hquarter.le
    rcases x.reach_eq with h | h <;> rw [h.1] <;> norm_num
  have hnear := abs_le.mp (abs_sub_roundQuotient tie (den_inUnits (den_toFraction x) p))
  rw [value_inUnits, value_toFraction] at hnear
  generalize (roundQuotient tie (x.toFraction.inUnits p) : ℚ) = n at *
  have hvalue : x.value = x.value / 10 ^ p * 10 ^ p := (div_mul_cancel₀ _ hten.ne').symm
  have hlow : (4 * x.significand - x.reach) * 2 ^ (x.exponent - 2) < n * 10 ^ p := by
    have := mul_le_mul_of_nonneg_right hnear.2 hten.le
    rw [sub_mul, ← hvalue, x.value_eq_quarters] at this
    linarith
  have hhigh : n * 10 ^ p < (4 * x.significand + 2) * 2 ^ (x.exponent - 2) := by
    have := mul_le_mul_of_nonneg_right hnear.1 hten.le
    rw [sub_mul, ← hvalue, x.value_eq_quarters] at this
    linarith
  exact ⟨hlow.le, hhigh.le, fun _ => ⟨hlow, hhigh⟩⟩

/-- The shortest decimal of a magnitude is rounded to it. -/
theorem exists_shortest (hx : x.Canonical) (tie : Tie) :
    ∃ n p, x.shortest tie = .ofNat n p ∧ x.Rounds (n * 10 ^ p) := by
  unfold Magnitude.shortest
  dsimp only
  split
  next decimal hfound =>
    obtain ⟨p, -, hgrid⟩ := List.exists_of_findSome?_eq_some hfound
    obtain ⟨n, hpick, rfl⟩ := Option.map_eq_some_iff.mp hgrid
    exact ⟨n, p, rfl, rounds_of_reads hx (pick?_reads hpick)⟩
  next => exact ⟨_, _, rfl, rounds_seventeen hx tie⟩

end Shortest

end Flowprint.Decimal
