/-
  Flowprint.Proofs.Decimal.Arithmetic
  ────────────────────────────────
  Products and quotients of numbers, rounded once.

  A product and a quotient are rounded to a magnitude if their exact values are.  Natural numbers with
  53 bits at most and the powers of ten of the table are exact.

  Main statements:

      round_eq            what has the value of a magnitude is rounded to it
      mul_eq              a product is rounded to the magnitude of its exact value
      div_eq              a quotient is rounded to the magnitude of its exact value
      unpack_natCast      a natural number with 53 bits is exact
      eq_of_isPowerOfTen  so are the powers of ten in the table
-/
import Flowprint.Proofs.Decimal.Packing

namespace Flowprint.Decimal

open Float.Model Float.Model.UnpackedFloat

/-! ## §1. Products and quotients. -/

section Arithmetic

variable {x : Magnitude}

/-- A magnitude is rounded to itself. -/
theorem rounds_value (x : Magnitude) : x.Rounds x.value := by
  have hpos : (0 : ℚ) < 2 ^ (x.exponent - 2) := by positivity
  have hreach : (0 : ℚ) < x.reach := by
    rcases x.reach_eq with h | h <;> rw [h.1] <;> norm_num
  have hlow : (4 * x.significand - x.reach) * 2 ^ (x.exponent - 2) < x.value := by
    rw [x.value_eq_quarters]
    exact mul_lt_mul_of_pos_right (by linarith) hpos
  have hhigh : x.value < (4 * x.significand + 2) * 2 ^ (x.exponent - 2) := by
    rw [x.value_eq_quarters]
    exact mul_lt_mul_of_pos_right (by linarith) hpos
  exact ⟨hlow.le, hhigh.le, fun _ => ⟨hlow, hhigh⟩⟩

/-- A mantissa with enough bits fits the format. -/
theorem fits_of_le {m : Nat} (h : 2 ^ 52 ≤ m) (e : ℤ) :
    e ≤ Format.binary64.targetExponent (totalExponent m e) := by
  have hpos : m ≠ 0 := by omega
  have hlog := (Nat.le_log2 hpos).mpr h
  rw [targetExponent_eq, totalExponent]
  omega

/-- What has a mantissa with enough bits is rounded. -/
theorem roundWithAccuracy_exact (hx : x.Canonical) {m : Nat} {e : ℤ} (hv : x.Rounds (m * 2 ^ e))
    (hbits : 2 ^ 52 ≤ m) :
    roundWithAccuracy Format.binary64 .positive m e .exact
      = .finite .positive x.significand x.exponent hx.pos := by
  have hpos : (2 : ℚ) ^ e ≠ 0 := by positivity
  refine hv.roundWithAccuracy_eq hx ?_ (fits_of_le hbits e) .positive
  rw [mul_div_cancel_right₀ _ hpos]
  exact standsFor_exact m

theorem log2_shiftLeft {m : Nat} (h : 0 < m) (n : Nat) : (m <<< n).log2 = m.log2 + n := by
  have hpos : m <<< n ≠ 0 := by
    rw [Nat.shiftLeft_eq]
    positivity
  rw [Nat.log2_eq_iff hpos, Nat.shiftLeft_eq, Nat.add_right_comm, pow_add, pow_add]
  refine ⟨Nat.mul_le_mul_right _ (Nat.log2_self_le h.ne'), ?_⟩
  exact Nat.mul_lt_mul_of_pos_right Nat.lt_log2_self (by positivity)

/-- A mantissa is lengthened without a change of its value. -/
theorem value_shiftLeft (m : Nat) (e : ℤ) (n : Nat) :
    ((m <<< n : ℕ) : ℚ) * 2 ^ (e - n) = m * 2 ^ e := by
  rw [Nat.shiftLeft_eq, zpow_sub₀ (by norm_num), zpow_natCast]
  push_cast
  field_simp

/-- What has the value of a magnitude is rounded to it. -/
theorem round_eq (hx : x.Canonical) {m : Nat} {e : ℤ} (hm : 0 < m) (hvalue : m * 2 ^ e = x.value)
    (sign : Sign) :
    UnpackedFloat.round Format.binary64 sign m e
      = .finite sign x.significand x.exponent hx.pos := by
  rw [UnpackedFloat.round, decreaseExponent]
  dsimp only
  generalize hshift : (e - Format.binary64.targetExponent (totalExponent m e)).toNat = n
  have hsame : totalExponent (m <<< n) (e - n) = totalExponent m e := by
    rw [totalExponent, totalExponent, log2_shiftLeft hm]
    omega
  have hpos : (2 : ℚ) ^ (e - n) ≠ 0 := by positivity
  have hrounds : x.Rounds ((m <<< n : ℕ) * 2 ^ (e - n)) := by
    rw [value_shiftLeft, hvalue]
    exact rounds_value x
  refine hrounds.roundWithAccuracy_eq hx ?_ ?_ sign
  · rw [mul_div_cancel_right₀ _ hpos]
    exact standsFor_exact _
  · rw [hsame]
    omega

variable {m₁ m₂ : Nat} {e₁ e₂ : ℤ} {h₁ : 0 < m₁} {h₂ : 0 < m₂} {v : ℚ}

/-- A product is rounded. -/
theorem mul_eq (hx : x.Canonical) (hv : x.Rounds v) (hvalue : m₁ * 2 ^ e₁ * (m₂ * 2 ^ e₂) = v)
    (hbits : 2 ^ 52 ≤ m₁ * m₂) :
    UnpackedFloat.mul Format.binary64 (.finite .positive m₁ e₁ h₁) (.finite .positive m₂ e₂ h₂)
      = .finite .positive x.significand x.exponent hx.pos := by
  have hproduct : v = (m₁ * m₂ : ℕ) * 2 ^ (e₁ + e₂) := by
    rw [← hvalue, zpow_add₀ (by norm_num)]
    push_cast
    ring
  rw [hproduct] at hv
  exact roundWithAccuracy_exact hx hv hbits

/-- The quotient that is taken has enough bits, or stands at the least exponent. -/
theorem fits_div (h₁ : 0 < m₁) (h₂ : 0 < m₂) :
    let target := min (e₁ - e₂)
      (Format.binary64.targetExponent (totalExponent m₁ e₁ - totalExponent m₂ e₂))
    target ≤ Format.binary64.targetExponent
      (totalExponent ((m₁ <<< (e₁ - e₂ - target).toNat) / m₂) target) := by
  intro target
  by_cases hmin : target ≤ minExponent
  · exact hmin.trans (le_max_right _ _)
  · refine fits_of_le ?_ target
    -- the shift makes the dividend more than 52 bits longer than the divisor
    have hle : target ≤ (m₁.log2 : ℤ) + 1 + e₁ - (m₂.log2 + 1 + e₂) - 53 := by
      have hright : target ≤ max _ minExponent := min_le_right _ _
      rcases le_max_iff.mp hright with h | h
      · exact h
      · exact absurd h hmin
    have hshift : m₂.log2 + 53 ≤ m₁.log2 + (e₁ - e₂ - target).toNat := by omega
    rw [Nat.shiftLeft_eq, Nat.le_div_iff_mul_le h₂]
    calc 2 ^ 52 * m₂ ≤ 2 ^ 52 * 2 ^ (m₂.log2 + 1) := by gcongr; exact Nat.lt_log2_self.le
      _ = 2 ^ (m₂.log2 + 53) := by rw [← pow_add]; congr 1; omega
      _ ≤ 2 ^ (m₁.log2 + (e₁ - e₂ - target).toNat) := Nat.pow_le_pow_right (by decide) hshift
      _ = 2 ^ m₁.log2 * 2 ^ (e₁ - e₂ - target).toNat := pow_add ..
      _ ≤ m₁ * 2 ^ (e₁ - e₂ - target).toNat := by gcongr; exact Nat.log2_self_le h₁.ne'

/-- A quotient is rounded. -/
theorem div_eq (hx : x.Canonical) (hv : x.Rounds v) (hvalue : m₁ * 2 ^ e₁ / (m₂ * 2 ^ e₂) = v) :
    UnpackedFloat.div Format.binary64 (.finite .positive m₁ e₁ h₁) (.finite .positive m₂ e₂ h₂)
      = .finite .positive x.significand x.exponent hx.pos := by
  have hfits := @fits_div m₁ m₂ e₁ e₂ h₁ h₂
  rw [UnpackedFloat.div, divCore]
  dsimp only at hfits ⊢
  generalize htarget : min (e₁ - e₂) (Format.binary64.targetExponent _) = target at *
  have hle : target ≤ e₁ - e₂ := htarget ▸ min_le_left _ _
  refine hv.roundWithAccuracy_eq hx ?_ hfits .positive
  have hunits : v / 2 ^ target = (m₁ <<< (e₁ - e₂ - target).toNat : ℕ) / m₂ := by
    rw [← hvalue, Nat.shiftLeft_eq]
    push_cast
    rw [← zpow_natCast, Int.toNat_of_nonneg (by omega), zpow_sub₀ (by norm_num),
      zpow_sub₀ (by norm_num)]
    field_simp
  rw [hunits]
  exact standsFor_div _ h₂

end Arithmetic

/-! ## §2. Exact numbers. -/

/-- The magnitude of a natural number with at most 53 bits. -/
def Magnitude.ofNat (n : Nat) : Magnitude :=
  ⟨n <<< (52 - n.log2), (n.log2 : ℤ) - 52⟩

section Exact

variable {n : Nat}

theorem le_significand_ofNat (hpos : 0 < n) (hlt : n < 2 ^ 53) :
    2 ^ 52 ≤ (Magnitude.ofNat n).significand := by
  have hlog : n.log2 < 53 := (Nat.log2_lt hpos.ne').mpr hlt
  have hsum : n.log2 + (52 - n.log2) = 52 := by omega
  show 2 ^ 52 ≤ n <<< (52 - n.log2)
  rw [Nat.shiftLeft_eq]
  calc 2 ^ 52 = 2 ^ n.log2 * 2 ^ (52 - n.log2) := by rw [← pow_add, hsum]
    _ ≤ n * 2 ^ (52 - n.log2) := by gcongr; exact Nat.log2_self_le hpos.ne'

theorem canonical_ofNat (hpos : 0 < n) (hlt : n < 2 ^ 53) : (Magnitude.ofNat n).Canonical := by
  have hlog : n.log2 < 53 := (Nat.log2_lt hpos.ne').mpr hlt
  have hlow := le_significand_ofNat hpos hlt
  have hhigh : n <<< (52 - n.log2) < 2 ^ 53 := by
    rw [Nat.shiftLeft_eq]
    calc n * 2 ^ (52 - n.log2) < 2 ^ (n.log2 + 1) * 2 ^ (52 - n.log2) := by
          gcongr; exact Nat.lt_log2_self
      _ = 2 ^ 53 := by rw [← pow_add]; congr 1; omega
  refine ⟨by omega, hhigh, ?_, ?_, .inl hlow⟩
  · show minExponent ≤ (n.log2 : ℤ) - 52
    simp only [minExponent]
    omega
  · show (n.log2 : ℤ) - 52 ≤ 971
    omega

theorem value_ofNat (hpos : 0 < n) (hlt : n < 2 ^ 53) : (Magnitude.ofNat n).value = n := by
  have hlog : n.log2 < 53 := (Nat.log2_lt hpos.ne').mpr hlt
  have hexponent : (n.log2 : ℤ) - 52 = -((52 - n.log2 : ℕ) : ℤ) := by omega
  show ((n <<< (52 - n.log2) : ℕ) : ℚ) * 2 ^ ((n.log2 : ℤ) - 52) = n
  rw [hexponent, zpow_neg, zpow_natCast, Nat.shiftLeft_eq]
  push_cast
  field_simp

/-- A natural number with at most 53 bits is a number of the format. -/
theorem unpack_natCast (hpos : 0 < n) (hlt : n < 2 ^ 53) :
    n.toUInt64.toFloat.toModel.unpack = .finite .positive (Magnitude.ofNat n).significand
      (Magnitude.ofNat n).exponent (canonical_ofNat hpos hlt).pos := by
  have hx := canonical_ofNat hpos hlt
  have hvalue : (n : ℚ) * 2 ^ (0 : ℤ) = (Magnitude.ofNat n).value := by
    rw [zpow_zero, mul_one, value_ofNat hpos hlt]
  have hword : n.toUInt64.toNat = n := Nat.mod_eq_of_lt (by omega)
  have hnormal : UnpackedFloat.ofUInt64 Format.binary64 n.toUInt64
      = (Magnitude.ofNat n).unpacked .positive := by
    rw [UnpackedFloat.ofUInt64, hword, UnpackedFloat.ofNat, UnpackedFloat.ofInt,
      UnpackedFloat.normalize, Int.compare_eq_gt.mpr (by omega), hx.unpacked_eq]
    exact round_eq hx hpos hvalue .positive
  show (Float.Model.pack (UnpackedFloat.ofUInt64 Format.binary64 n.toUInt64)).unpack = _
  rw [hnormal]
  exact unpack_toFloat hx .positive

/-- Whether an unpacked number is a power of ten. -/
def isPowerOfTen (k : Nat) : UnpackedFloat → Bool
  | .finite .positive m e _ =>
    2 ^ 52 ≤ m && -52 ≤ e && m * 2 ^ (e + 52).toNat == 10 ^ k * 2 ^ 52
  | _ => false

theorem isPowerOfTen_table : ∀ k : Fin Float.exactlyRepresentablePowersOfTen.size,
    isPowerOfTen k Float.exactlyRepresentablePowersOfTen[k].toModel.unpack = true := by
  decide

theorem eq_of_isPowerOfTen {k : Nat} {u : UnpackedFloat} (h : isPowerOfTen k u = true) :
    ∃ (m : Nat) (e : ℤ) (hm : 0 < m), u = .finite .positive m e hm ∧ 2 ^ 52 ≤ m
      ∧ (m : ℚ) * 2 ^ e = 10 ^ k := by
  unfold isPowerOfTen at h
  split at h
  next m e hm =>
    simp only [Bool.and_eq_true, decide_eq_true_eq, beq_iff_eq] at h
    obtain ⟨⟨hbits, hlow⟩, hvalue⟩ := h
    refine ⟨m, e, hm, rfl, hbits, ?_⟩
    have hcast : (m : ℚ) * 2 ^ (e + 52).toNat = 10 ^ k * 2 ^ 52 := by exact_mod_cast hvalue
    rw [← zpow_natCast, Int.toNat_of_nonneg (by omega), zpow_add₀ (by norm_num), ← mul_assoc] at hcast
    exact mul_right_cancel₀ (by norm_num) hcast
  next => exact absurd h Bool.false_ne_true

end Exact

end Flowprint.Decimal
