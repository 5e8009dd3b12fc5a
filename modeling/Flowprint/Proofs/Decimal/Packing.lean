/-
  Flowprint.Proofs.Decimal.Packing
  ────────────────────────────────
  Numbers as bits, and as magnitudes with signs.

  The bits of a finite number are its sign, its exponent and what is left of its significand without the
  first bit.  They are unpacked to a magnitude of the format, and such a magnitude is packed to them, so
  that a finite number and its magnitude with its sign are the same.

  Main statements:

      unpack_eq          the bits of a finite number are unpacked to its magnitude
      unpack_toFloat     the number with a magnitude is unpacked to the magnitude
      toFloat_ofFloat    a finite number is the one with its magnitude and its sign
-/
import Flowprint.Proofs.Decimal.Rounding
import Mathlib

namespace Flowprint.Decimal

open Float.Model Float.Model.UnpackedFloat

/-! ## §1. Fields. -/

theorem toNat_unpackMantissa (b : BitVec 64) :
    (@unpackMantissa Format.binary64 b).toNat = b.toNat % 2 ^ 52 := by
  simp [unpackMantissa]

theorem toNat_unpackExponent (b : BitVec 64) :
    (@unpackExponent Format.binary64 b).toNat = b.toNat / 2 ^ 52 % 2 ^ 11 := by
  simp [unpackExponent, Nat.shiftRight_eq_div_pow]

theorem toNat_unpackSign (b : BitVec 64) :
    (@unpackSign Format.binary64 b).toNat = b.toNat / 2 ^ 63 := by
  have hlt : b.toNat / 2 ^ 63 < 2 := Nat.div_lt_of_lt_mul b.isLt
  simpa [unpackSign, Nat.shiftRight_eq_div_pow] using hlt

theorem toNat_packComponents (sign : Sign) (exponent : BitVec 11) (mantissa : BitVec 52) :
    (packComponents Format.binary64 sign exponent mantissa).toNat
      = sign.toBitVec.toNat * 2 ^ 63 + exponent.toNat * 2 ^ 52 + mantissa.toNat := by
  have hexponent : (sign.toBitVec ++ exponent).toNat
      = sign.toBitVec.toNat * 2 ^ 11 + exponent.toNat := by
    rw [BitVec.toNat_append, ← Nat.shiftLeft_add_eq_or_of_lt exponent.isLt, Nat.shiftLeft_eq]
  show (sign.toBitVec ++ exponent ++ mantissa).toNat = _
  rw [BitVec.toNat_append, ← Nat.shiftLeft_add_eq_or_of_lt mantissa.isLt, Nat.shiftLeft_eq,
    hexponent]
  omega

theorem toNat_implicit (mantissa : BitVec 52) :
    (1#1 ++ mantissa).toNat = 2 ^ 52 + mantissa.toNat := by
  rw [BitVec.toNat_append, ← Nat.shiftLeft_add_eq_or_of_lt mantissa.isLt, Nat.shiftLeft_eq]
  rfl

/-! ## §2. Bits and magnitudes. -/

/-- Whether bits are those of a finite number: the exponent is not the greatest one. -/
def FiniteBits (bits : Nat) : Prop :=
  bits / 2 ^ 52 % 2 ^ 11 ≠ 2047

/-- A sign from the first bit of a number. -/
def signBit (bits : Nat) : Sign :=
  if 2 ^ 63 ≤ bits then .negative else .positive

theorem ofBitVec_unpackSign (b : BitVec 64) :
    Sign.ofBitVec (@unpackSign Format.binary64 b) = signBit b.toNat := by
  have hzero : @unpackSign Format.binary64 b = 0#1 ↔ ¬ 2 ^ 63 ≤ b.toNat := by
    rw [← BitVec.toNat_inj, toNat_unpackSign]
    have hlt := b.isLt
    show _ = 0 ↔ _
    omega
  rw [Sign.ofBitVec, signBit]
  simp only [hzero]
  split <;> simp_all

/-- A magnitude with a sign as an unpacked number. -/
def Magnitude.unpacked (x : Magnitude) (sign : Sign) : UnpackedFloat :=
  if h : x.significand = 0 then .zero sign
  else .finite sign x.significand x.exponent (Nat.pos_of_ne_zero h)

/-- Bits of a finite number are unpacked to its magnitude. -/
theorem unpack_eq {b : BitVec 64} (h : FiniteBits b.toNat) :
    UnpackedFloat.unpack Format.binary64 b
      = (Magnitude.ofBits b.toNat).unpacked (signBit b.toNat) := by
  have hspecial : @unpackExponent Format.binary64 b ≠ -1#11 := by
    intro heq
    have := congrArg BitVec.toNat heq
    rw [toNat_unpackExponent] at this
    exact h this
  have hexponent : @unpackExponent Format.binary64 b = 0#11 ↔ b.toNat / 2 ^ 52 % 2 ^ 11 = 0 := by
    rw [← BitVec.toNat_inj, toNat_unpackExponent]
    rfl
  have hmantissa : @unpackMantissa Format.binary64 b = 0#52 ↔ b.toNat % 2 ^ 52 = 0 := by
    rw [← BitVec.toNat_inj, toNat_unpackMantissa]
    rfl
  unfold UnpackedFloat.unpack Magnitude.unpacked Magnitude.ofBits
  dsimp only
  rw [if_neg hspecial, ofBitVec_unpackSign]
  by_cases hzero : b.toNat / 2 ^ 52 % 2 ^ 11 = 0
  · have hz : b.toNat / leadingBit % 2048 = 0 := hzero
    rw [if_pos (hexponent.mpr hzero)]
    simp only [hz, if_true]
    by_cases hm : b.toNat % 2 ^ 52 = 0
    · have hm' : b.toNat % leadingBit = 0 := hm
      rw [dif_pos (hmantissa.mpr hm), dif_pos hm']
    · have hm' : ¬ b.toNat % leadingBit = 0 := hm
      rw [dif_neg (mt hmantissa.mp hm), dif_neg hm']
      refine finite_congr (toNat_unpackMantissa b) ?_
      rw [toNat_unpackExponent, hzero]
      rfl
  · have hz : ¬ b.toNat / leadingBit % 2048 = 0 := hzero
    rw [if_neg (mt hexponent.mp hzero)]
    simp only [hz, if_false]
    have hm : leadingBit + b.toNat % leadingBit ≠ 0 := by simp [leadingBit]
    rw [dif_neg hm]
    refine finite_congr ?_ ?_
    · rw [toNat_implicit, toNat_unpackMantissa]
      rfl
    · rw [toNat_unpackExponent]
      show ((b.toNat / 2 ^ 52 % 2 ^ 11 : ℕ) : ℤ) - (1023 + 52 : ℤ) = _
      simp only [leadingBit, minExponent]
      omega

/-- A finite number that is not zero has a magnitude of the format. -/
theorem canonical_ofBits {bits : Nat} (h : FiniteBits bits)
    (hpos : 0 < (Magnitude.ofBits bits).significand) : (Magnitude.ofBits bits).Canonical := by
  unfold FiniteBits at h
  revert hpos
  unfold Magnitude.ofBits
  dsimp only
  split
  next hzero =>
    intro hpos
    refine ⟨hpos, ?_, ?_, ?_, .inr rfl⟩ <;> simp only [leadingBit, minExponent] at * <;> omega
  next hzero =>
    intro hpos
    refine ⟨hpos, ?_, ?_, ?_, .inl ?_⟩ <;> simp only [leadingBit, minExponent] at * <;> omega

/-! ## §3. Packing. -/

section Packing

variable {x : Magnitude}

/-- The exponent as it stands in the bits of a number. -/
def Magnitude.biased (x : Magnitude) : Nat :=
  if 2 ^ 52 ≤ x.significand then (x.exponent + 1075).toNat else 0

theorem Magnitude.Canonical.biased_lt (hx : x.Canonical) : x.biased < 2047 := by
  have hhigh := hx.high
  unfold Magnitude.biased
  split <;> omega

/-- The bits of a finite number. -/
theorem toNat_pack (hx : x.Canonical) (sign : Sign) :
    (UnpackedFloat.pack Format.binary64 (.finite sign x.significand x.exponent hx.pos)).toNat
      = sign.toBitVec.toNat * 2 ^ 63 + x.biased * 2 ^ 52 + x.significand % 2 ^ 52 := by
  have hbias : x.exponent + (Format.binary64.exponentBias : ℤ)
      + Format.binary64.mantissaBitsWithoutImplicit = x.exponent + 1075 := by
    show x.exponent + ((1023 : ℕ) : ℤ) + ((52 : ℕ) : ℤ) = _
    omega
  have hbits : x.significand.log2 + 1 = Format.binary64.mantissaBits
      ↔ 2 ^ 52 ≤ x.significand := by
    have hlog := hx.log2.1
    have hiff := @Nat.le_log2 x.significand 52 hx.pos.ne'
    show x.significand.log2 + 1 = 53 ↔ _
    omega
  have hover : ¬ 2 ^ Format.binary64.exponentBits ≤ (x.exponent + 1075).toNat + 1 := by
    have hhigh := hx.high
    show ¬ 2 ^ 11 ≤ _
    omega
  have hpacked : UnpackedFloat.pack Format.binary64 (.finite sign x.significand x.exponent hx.pos)
      = packComponents Format.binary64 sign (BitVec.ofNat 11 x.biased)
        (BitVec.ofNat 52 x.significand) := by
    rw [UnpackedFloat.pack]
    simp only [hbias, hbits]
    rw [if_neg hover, Magnitude.biased]
    split <;> rfl
  have hbiased : (BitVec.ofNat 11 x.biased).toNat = x.biased := by
    have hlt := hx.biased_lt
    rw [BitVec.toNat_ofNat, Nat.mod_eq_of_lt (by omega)]
  rw [hpacked, toNat_packComponents, hbiased, BitVec.toNat_ofNat]

/-- A packed magnitude has the bits that denote it. -/
theorem ofBits_pack (hx : x.Canonical) (sign : Sign) :
    let bits := (UnpackedFloat.pack Format.binary64
      (.finite sign x.significand x.exponent hx.pos)).toNat
    FiniteBits bits ∧ signBit bits = sign ∧ Magnitude.ofBits bits = x := by
  intro bits
  have hbits : bits = sign.toBitVec.toNat * 2 ^ 63 + x.biased * 2 ^ 52 + x.significand % 2 ^ 52 :=
    toNat_pack hx sign
  have hlt := hx.biased_lt
  have hsign : signBit bits = sign := by
    unfold signBit
    cases sign with
    | negative =>
      have hone : Sign.negative.toBitVec.toNat = 1 := rfl
      rw [if_pos (by omega)]
    | positive =>
      have hnone : Sign.positive.toBitVec.toNat = 0 := rfl
      rw [if_neg (by omega)]
  have hbiased : bits / 2 ^ 52 % 2 ^ 11 = x.biased := by omega
  have hfraction : bits % 2 ^ 52 = x.significand % 2 ^ 52 := by omega
  refine ⟨by rw [FiniteBits, hbiased]; omega, hsign, ?_⟩
  have hlow : -1074 ≤ x.exponent := hx.low
  have hbelow := hx.lt
  show (if bits / 2 ^ 52 % 2 ^ 11 = 0 then (⟨bits % 2 ^ 52, minExponent⟩ : Magnitude)
    else ⟨2 ^ 52 + bits % 2 ^ 52, (bits / 2 ^ 52 % 2 ^ 11 : ℕ) - 1 + minExponent⟩) = x
  rw [hbiased, hfraction]
  by_cases hnormal : 2 ^ 52 ≤ x.significand
  · have heq : x.biased = (x.exponent + 1075).toNat := if_pos hnormal
    rw [if_neg (by omega), heq, Int.toNat_of_nonneg (by omega)]
    refine congrArg₂ Magnitude.mk (by omega) ?_
    simp only [minExponent]
    omega
  · have heq : x.biased = 0 := if_neg hnormal
    rw [if_pos heq, ← hx.normal.resolve_left hnormal, Nat.mod_eq_of_lt (not_le.mp hnormal)]

end Packing

/-! ## §4. Numbers. -/

/-- The number with a magnitude and a sign. -/
def Magnitude.toFloat (x : Magnitude) (sign : Sign) : Float :=
  .ofModel (.pack (x.unpacked sign))

section Numbers

variable {x : Magnitude} {y : Float}

theorem Magnitude.Canonical.unpacked_eq (hx : x.Canonical) (sign : Sign) :
    x.unpacked sign = .finite sign x.significand x.exponent hx.pos :=
  dif_neg hx.pos.ne'

/-- A number with a magnitude is unpacked to it. -/
theorem unpack_toFloat (hx : x.Canonical) (sign : Sign) :
    (x.toFloat sign).toModel.unpack = .finite sign x.significand x.exponent hx.pos := by
  obtain ⟨hfinite, hsign, hmagnitude⟩ := ofBits_pack hx sign
  show UnpackedFloat.unpack Format.binary64 (UnpackedFloat.pack Format.binary64 (x.unpacked sign)) = _
  rw [hx.unpacked_eq sign, unpack_eq hfinite, hsign, hmagnitude, hx.unpacked_eq]

theorem finiteBits_of_isFinite (h : y.isFinite = true) : FiniteBits y.toBits.toNat := by
  intro heq
  have hspecial : @unpackExponent Format.binary64 y.toBits.toBitVec = -1#11 := by
    apply BitVec.eq_of_toNat_eq
    rw [toNat_unpackExponent]
    exact heq
  have hmodel : (UnpackedFloat.unpack Format.binary64 y.toBits.toBitVec).isFinite = true := h
  unfold UnpackedFloat.unpack at hmodel
  dsimp only at hmodel
  rw [if_pos hspecial] at hmodel
  split at hmodel <;> exact Bool.noConfusion hmodel

theorem pack_unpack (y : Float) : Float.ofModel (.pack y.toModel.unpack) = y := by
  apply Float.toBits_inj.mp
  apply UInt64.toBitVec_inj.mp
  exact pack_unpack_of_valid y.toModel.valid

/-- A finite number is the one with its magnitude and its sign. -/
theorem toFloat_ofFloat (h : y.isFinite = true) :
    (Magnitude.ofFloat y).toFloat (signBit y.toBits.toNat) = y := by
  have hunpack : (Magnitude.ofFloat y).unpacked (signBit y.toBits.toNat) = y.toModel.unpack :=
    (unpack_eq (finiteBits_of_isFinite h)).symm
  rw [Magnitude.toFloat, hunpack]
  exact pack_unpack y

end Numbers

end Flowprint.Decimal
