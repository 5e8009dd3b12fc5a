/-
  Flowprint.Proofs.Decimal.Sums
  ────────────────────────────────
  Sums of numbers that are not rounded.

  A finite number has an exact value.  If the value of a sum is one that the format can hold, then the
  sum has that value; in particular sums of whole numbers are exact up to the 53 bits of a significand.
  A number stays as it is when zero is added to it, be it infinite or no number, except that a zero may
  lose its sign.

  Main statements:

      denotes_normalize            what the format can hold is not rounded
      HasValue.add, HasValue.sub   sums and differences that the format can hold are exact
      representable_intCast        whole numbers up to the 53rd power of two can be held
      HasValue.pos_iff             a number is positive exactly if its value is
      add_zero_eq, sub_zero_eq     zero changes nothing but the sign of a zero
-/
import Flowprint.Proofs.Decimal.Arithmetic

namespace Flowprint.Decimal

open Float.Model Float.Model.UnpackedFloat

/-! ## §1. Values. -/

/-- The exact value of an unpacked number.  What is infinite or no number has none. -/
inductive Denotes : UnpackedFloat → ℚ → Prop
  | zero (sign : Sign) : Denotes (.zero sign) 0
  | finite (sign : Sign) (m : Nat) (e : ℤ) (hm : 0 < m) :
    Denotes (.finite sign m e hm) (sign.apply m * 2 ^ e)

/-- A number is finite and has a value. -/
def HasValue (x : Float) (v : ℚ) : Prop :=
  Denotes x.toModel.unpack v

/-- The format can hold a value. -/
def Representable (v : ℚ) : Prop :=
  v = 0 ∨ ∃ x : Magnitude, x.Canonical ∧ |v| = x.value

/-- The magnitude of an unpacked number is one of the format. -/
def Reduced : UnpackedFloat → Prop
  | .finite _ m e _ => Magnitude.Canonical ⟨m, e⟩
  | _ => True

section Values

variable {u w : UnpackedFloat} {v : ℚ}

theorem reduced_unpack (x : Float) : Reduced x.toModel.unpack := by
  cases hfinite : x.isFinite with
  | true =>
    have hunpack : x.toModel.unpack = _ := unpack_eq (finiteBits_of_isFinite hfinite)
    rw [hunpack, Magnitude.unpacked]
    split
    · trivial
    next hpos => exact canonical_ofBits (finiteBits_of_isFinite hfinite) (Nat.pos_of_ne_zero hpos)
  | false =>
    change x.toModel.unpack.isFinite = false at hfinite
    cases hunpack : x.toModel.unpack with
    | finite sign m e hm =>
      rw [hunpack] at hfinite
      exact Bool.noConfusion hfinite
    | _ => trivial

/-- A number whose magnitude is one of the format is packed without loss. -/
theorem unpack_pack (h : Reduced u) : (Float.Model.pack u).unpack = u := by
  cases u with
  | notANumber => rfl
  | infinity sign => cases sign <;> rfl
  | zero sign => cases sign <;> rfl
  | finite sign m e hm =>
    have hunpack := unpack_toFloat (x := ⟨m, e⟩) h sign
    rwa [Magnitude.toFloat, Magnitude.Canonical.unpacked_eq h] at hunpack

theorem reduced_neg (h : Reduced u) : Reduced u.neg := by
  cases u with
  | finite sign m e hm => exact h
  | _ => trivial

theorem apply_neg (sign : Sign) (n : ℤ) : (-sign).apply n = -sign.apply n := by
  cases sign with
  | positive => rfl
  | negative => exact (Int.neg_neg n).symm

theorem Denotes.neg (h : Denotes u v) : Denotes u.neg (-v) := by
  cases h with
  | zero sign =>
    rw [neg_zero]
    exact .zero (-sign)
  | finite sign m e hm =>
    rw [← neg_mul, ← Int.cast_neg, ← apply_neg]
    exact .finite (-sign) m e hm

/-- A difference is a sum. -/
theorem unpackedSub_eq_add_neg (u w : UnpackedFloat) :
    UnpackedFloat.sub Format.binary64 u w = UnpackedFloat.add Format.binary64 u w.neg := by
  cases u with
  | notANumber => rfl
  | infinity sign => cases w <;> rfl
  | zero sign => cases w <;> rfl
  | finite sign m e hm =>
    cases w with
    | finite sign' m' e' hm' =>
      simp only [UnpackedFloat.sub, UnpackedFloat.neg, UnpackedFloat.add, apply_neg, Int.sub_eq_add_neg]
    | _ => rfl

end Values

/-! ## §2. What is not rounded. -/

section Exact

variable {u w : UnpackedFloat} {x y : Float} {a b : ℚ} {m : Nat} {e : ℤ}

theorem apply_mul_congr (sign : Sign) {n : Nat} {a b : ℚ} (h : m * a = n * b) :
    (sign.apply m : ℚ) * a = sign.apply n * b := by
  cases sign with
  | positive => simpa [Sign.apply] using h
  | negative => simpa [Sign.apply] using h

theorem abs_apply_mul (sign : Sign) (hm : 0 < m) : |(sign.apply m : ℚ) * 2 ^ e| = m * 2 ^ e := by
  have hpos : (0 : ℚ) < m * 2 ^ e := by positivity
  cases sign with
  | positive => exact abs_of_pos hpos
  | negative => simp [Sign.apply, abs_of_pos hpos]

/-- Rounding keeps what the format can hold. -/
theorem denotes_round (hm : 0 < m) (sign : Sign)
    (h : Representable (sign.apply m * (2 : ℚ) ^ e)) :
    Reduced (UnpackedFloat.round Format.binary64 sign m e)
      ∧ Denotes (UnpackedFloat.round Format.binary64 sign m e) (sign.apply m * 2 ^ e) := by
  have hpos : (0 : ℚ) < m * 2 ^ e := by positivity
  have habs := abs_apply_mul (e := e) sign hm
  rcases h with hzero | ⟨x, hx, hvalue⟩
  · rw [hzero, abs_zero] at habs
    exact absurd habs hpos.ne
  · rw [habs] at hvalue
    rw [round_eq hx hm hvalue, apply_mul_congr sign hvalue]
    exact ⟨hx, .finite sign x.significand x.exponent hx.pos⟩

/-- What the format can hold is not rounded. -/
theorem denotes_normalize {n : ℤ} (h : Representable (n * (2 : ℚ) ^ e)) :
    Reduced (UnpackedFloat.normalize Format.binary64 n e .positive)
      ∧ Denotes (UnpackedFloat.normalize Format.binary64 n e .positive) (n * 2 ^ e) := by
  rcases lt_trichotomy n 0 with hneg | rfl | hpos
  · have hsign : n = Sign.negative.apply ((-n).toNat : ℤ) := by
      show n = -((-n).toNat : ℤ)
      omega
    rw [UnpackedFloat.normalize, Int.compare_eq_lt.mpr hneg]
    rw [hsign] at h
    have hround := denotes_round (by omega) .negative h
    rwa [← hsign] at hround
  · rw [Int.cast_zero, zero_mul]
    exact ⟨trivial, .zero .positive⟩
  · have hsign : n = Sign.positive.apply (n.toNat : ℤ) := (Int.toNat_of_nonneg hpos.le).symm
    rw [UnpackedFloat.normalize, Int.compare_eq_gt.mpr hpos]
    rw [hsign] at h
    have hround := denotes_round (by omega) .positive h
    rwa [← hsign] at hround

/-- A mantissa is brought to a lesser exponent without a change of its value. -/
theorem aligned_value (sign : Sign) (m : Nat) {t : ℤ} (h : t ≤ e) :
    (sign.apply (m <<< (e - t).toNat : ℕ) : ℚ) * 2 ^ t = sign.apply m * 2 ^ e := by
  have hexponent : t = e - (e - t).toNat := by omega
  have hvalue := value_shiftLeft m e (e - t).toNat
  rw [← hexponent] at hvalue
  exact apply_mul_congr sign hvalue

/-- A sum that the format can hold is exact. -/
theorem Denotes.add (hu : Reduced u) (hw : Reduced w) (ha : Denotes u a) (hb : Denotes w b)
    (h : Representable (a + b)) :
    Reduced (UnpackedFloat.add Format.binary64 u w)
      ∧ Denotes (UnpackedFloat.add Format.binary64 u w) (a + b) := by
  cases ha with
  | zero sign =>
    rw [zero_add]
    cases hb with
    | zero sign' => cases sign <;> cases sign' <;> exact ⟨trivial, .zero _⟩
    | finite sign' m' e' hm' => exact ⟨hw, .finite sign' m' e' hm'⟩
  | finite sign m e hm =>
    cases hb with
    | zero sign' =>
      rw [add_zero]
      exact ⟨hu, .finite sign m e hm⟩
    | finite sign' m' e' hm' =>
      -- brought to the lesser exponent, the mantissas add up to one that is not rounded
      have hsum : (sign.apply m : ℚ) * 2 ^ e + sign'.apply m' * 2 ^ e'
          = ((sign.apply (m <<< (e - min e e').toNat : ℕ)
              + sign'.apply (m' <<< (e' - min e e').toNat : ℕ) : ℤ) : ℚ) * 2 ^ min e e' := by
        rw [Int.cast_add, add_mul, aligned_value sign m (min_le_left e e'),
          aligned_value sign' m' (min_le_right e e')]
      rw [hsum] at h ⊢
      exact denotes_normalize h

theorem hasValue_zero : HasValue 0 0 :=
  .zero .positive

theorem hasValue_one : HasValue 1.0 1 := by
  have hunpack : (1.0 : Float).toModel.unpack = .finite .positive (2 ^ 52) (-52) (by decide) := by
    rfl
  have hvalue : (1 : ℚ) = (Sign.positive.apply (2 ^ 52 : ℕ) : ℤ) * 2 ^ (-52 : ℤ) := by
    norm_num [Sign.apply]
  rw [HasValue, hunpack, hvalue]
  exact .finite _ _ _ _

theorem HasValue.add (hx : HasValue x a) (hy : HasValue y b) (h : Representable (a + b)) :
    HasValue (x + y) (a + b) := by
  obtain ⟨hreduced, hvalue⟩ := Denotes.add (reduced_unpack x) (reduced_unpack y) hx hy h
  show Denotes (Float.Model.pack (UnpackedFloat.add Format.binary64 x.toModel.unpack
    y.toModel.unpack)).unpack _
  rwa [unpack_pack hreduced]

theorem HasValue.sub (hx : HasValue x a) (hy : HasValue y b) (h : Representable (a - b)) :
    HasValue (x - y) (a - b) := by
  rw [sub_eq_add_neg] at h ⊢
  obtain ⟨hreduced, hvalue⟩ :=
    Denotes.add (reduced_unpack x) (reduced_neg (reduced_unpack y)) hx (Denotes.neg hy) h
  show Denotes (Float.Model.pack (UnpackedFloat.sub Format.binary64 x.toModel.unpack
    y.toModel.unpack)).unpack _
  rwa [unpackedSub_eq_add_neg, unpack_pack hreduced]

/-- Whole numbers up to the 53rd power of two can be held. -/
theorem representable_intCast {n : ℤ} (h : |n| ≤ 2 ^ 53) : Representable n := by
  rcases eq_or_ne n 0 with rfl | hne
  · exact .inl Int.cast_zero
  · rw [Int.abs_eq_natAbs] at h
    have habs : |(n : ℚ)| = n.natAbs := by rw [Nat.cast_natAbs, Int.cast_abs]
    have hpos : 0 < n.natAbs := Int.natAbs_pos.mpr hne
    have hle : n.natAbs ≤ 2 ^ 53 := by exact_mod_cast h
    rw [Representable, habs]
    refine .inr ?_
    rcases hle.lt_or_eq with hlt | heq
    · exact ⟨.ofNat n.natAbs, canonical_ofNat hpos hlt, (value_ofNat hpos hlt).symm⟩
    · refine ⟨⟨2 ^ 52, 1⟩, ⟨by decide, by decide, by decide, by decide, .inl le_rfl⟩, ?_⟩
      rw [heq, Magnitude.value]
      norm_num

end Exact

/-! ## §3. Signs and zeros. -/

section Signs

variable {x y z : Float} {v : ℚ}

/-- A number is positive exactly if its value is. -/
theorem HasValue.pos_iff (h : HasValue x v) : 0 < x ↔ 0 < v := by
  have hlt : 0 < x ↔ UnpackedFloat.lt (.zero .positive) x.toModel.unpack = true :=
    decide_eq_true_iff
  rw [hlt]
  unfold HasValue at h
  generalize x.toModel.unpack = u at h
  cases h with
  | zero sign => exact iff_of_false Bool.false_ne_true (lt_irrefl _)
  | finite sign m e hm =>
    have hpos : (0 : ℚ) < m * 2 ^ e := by positivity
    cases sign with
    | positive => exact iff_of_true rfl (by simpa [Sign.apply] using hpos)
    | negative => exact iff_of_false Bool.false_ne_true (by simpa [Sign.apply] using hpos.le)

theorem Denotes.eq_zero {u : UnpackedFloat} (h : Denotes u v) (hv : v = 0) :
    ∃ sign, u = .zero sign := by
  cases h with
  | zero sign => exact ⟨sign, rfl⟩
  | finite sign m e hm =>
    have hpos : (0 : ℚ) < m * 2 ^ e := by positivity
    rw [← abs_apply_mul sign hm, hv, abs_zero] at hpos
    exact absurd hpos (lt_irrefl _)

/-- Two numbers are the same, or both zero. -/
def SameUpToSign (x y : Float) : Prop :=
  x = y ∨ HasValue x 0 ∧ HasValue y 0

namespace SameUpToSign

theorem refl (x : Float) : SameUpToSign x x :=
  .inl rfl

theorem symm (h : SameUpToSign x y) : SameUpToSign y x :=
  h.imp Eq.symm And.symm

theorem trans (h : SameUpToSign x y) (h' : SameUpToSign y z) : SameUpToSign x z := by
  rcases h with rfl | ⟨hx, hy⟩
  · exact h'
  · rcases h' with rfl | ⟨-, hz⟩
    · exact .inr ⟨hx, hy⟩
    · exact .inr ⟨hx, hz⟩

theorem pos_iff (h : SameUpToSign x y) : 0 < x ↔ 0 < y := by
  rcases h with rfl | ⟨hx, hy⟩
  · exact Iff.rfl
  · rw [hx.pos_iff, hy.pos_iff]

end SameUpToSign

/-- The number that an unpacked one is packed to. -/
def packed (u : UnpackedFloat) : Float :=
  .ofModel (.pack u)

theorem packed_add_zero (u : UnpackedFloat) (sign : Sign) :
    SameUpToSign (packed (UnpackedFloat.add Format.binary64 u (.zero sign))) (packed u) := by
  cases u with
  | zero sign' => cases sign <;> cases sign' <;> exact .inr ⟨.zero _, .zero _⟩
  | _ => exact .inl rfl

theorem packed_zero_add (u : UnpackedFloat) (sign : Sign) :
    SameUpToSign (packed (UnpackedFloat.add Format.binary64 (.zero sign) u)) (packed u) := by
  cases u with
  | zero sign' => cases sign <;> cases sign' <;> exact .inr ⟨.zero _, .zero _⟩
  | _ => exact .inl rfl

theorem add_eq_packed (x y : Float) :
    x + y = packed (UnpackedFloat.add Format.binary64 x.toModel.unpack y.toModel.unpack) := by
  rfl

theorem sub_eq_packed (x y : Float) :
    x - y = packed (UnpackedFloat.add Format.binary64 x.toModel.unpack y.toModel.unpack.neg) := by
  rw [← unpackedSub_eq_add_neg]
  rfl

/-- Adding zero changes nothing but the sign of a zero. -/
theorem add_zero_eq (hz : HasValue z 0) : SameUpToSign (x + z) x := by
  obtain ⟨sign, hunpack⟩ := Denotes.eq_zero hz rfl
  rw [add_eq_packed, hunpack]
  exact (packed_add_zero _ sign).trans (.inl (pack_unpack x))

/-- Nor does taking zero away. -/
theorem sub_zero_eq (hz : HasValue z 0) : SameUpToSign (x - z) x := by
  obtain ⟨sign, hunpack⟩ := Denotes.eq_zero hz rfl
  rw [sub_eq_packed, hunpack]
  exact (packed_add_zero _ (-sign)).trans (.inl (pack_unpack x))

theorem packed_add_same (h : SameUpToSign x y) (u : UnpackedFloat) :
    SameUpToSign (packed (UnpackedFloat.add Format.binary64 x.toModel.unpack u))
      (packed (UnpackedFloat.add Format.binary64 y.toModel.unpack u)) := by
  rcases h with rfl | ⟨hx, hy⟩
  · exact .refl _
  · obtain ⟨sign, hx⟩ := Denotes.eq_zero hx rfl
    obtain ⟨sign', hy⟩ := Denotes.eq_zero hy rfl
    rw [hx, hy]
    exact (packed_zero_add u sign).trans (packed_zero_add u sign').symm

theorem SameUpToSign.add_right (h : SameUpToSign x y) (w : Float) :
    SameUpToSign (x + w) (y + w) := by
  rw [add_eq_packed, add_eq_packed]
  exact packed_add_same h _

theorem SameUpToSign.sub_right (h : SameUpToSign x y) (w : Float) :
    SameUpToSign (x - w) (y - w) := by
  rw [sub_eq_packed, sub_eq_packed]
  exact packed_add_same h _

end Signs

end Flowprint.Decimal
