/-
  Flowprint.Proofs.Decimal.Nearest
  ────────────────────────────────
  Decimals are read as the numbers that they are rounded to.

  Few digits and a small power of ten go through one product or quotient of exact numbers, others
  through the exact value at once.  Beyond the range of the format the answer is known before, and no
  number of the format is rounded to from there.

  Main statements:

      point_bounds     what is rounded to a magnitude has its point in a range
      nearest_eq       a decimal is read as the magnitude that it is rounded to
-/
import Flowprint.Decimal.Reader
import Flowprint.Proofs.Decimal.Arithmetic

namespace Flowprint.Decimal

open Float.Model Float.Model.UnpackedFloat

variable {x : Magnitude} {n : Nat} {e : ℤ} {v : ℚ}

/-! ## §1. The range of the format. -/

theorem Magnitude.Rounds.le (hx : x.Canonical) (hv : x.Rounds v) : (2 : ℚ) ^ (-1075 : ℤ) ≤ v := by
  have hpos : (1 : ℚ) ≤ x.significand := by exact_mod_cast hx.pos
  have hreach : (x.reach : ℚ) ≤ 2 := by
    rcases x.reach_eq with h | h <;> rw [h.1] <;> norm_num
  have hlow : -1074 ≤ x.exponent := hx.low
  calc (2 : ℚ) ^ (-1075 : ℤ) = 2 * 2 ^ (-1076 : ℤ) := by
        rw [← zpow_one_add₀ (by norm_num)]
        norm_num
    _ ≤ (4 * x.significand - x.reach) * 2 ^ (x.exponent - 2) := by
        refine mul_le_mul (by linarith) (zpow_le_zpow_right₀ (by norm_num) (by omega))
          (by positivity) (by linarith)
    _ ≤ v := hv.low

theorem Magnitude.Rounds.pos (hx : x.Canonical) (hv : x.Rounds v) : 0 < v :=
  lt_of_lt_of_le (by positivity) (hv.le hx)

theorem Magnitude.Rounds.lt (hx : x.Canonical) (hv : x.Rounds v) : v < (2 : ℚ) ^ (1024 : ℤ) := by
  have hhigh := hx.high
  exact (hv.lt_zpow hx).trans_le (zpow_le_zpow_right₀ (by norm_num) (by omega))

/-- A number has as many digits as its size says. -/
theorem pow_length_toDigits (hn : 0 < n) :
    10 ^ ((Nat.toDigits 10 n).length - 1) ≤ n ∧ n < 10 ^ (Nat.toDigits 10 n).length := by
  have hpos : 0 < (Nat.toDigits 10 n).length := Nat.length_toDigits_pos
  refine ⟨?_, (Nat.length_toDigits_le_iff (by decide) hpos).mp le_rfl⟩
  rcases Nat.eq_zero_or_pos ((Nat.toDigits 10 n).length - 1) with hzero | hone
  · rw [hzero]
    exact hn
  · refine Nat.le_of_not_lt fun hlt => ?_
    have := (Nat.length_toDigits_le_iff (by decide) hone).mpr hlt
    omega

/-- A decimal lies between the powers of ten around its point. -/
theorem zpow_point_le (hn : 0 < n) :
    (10 : ℚ) ^ (((Nat.toDigits 10 n).length : ℤ) + e - 1) ≤ n * 10 ^ e
      ∧ n * (10 : ℚ) ^ e < 10 ^ (((Nat.toDigits 10 n).length : ℤ) + e) := by
  obtain ⟨hlow, hhigh⟩ := pow_length_toDigits hn
  have hpos : 0 < (Nat.toDigits 10 n).length := Nat.length_toDigits_pos
  constructor
  · have hexponent : ((Nat.toDigits 10 n).length : ℤ) + e - 1
        = (((Nat.toDigits 10 n).length - 1 : ℕ) : ℤ) + e := by omega
    rw [hexponent, zpow_add₀ (by norm_num), zpow_natCast]
    gcongr
    exact_mod_cast hlow
  · rw [zpow_add₀ (by norm_num), zpow_natCast]
    gcongr
    exact_mod_cast hhigh

theorem two_pow_le_ten_pow : (2 : ℚ) ^ 1075 ≤ 10 ^ 400 :=
  calc (2 : ℚ) ^ 1075 = (2 ^ 43) ^ 25 := by rw [← pow_mul]
    _ ≤ (10 ^ 16) ^ 25 := by gcongr; norm_num
    _ = 10 ^ 400 := by rw [← pow_mul]

/-- A decimal that is rounded to a magnitude has its point in a range. -/
theorem point_bounds (hx : x.Canonical) (hn : 0 < n) (hv : x.Rounds (n * 10 ^ e)) :
    -400 ≤ ((Nat.toDigits 10 n).length : ℤ) + e ∧ ((Nat.toDigits 10 n).length : ℤ) + e ≤ 400 := by
  obtain ⟨hlow, hhigh⟩ := @zpow_point_le n e hn
  constructor
  · refine not_lt.mp fun hless => absurd (hv.le hx) (not_le.mpr (hhigh.trans_le ?_))
    calc (10 : ℚ) ^ (((Nat.toDigits 10 n).length : ℤ) + e) ≤ 10 ^ (-(400 : ℕ) : ℤ) :=
          zpow_le_zpow_right₀ (by norm_num) (by omega)
      _ ≤ 2 ^ (-(1075 : ℕ) : ℤ) := by
          rw [zpow_neg, zpow_neg, zpow_natCast, zpow_natCast]
          exact inv_anti₀ (by positivity) two_pow_le_ten_pow
  · refine not_lt.mp fun hmore => absurd (hv.lt hx) (not_lt.mpr (le_trans ?_ hlow))
    calc (2 : ℚ) ^ (1024 : ℤ) ≤ 2 ^ ((1075 : ℕ) : ℤ) :=
          zpow_le_zpow_right₀ (by norm_num) (by norm_num)
      _ ≤ 10 ^ ((400 : ℕ) : ℤ) := by exact_mod_cast two_pow_le_ten_pow
      _ ≤ 10 ^ (((Nat.toDigits 10 n).length : ℤ) + e - 1) :=
          zpow_le_zpow_right₀ (by norm_num) (by omega)

/-! ## §2. Decimals that are read. -/

/-- The entry of the table for a power of ten. -/
theorem exists_power {k : Nat} (hin : k < Float.exactlyRepresentablePowersOfTen.size) :
    ∃ (m : Nat) (f : ℤ) (hm : 0 < m),
      Float.exactlyRepresentablePowersOfTen[k].toModel.unpack = .finite .positive m f hm
        ∧ 2 ^ 52 ≤ m ∧ (m : ℚ) * 2 ^ f = 10 ^ k :=
  eq_of_isPowerOfTen (isPowerOfTen_table ⟨k, hin⟩)

/-- What is packed for a magnitude is the number with the magnitude. -/
theorem toFloat_eq (hx : x.Canonical) {u : UnpackedFloat}
    (h : u = .finite .positive x.significand x.exponent hx.pos) :
    Float.ofModel (.pack u) = x.toFloat .positive := by
  rw [Magnitude.toFloat, hx.unpacked_eq, h]

/-- With a negative exponent a decimal is a quotient. -/
theorem zpow_ten_of_neg (h : e < 0) : (n : ℚ) * 10 ^ e = n / 10 ^ e.natAbs := by
  have hexponent : e = -(e.natAbs : ℤ) := by omega
  rw [hexponent, zpow_neg, zpow_natCast, Int.natAbs_neg, Int.natAbs_natCast, div_eq_mul_inv]

/-- With another exponent it is a product. -/
theorem zpow_ten_of_nonneg (h : 0 ≤ e) : (n : ℚ) * 10 ^ e = n * 10 ^ e.natAbs := by
  have hexponent : e = (e.natAbs : ℤ) := by omega
  rw [hexponent, zpow_natCast, Int.natAbs_natCast]

/-- An exponent is put together from its sign and its size. -/
theorem sign_natAbs (e : ℤ) :
    (if decide (e < 0) = true then Int.negOfNat e.natAbs else Int.ofNat e.natAbs) = e := by
  split
  next hneg =>
    have hless := of_decide_eq_true hneg
    rw [Int.negOfNat_eq]
    show -(e.natAbs : ℤ) = e
    omega
  next hnot =>
    have hge : ¬ e < 0 := fun hneg => hnot (decide_eq_true hneg)
    show (e.natAbs : ℤ) = e
    omega

/-- Small decimals go through numbers of the format. -/
theorem ofScientific_fast (hx : x.Canonical) (hn : 0 < n) (hfast : n < 2 ^ 53 ∧ e.natAbs ≤ 22)
    (hv : x.Rounds (n * 10 ^ e)) :
    Float.ofScientific n (e < 0) e.natAbs = x.toFloat .positive := by
  have hnat := unpack_natCast hn hfast.1
  have hvalue : ((Magnitude.ofNat n).significand : ℚ) * 2 ^ (Magnitude.ofNat n).exponent = n :=
    value_ofNat hn hfast.1
  have hin : e.natAbs < Float.exactlyRepresentablePowersOfTen.size := by
    simp [Float.exactlyRepresentablePowersOfTen]
    omega
  obtain ⟨m, f, hm, hpower, hbits, hten⟩ := exists_power hin
  rw [Float.ofScientific, dif_pos hfast]
  dsimp only
  split
  next hneg =>
    refine toFloat_eq hx ?_
    rw [hnat, hpower]
    refine div_eq hx hv ?_
    rw [zpow_ten_of_neg (of_decide_eq_true hneg), hvalue, hten]
  next hpos =>
    have hnonneg : 0 ≤ e := not_lt.mp fun hneg => hpos (decide_eq_true hneg)
    refine toFloat_eq hx ?_
    rw [hnat, hpower]
    refine mul_eq hx hv ?_ ?_
    · rw [zpow_ten_of_nonneg hnonneg, hvalue, hten]
    · exact (le_significand_ofNat hn hfast.1).trans (Nat.le_mul_of_pos_right _ hm)

/-- Other decimals are rounded at once. -/
theorem ofScientific_slow (hx : x.Canonical) (hn : 0 < n) (hslow : ¬ (n < 2 ^ 53 ∧ e.natAbs ≤ 22))
    (hv : x.Rounds (n * 10 ^ e)) :
    Float.ofScientific n (e < 0) e.natAbs = x.toFloat .positive := by
  obtain ⟨hlow, hhigh⟩ := point_bounds hx hn hv
  have hdigits : 0 < (Nat.toDigits 10 n).length := Nat.length_toDigits_pos
  have hlength : (Nat.toDigits 10 n).length ≤ n.log2 + 1 :=
    (Nat.length_toDigits_le_iff (by decide) (by omega)).mpr
      (Nat.lt_log2_self.trans_le (Nat.pow_le_pow_left (by decide) _))
  rw [Float.ofScientific, dif_neg hslow]
  dsimp only
  rw [sign_natAbs]
  refine toFloat_eq hx ?_
  have hbig : ¬ e > 2 ^ Format.binary64.exponentBits := by
    show ¬ e > 2048
    omega
  have hsmall : ¬ e < -((2 ^ Format.binary64.exponentBits : ℤ) + n.log2) := by
    show ¬ e < -(2048 + (n.log2 : ℤ))
    omega
  rw [UnpackedFloat.ofScientific, dif_neg hn.ne', if_neg hbig, if_neg hsmall]
  split
  next hnonneg =>
    have hmantissa : n <<< Format.binary64.mantissaBits = n * 2 ^ 53 := Nat.shiftLeft_eq ..
    have hpower : (2 : ℚ) ^ (-(Format.binary64.mantissaBits : ℤ)) = (2 ^ 53)⁻¹ := by
      rw [zpow_neg]
      rfl
    refine mul_eq hx hv ?_ ?_
    · have hnat : e.toNat = e.natAbs := by omega
      rw [zpow_ten_of_nonneg hnonneg, hmantissa, hpower, zpow_zero, mul_one, hnat]
      rw [Nat.cast_mul, Nat.cast_pow, Nat.cast_ofNat, mul_inv_cancel_right₀ (by positivity),
        Nat.cast_pow, Nat.cast_ofNat]
    · rw [hmantissa]
      calc 2 ^ 52 ≤ n * 2 ^ 53 := by omega
        _ ≤ n * 2 ^ 53 * 10 ^ e.toNat := Nat.le_mul_of_pos_right _ (by positivity)
  next hneg =>
    refine div_eq hx hv ?_
    have hnat : (-e).toNat = e.natAbs := by omega
    rw [zpow_ten_of_neg (not_le.mp hneg), zpow_zero, mul_one, mul_one, hnat]
    push_cast
    rfl

/-- A decimal is read as the number that it is rounded to. -/
theorem nearest_eq (hx : x.Canonical) (hn : 0 < n) (hv : x.Rounds (n * 10 ^ e)) :
    nearest n e = x.toFloat .positive := by
  obtain ⟨hlow, hhigh⟩ := point_bounds hx hn hv
  rw [nearest, if_neg hn.ne', if_neg (by omega), if_neg (by omega)]
  by_cases hfast : n < 2 ^ 53 ∧ e.natAbs ≤ 22
  · exact ofScientific_fast hx hn hfast hv
  · exact ofScientific_slow hx hn hfast hv

end Flowprint.Decimal
