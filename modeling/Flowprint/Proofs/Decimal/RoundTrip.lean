/-
  Flowprint.Proofs.Decimal.RoundTrip
  ────────────────────────────────
  Every finite number is read back from its plain notation.

  The digits around the point have the value of the shortest decimal.  That is rounded to the magnitude,
  and digits are read as the magnitude that they are rounded to.

  Main statements:

      value_split    the digits around the point have the value of the decimal
      read?_plain    a finite number is read back
-/
import Flowprint.Proofs.Decimal.Interval
import Flowprint.Proofs.Decimal.Plain

namespace Flowprint.Decimal

/-! ## §1. The value of digits. -/

theorem digitsValue_eq (digits : List Char) : digitsValue digits = Nat.ofDigitChars 10 digits 0 := by
  rw [digitsValue, Nat.ofDigitChars_eq_foldl]
  congr 1
  funext n c
  rw [Nat.mul_comm]

/-- The value of a decimal. -/
def Digits.value (d : Digits) : ℚ :=
  digitsValue d.digits * 10 ^ (d.point - d.digits.length)

theorem digitsValue_append_zeros (digits : List Char) (n : Nat) :
    digitsValue (digits ++ zeros n) = digitsValue digits * 10 ^ n := by
  rw [digitsValue_eq, digitsValue_eq, Nat.ofDigitChars_append, zeros,
    Nat.ofDigitChars_replicate_zero, Nat.mul_comm]

theorem digitsValue_zeros_append (digits : List Char) (n : Nat) :
    digitsValue (zeros n ++ digits) = digitsValue digits := by
  rw [digitsValue_eq, digitsValue_eq, Nat.ofDigitChars_append, zeros,
    Nat.ofDigitChars_replicate_zero, Nat.mul_zero]

/-- Digits are what is left of them, and zeros. -/
theorem exists_dropZeros (digits : List Char) : ∃ n, digits = dropZeros digits ++ zeros n := by
  refine ⟨(digits.reverse.takeWhile (· == '0')).length, ?_⟩
  have hall := List.all_eq_true.mp (List.all_takeWhile (p := (· == '0')) (l := digits.reverse))
  have hzeros : digits.reverse.takeWhile (· == '0')
      = zeros (digits.reverse.takeWhile (· == '0')).length :=
    List.eq_replicate_iff.mpr ⟨rfl, fun c hc => eq_of_beq (hall c hc)⟩
  apply List.reverse_injective
  rw [dropZeros, List.reverse_append, List.reverse_reverse, zeros, List.reverse_replicate]
  conv_lhs => rw [← List.takeWhile_append_dropWhile (p := (· == '0')) (l := digits.reverse), hzeros]
  rfl

/-- A number of units has its value as a decimal. -/
theorem value_ofNat_units (n : Nat) (p : ℤ) : (Digits.ofNat n p).value = n * 10 ^ p := by
  obtain ⟨k, hdigits⟩ := exists_dropZeros (Nat.toDigits 10 n)
  have hvalue : digitsValue (dropZeros (Nat.toDigits 10 n)) * 10 ^ k = n := by
    rw [← digitsValue_append_zeros, ← hdigits, digitsValue_eq, Nat.ofDigitChars_ten_toDigits]
  have hexponent : ((Nat.toDigits 10 n).length : ℤ) + p - (dropZeros (Nat.toDigits 10 n)).length
      = k + p := by
    have hlength := congrArg List.length hdigits
    rw [List.length_append, zeros, List.length_replicate] at hlength
    omega
  show (digitsValue (dropZeros (Nat.toDigits 10 n)) : ℚ)
    * 10 ^ (((Nat.toDigits 10 n).length : ℤ) + p - (dropZeros (Nat.toDigits 10 n)).length) = _
  rw [hexponent, zpow_add₀ (by norm_num), zpow_natCast, ← mul_assoc]
  congr 1
  exact_mod_cast hvalue

theorem digitsValue_cons_zero (digits : List Char) : digitsValue ('0' :: digits) = digitsValue digits :=
  digitsValue_zeros_append digits 1

/-- The digits around the point have the value of the decimal. -/
theorem value_split (d : Digits) :
    (digitsValue (d.split.1 ++ d.split.2) : ℚ) * 10 ^ (-(d.split.2.length : ℤ)) = d.value := by
  obtain ⟨digits, point⟩ := d
  match point with
  | .ofNat 0 =>
    show (digitsValue ('0' :: digits) : ℚ) * 10 ^ (-(digits.length : ℤ))
      = digitsValue digits * 10 ^ (0 - (digits.length : ℤ))
    rw [digitsValue_cons_zero, Int.zero_sub]
  | .ofNat (p + 1) =>
    show (digitsValue (digits.take (p + 1) ++ zeros (p + 1 - digits.length)
        ++ digits.drop (p + 1)) : ℚ) * 10 ^ (-((digits.drop (p + 1)).length : ℤ))
      = digitsValue digits * 10 ^ (((p + 1 : ℕ) : ℤ) - digits.length)
    rcases Nat.le_total digits.length (p + 1) with hshort | hlong
    · -- all digits stand in front of the point, and zeros fill up to it
      have hexponent : ((p + 1 : ℕ) : ℤ) - digits.length = (p + 1 - digits.length : ℕ) := by omega
      rw [List.drop_eq_nil_of_le hshort, List.take_of_length_le hshort, List.append_nil,
        digitsValue_append_zeros, hexponent, zpow_natCast, List.length_nil]
      simp
    · have hexponent : ((p + 1 : ℕ) : ℤ) - digits.length = -((digits.length - (p + 1) : ℕ) : ℤ) := by
        omega
      have hnone : zeros (p + 1 - digits.length) = [] := by
        rw [Nat.sub_eq_zero_of_le hlong]
        rfl
      rw [hnone, List.append_nil, List.take_append_drop, List.length_drop, hexponent]
  | .negSucc p =>
    show (digitsValue ('0' :: (zeros (p + 1) ++ digits)) : ℚ)
        * 10 ^ (-((zeros (p + 1) ++ digits).length : ℤ))
      = digitsValue digits * 10 ^ (Int.negSucc p - (digits.length : ℤ))
    have hexponent : Int.negSucc p - (digits.length : ℤ) = -((zeros (p + 1) ++ digits).length : ℤ) := by
      rw [List.length_append, zeros, List.length_replicate]
      omega
    rw [digitsValue_cons_zero, digitsValue_zeros_append, hexponent]

/-! ## §2. Plain notation. -/

section Plain

variable {whole decimals : List Char}

theorem spanDigits_eq {rest : List Char} (hwhole : ∀ c ∈ whole, c.isDigit = true)
    (hrest : rest.head?.all (fun c => ! c.isDigit) = true) :
    spanDigits (whole ++ rest) = (whole, rest) := by
  rw [spanDigits, List.takeWhile_append_of_pos hwhole, List.dropWhile_append_of_pos hwhole]
  cases rest with
  | nil => simp
  | cons c rest =>
    have hc : c.isDigit = false := by simpa using hrest
    simp [hc]

/-- Digits without a point are read as their value. -/
theorem readUnsigned?_whole (hwhole : ∀ c ∈ whole, c.isDigit = true) (hsome : whole ≠ []) :
    readUnsigned? whole = some (nearest (digitsValue whole) 0) := by
  have hspan : spanDigits whole = (whole, []) := by
    simpa using @spanDigits_eq whole [] hwhole rfl
  rw [readUnsigned?, hspan]
  simp [spanDecimals, readExponent?, hsome]

/-- Digits with a point are read as their value. -/
theorem readUnsigned?_point (hwhole : ∀ c ∈ whole, c.isDigit = true) (hsome : whole ≠ [])
    (hdecimals : ∀ c ∈ decimals, c.isDigit = true) :
    readUnsigned? (whole ++ '.' :: decimals)
      = some (nearest (digitsValue (whole ++ decimals)) (-decimals.length)) := by
  have hspan : spanDigits (whole ++ '.' :: decimals) = (whole, '.' :: decimals) :=
    spanDigits_eq hwhole (by rfl)
  have hrest : spanDigits decimals = (decimals, []) := by
    simpa using @spanDigits_eq decimals [] hdecimals rfl
  rw [readUnsigned?, hspan]
  simp [spanDecimals, hrest, readExponent?, hsome]

/-- A text that begins with a digit is no name. -/
theorem readName?_of_isDigit {c : Char} (h : c.isDigit = true) (rest : List Char) :
    readName? (c :: rest) = none := by
  have hlower : c.toLower = c := by
    refine dif_neg fun hupper => ?_
    have hge : 65 ≤ c.toNat := UInt32.le_iff_toNat_le.mp hupper.1
    have hle := (toNat_of_isDigit h).2
    omega
  have hname : ∀ name : String, name.toList.head?.all (fun d => ! d.isDigit) = true →
      String.ofList ((c :: rest).map Char.toLower) ≠ name := by
    rintro name hhead rfl
    rw [String.toList_ofList, List.map_cons, hlower] at hhead
    simp [h] at hhead
  rw [readName?, if_neg, if_neg]
  · exact hname "nan" (by decide)
  · exact not_or.mpr ⟨hname "inf" (by decide), hname "infinity" (by decide)⟩

/-- A text that begins with a digit has no sign. -/
theorem read?_of_isDigit {c : Char} (h : c.isDigit = true) (rest : List Char) :
    read? (c :: rest) = readUnsigned? (c :: rest)
      ∧ read? ('-' :: c :: rest) = (readUnsigned? (c :: rest)).map (- ·) := by
  have hmagnitude : readMagnitude? (c :: rest) = readUnsigned? (c :: rest) := by
    rw [readMagnitude?, readName?_of_isDigit h, Option.none_or]
  refine ⟨?_, by rw [← hmagnitude]; rfl⟩
  rw [← hmagnitude, read?]
  · rintro rest heq
    rw [(List.cons.inj heq).1] at h
    exact absurd h (by decide)
  · rintro rest heq
    rw [(List.cons.inj heq).1] at h
    exact absurd h (by decide)

end Plain

/-! ## §3. Numbers in plain notation. -/

section Numbers

variable {x : Magnitude} {y : Float}

theorem neg_toFloat (hx : x.Canonical) : -(x.toFloat .positive) = x.toFloat .negative := by
  have hunpack := unpack_toFloat hx .positive
  show Float.ofModel (Float.Model.pack ((x.toFloat .positive).toModel.unpack.neg)) = _
  rw [hunpack, Magnitude.toFloat, hx.unpacked_eq]
  rfl

/-- Digits that are rounded to a magnitude are read as it. -/
theorem nearest_digits (hx : x.Canonical) {digits : List Char} {e : ℤ}
    (hv : x.Rounds (digitsValue digits * 10 ^ e)) :
    nearest (digitsValue digits) e = x.toFloat .positive := by
  refine nearest_eq hx (Nat.pos_of_ne_zero fun hzero => ?_) hv
  have hpos := hv.pos hx
  rw [hzero, Nat.cast_zero, zero_mul] at hpos
  exact lt_irrefl _ hpos

/-- The digits of the shortest decimal stand around its point. -/
theorem isDigit_shortest {c : Char} (h : c ∈ (x.shortest .up).split.1 ∨ c ∈ (x.shortest .up).split.2) :
    c.isDigit = true := by
  obtain ⟨n, p, heq⟩ := shortest_eq_ofNat x .up
  rw [heq] at h
  exact isDigit_split (fun c => isDigit_ofNat) h

/-- A magnitude in plain notation begins with a digit. -/
theorem plainMagnitude_eq_cons (x : Magnitude) :
    ∃ c rest, plainMagnitude x = c :: rest ∧ c.isDigit = true := by
  unfold plainMagnitude
  split
  · exact ⟨'0', [], rfl, by decide⟩
  · obtain ⟨c, front, hfront⟩ := List.exists_cons_of_ne_nil (split_ne_nil (x.shortest .up))
    have hdigit : c.isDigit = true := isDigit_shortest (.inl (by rw [hfront]; exact List.mem_cons_self))
    dsimp only
    split
    · exact ⟨c, front, hfront, hdigit⟩
    · rw [hfront]
      exact ⟨c, _, rfl, hdigit⟩

/-- A magnitude in plain notation is read as the magnitude. -/
theorem readUnsigned?_plainMagnitude (hx : x.Canonical) :
    readUnsigned? (plainMagnitude x) = some (x.toFloat .positive) := by
  obtain ⟨n, p, hshortest, hrounds⟩ := exists_shortest hx .up
  have hvalue := value_split (x.shortest .up)
  have hwhole : ∀ c ∈ (x.shortest .up).split.1, c.isDigit = true :=
    fun c hmem => isDigit_shortest (.inl hmem)
  have hsome := split_ne_nil (x.shortest .up)
  rw [hshortest, value_ofNat_units, ← hshortest] at hvalue
  rw [← hvalue] at hrounds
  rw [plainMagnitude, if_neg hx.pos.ne']
  dsimp only
  split
  next hempty =>
    rw [List.isEmpty_iff.mp hempty, List.append_nil, List.length_nil, Nat.cast_zero, neg_zero]
      at hrounds
    rw [readUnsigned?_whole hwhole hsome, nearest_digits hx hrounds]
  next =>
    rw [readUnsigned?_point hwhole hsome fun c hmem => isDigit_shortest (.inr hmem),
      nearest_digits hx hrounds]

/-- A finite number is neither special value. -/
theorem not_special_of_finite (h : y.isFinite = true) : ¬ y.isNaN = true ∧ ¬ y.isInf = true := by
  have hmodel : y.toModel.unpack.isFinite = true := h
  show ¬ y.toModel.unpack.isNaN = true ∧ ¬ y.toModel.unpack.isInf = true
  cases hunpacked : y.toModel.unpack with
  | infinity sign =>
    rw [hunpacked] at hmodel
    exact Bool.noConfusion hmodel
  | notANumber =>
    rw [hunpacked] at hmodel
    exact Bool.noConfusion hmodel
  | zero sign => exact ⟨Bool.false_ne_true, Bool.false_ne_true⟩
  | finite sign mantissa exponent hpos => exact ⟨Bool.false_ne_true, Bool.false_ne_true⟩

theorem signBit_toBits (y : Float) :
    signBit y.toBits.toNat = if isNegative y then .negative else .positive := by
  rw [signBit, isNegative]
  simp

/-- The magnitude of a finite number in plain notation is read as the number without its sign, and with
a sign in front as the number. -/
theorem read_magnitude (h : y.isFinite = true) :
    readUnsigned? (plainMagnitude (.ofFloat y)) = some ((Magnitude.ofFloat y).toFloat .positive)
      ∧ -((Magnitude.ofFloat y).toFloat .positive) = (Magnitude.ofFloat y).toFloat .negative := by
  by_cases hzero : (Magnitude.ofFloat y).significand = 0
  · have hplain : plainMagnitude (.ofFloat y) = ['0'] := if_pos hzero
    rw [hplain, Magnitude.toFloat, Magnitude.toFloat, Magnitude.unpacked, Magnitude.unpacked,
      dif_pos hzero, dif_pos hzero]
    exact ⟨by decide, by decide⟩
  · have hx := canonical_ofBits (finiteBits_of_isFinite h) (Nat.pos_of_ne_zero hzero)
    exact ⟨readUnsigned?_plainMagnitude hx, neg_toFloat hx⟩

/-- A finite number is read back from its plain notation. -/
theorem read?_plain (h : y.isFinite = true) : read? (plain y).toList = some y := by
  obtain ⟨hnan, hinf⟩ := not_special_of_finite h
  obtain ⟨c, rest, hhead, hdigit⟩ := plainMagnitude_eq_cons (.ofFloat y)
  obtain ⟨hpositive, hnegative⟩ := read?_of_isDigit hdigit rest
  rw [← hhead] at hpositive hnegative
  obtain ⟨hmagnitude, hneg⟩ := read_magnitude h
  have hback := toFloat_ofFloat h
  rw [signBit_toBits] at hback
  rw [toList_plain, if_neg hnan, if_neg hinf, signOf]
  split
  next hsign =>
    rw [if_pos hsign] at hback
    rw [List.singleton_append, hnegative, hmagnitude, Option.map_some, hneg, hback]
  next hsign =>
    rw [if_neg hsign] at hback
    rw [List.nil_append, hpositive, hmagnitude, hback]

end Numbers

end Flowprint.Decimal
