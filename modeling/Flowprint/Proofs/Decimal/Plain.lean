/-
  Flowprint.Proofs.Decimal.Plain
  ────────────────────────────────
  Numbers in plain notation as words: they have no blanks, and what is not finite is read as what is
  not finite.

  Main statements:

      mem_plainMagnitude       a magnitude is written in digits with a point at most
      isBlank_plain            no number has a blank in it
      read?_plain_not_finite   the special values are read as special values
-/
import Flowprint.Decimal.Layout
import Flowprint.Decimal.Reader
import Flowprint.Proofs.Text.Digits
import Flowprint.Text.Blank

namespace Flowprint.Decimal

/-! ## §1. Digits. -/

theorem isDigit_digitChar {d : Nat} (h : d < 10) : (Nat.digitChar d).isDigit = true := by
  revert d
  decide

theorem isDigit_toDigits {n : Nat} {c : Char} (h : c ∈ Nat.toDigits 10 n) : c.isDigit = true := by
  obtain ⟨d, hd, rfl⟩ := Text.Radix.mem_toDigits (by decide) h
  exact isDigit_digitChar hd

theorem mem_dropZeros {digits : List Char} {c : Char} (h : c ∈ dropZeros digits) : c ∈ digits :=
  List.mem_reverse.mp ((List.dropWhile_sublist _).mem (List.mem_reverse.mp h))

theorem isDigit_ofNat {n : Nat} {p : Int} {c : Char} (h : c ∈ (Digits.ofNat n p).digits) :
    c.isDigit = true :=
  isDigit_toDigits (mem_dropZeros h)

/-- The shortest decimal is some number of units. -/
theorem shortest_eq_ofNat (x : Magnitude) (tie : Tie) : ∃ n p, x.shortest tie = .ofNat n p := by
  unfold Magnitude.shortest
  dsimp only
  split
  next decimal hfound =>
    obtain ⟨p, -, hpick⟩ := List.exists_of_findSome?_eq_some hfound
    obtain ⟨n, -, rfl⟩ := Option.map_eq_some_iff.mp hpick
    exact ⟨n, p, rfl⟩
  next => exact ⟨_, _, rfl⟩

theorem mem_zeros {n : Nat} {c : Char} (h : c ∈ zeros n) : c = '0' :=
  List.eq_of_mem_replicate h

/-- Around the point stand digits of the decimal and zeros. -/
theorem mem_split {d : Digits} {c : Char} (h : c ∈ d.split.1 ∨ c ∈ d.split.2) :
    c ∈ d.digits ∨ c = '0' := by
  unfold Digits.split at h
  split at h
  · rcases h with h | h
    · exact .inr (List.mem_singleton.mp h)
    · exact .inl h
  · rcases h with h | h
    · rcases List.mem_append.mp h with hdigit | hzero
      · exact .inl ((List.take_sublist _ _).mem hdigit)
      · exact .inr (mem_zeros hzero)
    · exact .inl ((List.drop_sublist _ _).mem h)
  · rcases h with h | h
    · exact .inr (List.mem_singleton.mp h)
    · rcases List.mem_append.mp h with hzero | hdigit
      · exact .inr (mem_zeros hzero)
      · exact .inl hdigit

theorem isDigit_split {d : Digits} (hd : ∀ c ∈ d.digits, c.isDigit = true) {c : Char}
    (h : c ∈ d.split.1 ∨ c ∈ d.split.2) : c.isDigit = true := by
  rcases mem_split h with hdigit | rfl
  · exact hd c hdigit
  · decide

/-- A magnitude is written in digits with a point at most. -/
theorem mem_plainMagnitude {x : Magnitude} {c : Char} (h : c ∈ plainMagnitude x) :
    c.isDigit = true ∨ c = '.' := by
  obtain ⟨n, p, heq⟩ := shortest_eq_ofNat x .up
  have hdigits : ∀ {c : Char}, c ∈ (x.shortest .up).split.1 ∨ c ∈ (x.shortest .up).split.2 →
      c.isDigit = true := by
    rw [heq]
    exact fun hmem => isDigit_split (fun c => isDigit_ofNat) hmem
  unfold plainMagnitude at h
  split at h
  · left
    rw [List.mem_singleton.mp h]
    decide
  · dsimp only at h
    split at h
    · exact .inl (hdigits (.inl h))
    · rcases List.mem_append.mp h with hwhole | hrest
      · exact .inl (hdigits (.inl hwhole))
      · rcases List.mem_cons.mp hrest with rfl | hdecimals
        · exact .inr rfl
        · exact .inl (hdigits (.inr hdecimals))

/-! ## §2. Words. -/

theorem toNat_of_isDigit {c : Char} (h : c.isDigit = true) : 48 ≤ c.toNat ∧ c.toNat ≤ 57 := by
  simp only [Char.isDigit, Bool.and_eq_true, decide_eq_true_eq, ge_iff_le, UInt32.le_iff_toNat_le]
    at h
  exact h

theorem isBlank_of_isDigit {c : Char} (h : c.isDigit = true) : Text.isBlank c = false := by
  have hrange := toNat_of_isDigit h
  simp only [Text.isBlank, Bool.or_eq_false_iff, Bool.and_eq_false_iff, decide_eq_false_iff_not,
    beq_eq_false_iff_ne]
  omega

/-- The sign in front of a number. -/
def signOf (x : Float) : List Char :=
  if isNegative x then ['-'] else []

theorem toList_plain (x : Float) :
    (plain x).toList =
      if x.isNaN then ['N', 'a', 'N']
      else if x.isInf then signOf x ++ ['i', 'n', 'f']
      else signOf x ++ plainMagnitude (.ofFloat x) := by
  have hnan : "NaN".toList = ['N', 'a', 'N'] := by decide
  have hinf : "inf".toList = ['i', 'n', 'f'] := by decide
  unfold plain withSign
  dsimp only
  split
  · exact hnan
  · split
    · rw [String.toList_ofList, hinf]
      rfl
    · rw [String.toList_ofList]
      rfl

theorem mem_signOf {x : Float} {c : Char} (h : c ∈ signOf x) : c = '-' := by
  unfold signOf at h
  split at h
  · exact List.mem_singleton.mp h
  · exact absurd h List.not_mem_nil

/-- No number has a blank in it. -/
theorem isBlank_plain {x : Float} {c : Char} (h : c ∈ (plain x).toList) : Text.isBlank c = false := by
  have hnan : ∀ c ∈ ['N', 'a', 'N'], Text.isBlank c = false := by simp [Text.isBlank]
  have hinf : ∀ c ∈ ['i', 'n', 'f'], Text.isBlank c = false := by simp [Text.isBlank]
  have hsign : ∀ {c}, c ∈ signOf x → Text.isBlank c = false := by
    intro c hmem
    rw [mem_signOf hmem]
    decide
  rw [toList_plain] at h
  split at h
  · exact hnan c h
  · split at h
    · rcases List.mem_append.mp h with hmem | hmem
      · exact hsign hmem
      · exact hinf c hmem
    · rcases List.mem_append.mp h with hmem | hmem
      · exact hsign hmem
      · rcases mem_plainMagnitude hmem with hdigit | rfl
        · exact isBlank_of_isDigit hdigit
        · decide

/-- In front of the point is a digit. -/
theorem split_ne_nil (d : Digits) : d.split.1 ≠ [] := by
  unfold Digits.split
  split
  · simp
  next p hpos _ =>
    intro hnil
    have hlength := congrArg List.length hnil
    simp only [zeros, List.length_append, List.length_take, List.length_replicate, List.length_nil]
      at hlength
    exact hpos (by omega)
  · simp

theorem plainMagnitude_ne_nil (x : Magnitude) : plainMagnitude x ≠ [] := by
  unfold plainMagnitude
  split
  · simp
  · dsimp only
    split
    · exact split_ne_nil _
    · simp

theorem plain_ne_nil (x : Float) : (plain x).toList ≠ [] := by
  rw [toList_plain]
  split
  · simp
  · split
    · simp
    · simp [plainMagnitude_ne_nil]

/-- What is not finite is no number or infinite. -/
theorem special_of_not_finite {x : Float} (h : x.isFinite = false) :
    x.isNaN = true ∨ x.isInf = true := by
  have hmodel : x.toModel.unpack.isFinite = false := h
  show x.toModel.unpack.isNaN = true ∨ x.toModel.unpack.isInf = true
  cases hunpacked : x.toModel.unpack with
  | infinity sign => exact .inr rfl
  | notANumber => exact .inl rfl
  | zero sign =>
    rw [hunpacked] at hmodel
    exact Bool.noConfusion hmodel
  | finite sign mantissa exponent hpos =>
    rw [hunpacked] at hmodel
    exact Bool.noConfusion hmodel

/-- The special values are read as special values. -/
theorem read?_plain_not_finite {x : Float} (h : x.isFinite = false) :
    ∃ y, read? (plain x).toList = some y ∧ y.isFinite = false := by
  rw [toList_plain]
  split
  · exact ⟨Float.ofBits 0x7ff8000000000000, by decide, by decide⟩
  next hnan =>
    rw [if_pos ((special_of_not_finite h).resolve_left hnan)]
    unfold signOf
    split
    · exact ⟨- Float.ofBits 0x7ff0000000000000, by decide, by decide⟩
    · exact ⟨Float.ofBits 0x7ff0000000000000, by decide, by decide⟩

end Flowprint.Decimal
