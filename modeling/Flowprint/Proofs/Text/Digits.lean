/-
  Flowprint.Proofs.Text.Digits
  ────────────────────────────────
  Numbers written with the least number of digits, and read back.

  The digits of a number are those of its quotient by the base with one digit behind them, so that
  what holds of all numbers is shown from the quotient on.

  Main statements:

      read_toDigits           digits that are printed are read as the number
      head_toDigits           a number other than zero does not begin with a zero
-/
import Flowprint.Text.Radix

namespace Flowprint.Text.Radix

/-! ## §1. Digits. -/

theorem digitValue?_digitChar {d : Nat} (h : d < 16) : digitValue? (Nat.digitChar d) = some d := by
  revert d
  decide

theorem digit?_digitChar {base d : Nat} (hbase : base ≤ 16) (h : d < base) :
    digit? base (Nat.digitChar d) = some d := by
  rw [digit?, digitValue?_digitChar (by omega), Option.filter_some, if_pos (by simpa using h)]

theorem pushDigit_digitChar {base bound acc d : Nat} (hbase : base ≤ 16) (h : d < base)
    (hbound : acc * base + d < bound) :
    pushDigit base bound acc (Nat.digitChar d) = .ok (acc * base + d) := by
  simp only [pushDigit, digit?_digitChar hbase h, if_pos hbound]

/-! ## §2. Whole numbers. -/

section Numbers

variable {base bound n : Nat}

/-- Induction on a number by its digits: the quotient first, then one digit more. -/
theorem toDigits_induction {motive : Nat → List Char → Prop} (hbase : 1 < base)
    (single : ∀ d < base, motive d [Nat.digitChar d])
    (more : ∀ n d, 0 < n → d < base → motive n (Nat.toDigits base n) →
      motive (n * base + d) (Nat.toDigits base n ++ [Nat.digitChar d])) (n : Nat) :
    motive n (Nat.toDigits base n) := by
  induction n using Nat.strongRecOn with
  | ind n ih =>
    rw [Nat.toDigits_eq_if hbase]
    split
    next h => exact single n h
    next h =>
      have hpos : 0 < n / base := Nat.div_pos (Nat.le_of_not_lt h) (by omega)
      have hless : n / base < n := Nat.div_lt_self (by omega) hbase
      have hmore := more (n / base) (n % base) hpos (Nat.mod_lt n (by omega)) (ih _ hless)
      rw [Nat.mul_comm, Nat.div_add_mod] at hmore
      exact hmore

theorem readDigits_toDigits (hbase : 1 < base) (hsixteen : base ≤ 16) (hn : n < bound) :
    readDigits base bound 0 (Nat.toDigits base n) = .ok n := by
  refine toDigits_induction (motive := fun n digits => n < bound →
    readDigits base bound 0 digits = .ok n) hbase ?_ ?_ n hn
  · intro d hd hbound
    have hfits : 0 * base + d < bound := by rwa [Nat.zero_mul, Nat.zero_add]
    have hpush := pushDigit_digitChar hsixteen hd hfits
    rw [Nat.zero_mul, Nat.zero_add] at hpush
    simp only [readDigits, hpush]
  · intro n d _ hd ih hbound
    have hle : n ≤ n * base := Nat.le_mul_of_pos_right n (by omega)
    rw [readDigits_append, ih (by omega)]
    simp only [Except.bind, readDigits, pushDigit_digitChar hsixteen hd hbound]

theorem mem_toDigits (hbase : 1 < base) {c : Char} (h : c ∈ Nat.toDigits base n) :
    ∃ d < base, c = Nat.digitChar d := by
  refine toDigits_induction (motive := fun _ digits => c ∈ digits →
    ∃ d < base, c = Nat.digitChar d) hbase ?_ ?_ n h
  · intro d hd hmem
    exact ⟨d, hd, List.mem_singleton.mp hmem⟩
  · intro n d _ hd ih hmem
    rcases List.mem_append.mp hmem with hold | hlast
    · exact ih hold
    · exact ⟨d, hd, List.mem_singleton.mp hlast⟩

/-- A number other than zero does not begin with a zero. -/
theorem head_toDigits (hbase : 1 < base) (hpos : 0 < n) :
    ∃ d digits, 0 < d ∧ d < base ∧ Nat.toDigits base n = Nat.digitChar d :: digits := by
  refine toDigits_induction (motive := fun n digits => 0 < n →
    ∃ d rest, 0 < d ∧ d < base ∧ digits = Nat.digitChar d :: rest) hbase ?_ ?_ n hpos
  · intro d hd hpos
    exact ⟨d, [], hpos, hd, rfl⟩
  · intro n d hn _ ih _
    obtain ⟨first, rest, hfirst, hless, heq⟩ := ih hn
    exact ⟨first, rest ++ [Nat.digitChar d], hfirst, hless, by rw [heq]; rfl⟩

/-- What does not begin with a sign is read as digits. -/
theorem read_cons {c : Char} (h : c ≠ '+') (rest : List Char) :
    read base bound (c :: rest) = readDigits base bound 0 (c :: rest) :=
  read.eq_4 base bound _ (by simp) (fun heq => h (List.cons.inj heq).1)
    fun _ heq => h (List.cons.inj heq).1

/-- Digits that are printed are read as the number. -/
theorem read_toDigits (hbase : 1 < base) (hsixteen : base ≤ 16) (hn : n < bound) :
    read base bound (Nat.toDigits base n) = .ok n := by
  have hread := readDigits_toDigits hbase hsixteen hn
  cases hdigits : Nat.toDigits base n with
  | nil => exact absurd hdigits Nat.toDigits_ne_nil
  | cons c rest =>
    rw [hdigits] at hread
    -- a digit is no sign
    obtain ⟨d, hd, rfl⟩ := mem_toDigits (n := n) hbase (by rw [hdigits]; exact List.mem_cons_self)
    have hsign : Nat.digitChar d ≠ '+' := by
      intro heq
      have hvalue := digitValue?_digitChar (d := d) (by omega)
      rw [heq, show digitValue? '+' = none by decide] at hvalue
      exact absurd hvalue (by simp)
    rw [read_cons hsign, hread]

end Numbers

end Flowprint.Text.Radix
