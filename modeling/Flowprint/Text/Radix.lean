/-
  Flowprint.Text.Radix
  ────────────────────────────────
  Unsigned integers as digits in a base: reading with a bound, and printing with a fixed or with
  the least number of digits.

  Reading takes an optional plus sign and then one digit or more, in either case of letter.  The
  digits are taken from the left, and the first problem met decides the fault: a character that is
  no digit, or a value that reaches the bound.

  Main statements:

      readDigits_append     reading splits at any place, the value so far carried along
      length_hexDigits      printing pads to the width asked for
      readHex_hexDigits     what `hexDigits` prints reads back
-/

namespace Flowprint.Text.Radix

/-! ## §1. Reading. -/

/-- Why a text is no integer of the wanted range. -/
inductive Fault where
  /-- There is no character at all. -/
  | empty
  /-- A character is no digit of the base, or there is a sign and no digit. -/
  | invalidDigit
  /-- The digits denote a number outside the range. -/
  | tooLarge
  deriving Repr, DecidableEq

/-- The sentence that names a fault. -/
def Fault.message : Fault → String
  | .empty => "cannot parse integer from empty string"
  | .invalidDigit => "invalid digit found in string"
  | .tooLarge => "number too large to fit in target type"

/-- The number of values of 128 bits. -/
def size128 : Nat := 0x100000000000000000000000000000000

/-- The value of a character as a digit, whatever the base: `0` to `9`, then letters from ten on. -/
def digitValue? (c : Char) : Option Nat :=
  if '0' ≤ c ∧ c ≤ '9' then some (c.toNat - '0'.toNat)
  else if 'a' ≤ c ∧ c ≤ 'z' then some (c.toNat - 'a'.toNat + 10)
  else if 'A' ≤ c ∧ c ≤ 'Z' then some (c.toNat - 'A'.toNat + 10)
  else none

/-- The value of a character as a digit of a base. -/
def digit? (base : Nat) (c : Char) : Option Nat :=
  (digitValue? c).filter (· < base)

/-- One more digit behind the digits with value `acc`. -/
def pushDigit (base bound acc : Nat) (c : Char) : Except Fault Nat :=
  match digit? base c with
  | none => .error .invalidDigit
  | some d => if acc * base + d < bound then .ok (acc * base + d) else .error .tooLarge

/-- The value of digits that follow digits with value `acc`. -/
def readDigits (base bound : Nat) : Nat → List Char → Except Fault Nat
  | acc, [] => .ok acc
  | acc, c :: rest =>
    match pushDigit base bound acc c with
    | .ok acc => readDigits base bound acc rest
    | .error fault => .error fault

/-- The integer below `bound` that a text denotes in a base. -/
def read (base bound : Nat) : List Char → Except Fault Nat
  | [] => .error .empty
  | ['+'] => .error .invalidDigit
  | '+' :: digits => readDigits base bound 0 digits
  | digits => readDigits base bound 0 digits

theorem readDigits_append (base bound acc : Nat) (s t : List Char) :
    readDigits base bound acc (s ++ t)
      = (readDigits base bound acc s).bind fun acc => readDigits base bound acc t := by
  induction s generalizing acc with
  | nil => rfl
  | cons c s ih =>
    rw [List.cons_append, readDigits, readDigits]
    cases pushDigit base bound acc c with
    | ok acc => exact ih acc
    | error fault => rfl

/-! ## §2. Printing. -/

/-- The digit of a value below sixteen. -/
def hexDigit (d : Nat) : Char :=
  "0123456789abcdef".toList.getD d '?'

/-- The last `width` hexadecimal digits of a number. -/
def hexDigits : Nat → Nat → List Char
  | 0, _ => []
  | width + 1, n => hexDigits width (n / 16) ++ [hexDigit (n % 16)]

/-- A number in hexadecimal, padded with zeros to `width` digits. -/
def hexPadded (width n : Nat) : String :=
  .ofList (hexDigits width n)

/-- A number in hexadecimal without leading zeros. -/
def hex (n : Nat) : String :=
  .ofList (Nat.toDigits 16 n)

/-- Pad a text with blanks on its left to `width` characters. -/
def padLeft (width : Nat) (s : String) : String :=
  "".pushn ' ' (width - s.length) ++ s

/-! ## §3. What is printed reads back. -/

theorem digit?_hexDigit {d : Nat} (h : d < 16) : digit? 16 (hexDigit d) = some d := by
  revert d
  decide

theorem length_hexDigits (width n : Nat) : (hexDigits width n).length = width := by
  induction width generalizing n with
  | zero => rfl
  | succ width ih => simp [hexDigits, ih]

/-- Printed digits after digits with value `acc` denote `acc` shifted, plus the number. -/
theorem readDigits_hexDigits {bound width acc n : Nat} (hn : n < Nat.pow 16 width)
    (hb : acc * Nat.pow 16 width + n < bound) :
    readDigits 16 bound acc (hexDigits width n) = .ok (acc * Nat.pow 16 width + n) := by
  induction width generalizing n with
  | zero =>
    have hone : Nat.pow 16 0 = 1 := rfl
    rw [hone] at hn hb
    have hzero : n = 0 := by omega
    simp [hzero, hexDigits, readDigits]
  | succ width ih =>
    have hpow : Nat.pow 16 (width + 1) = Nat.pow 16 width * 16 := rfl
    rw [hpow] at hn hb ⊢
    rw [← Nat.mul_assoc] at hb ⊢
    have hdiv : n / 16 < Nat.pow 16 width := Nat.div_lt_of_lt_mul (by omega)
    have hsplit : acc * Nat.pow 16 width * 16 + n
        = (acc * Nat.pow 16 width + n / 16) * 16 + n % 16 := by
      rw [Nat.add_mul]
      omega
    have hd : n % 16 < 16 := Nat.mod_lt _ (by decide)
    rw [hexDigits, readDigits_append, ih hdiv (by omega)]
    rw [hsplit] at hb ⊢
    simp only [Except.bind, readDigits, pushDigit, digit?_hexDigit hd, if_pos hb]

/-- A printed number that fits its width denotes itself. -/
theorem readHex_hexDigits {bound width n : Nat} (hn : n < Nat.pow 16 width) (hb : n < bound) :
    readDigits 16 bound 0 (hexDigits width n) = .ok n := by
  simpa using @readDigits_hexDigits bound width 0 n hn (by simpa using hb)

end Flowprint.Text.Radix
