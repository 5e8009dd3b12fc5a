/-
  Flowprint.Decimal.Basic
  ────────────────────────────────
  Binary floating-point numbers as exact fractions, and decimals as digits with a point.

  A finite magnitude is `significand * 2 ^ exponent`; a decimal is `0.d₁d₂… * 10 ^ point` with
  `d₁` other than zero.  Rounding a fraction to an integer goes to the nearest one, and a tie goes
  as the `Tie` says.
-/

namespace Flowprint.Decimal

/-! ## §1. Magnitudes. -/

/-- The magnitude of a finite number: `significand * 2 ^ exponent`. -/
structure Magnitude where
  significand : Nat
  exponent : Int
  deriving Repr, DecidableEq

/-- The least exponent of a magnitude. -/
def minExponent : Int := -1074

/-- The bit in front of the fraction of a significand, which has 52 bits. -/
def leadingBit : Nat := 0x10000000000000

/-- The magnitude that the lower 63 bits of a finite number denote. -/
def Magnitude.ofBits (bits : Nat) : Magnitude :=
  let fraction : Nat := bits % leadingBit
  let biased : Nat := bits / leadingBit % 2048
  if biased = 0 then ⟨fraction, minExponent⟩
  else ⟨leadingBit + fraction, (biased : Int) - 1 + minExponent⟩

/-- The magnitude of a finite number. -/
def Magnitude.ofFloat (x : Float) : Magnitude :=
  .ofBits x.toBits.toNat

/-- Whether the sign bit of a number is set. -/
def isNegative (x : Float) : Bool :=
  0x8000000000000000 ≤ x.toBits.toNat

/-- A quotient of natural numbers, its denominator positive. -/
structure Fraction where
  num : Nat
  den : Nat
  deriving Repr, DecidableEq

/-- The fraction `n * 2 ^ e`. -/
def Fraction.ofBinary (n : Nat) (e : Int) : Fraction :=
  match e with
  | .ofNat e => ⟨n <<< e, 1⟩
  | .negSucc e => ⟨n, 1 <<< (e + 1)⟩

/-- A magnitude as a fraction. -/
def Magnitude.toFraction (x : Magnitude) : Fraction :=
  .ofBinary x.significand x.exponent

/-- A fraction in units of `10 ^ p`. -/
def Fraction.inUnits (x : Fraction) (p : Int) : Fraction :=
  match p with
  | .ofNat p => ⟨x.num, x.den * Nat.pow 10 p⟩
  | .negSucc p => ⟨x.num * Nat.pow 10 (p + 1), x.den⟩

/-- The least `k` with `x < 10 ^ k`, for a positive fraction that is no negative power of ten. -/
def Fraction.pointOf (x : Fraction) : Int :=
  if x.den ≤ x.num then (Nat.toDigits 10 (x.num / x.den)).length
  else 1 - ((Nat.toDigits 10 (x.den / x.num)).length : Int)

/-! ## §2. Rounding. -/

/-- Where a number halfway between two candidates goes. -/
inductive Tie where
  /-- To the candidate with an even last digit. -/
  | toEven
  /-- To the greater candidate. -/
  | up
  deriving Repr, DecidableEq

/-- Whether a fraction between `low` and `low + 1` is rounded to `low + 1`. -/
def roundsUp (tie : Tie) (low : Nat) (x : Fraction) : Bool :=
  match compare (2 * x.num) ((2 * low + 1) * x.den) with
  | .lt => false
  | .gt => true
  | .eq => match tie with
    | .toEven => low % 2 == 1
    | .up => true

/-- The integer nearest to a fraction. -/
def roundQuotient (tie : Tie) (x : Fraction) : Nat :=
  if roundsUp tie (x.num / x.den) x then x.num / x.den + 1 else x.num / x.den

/-! ## §3. Decimals. -/

/-- A decimal `0.d₁d₂… * 10 ^ point`. -/
structure Digits where
  digits : List Char
  point : Int
  deriving Repr, DecidableEq

/-- Digits without the zeros at their end. -/
def dropZeros (digits : List Char) : List Char :=
  (digits.reverse.dropWhile (· == '0')).reverse

/-- The decimal `n * 10 ^ p`, without zeros at its end. -/
def Digits.ofNat (n : Nat) (p : Int) : Digits :=
  let digits := Nat.toDigits 10 n
  ⟨dropZeros digits, digits.length + p⟩

end Flowprint.Decimal
