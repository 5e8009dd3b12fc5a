/-
  Flowprint.Decimal.Layout
  ────────────────────────────────
  How numbers are written.

      plain        every digit positional, integers without a point
      withPoint    positional between 10⁻⁵ and 10¹⁶ with at least one decimal, else scientific with
                   a signed exponent
      fixed        a given number of decimals
      scientific   a given number of decimals behind one leading digit

  The first two take the shortest digits that read back; the other two round the exact value.
-/
import Flowprint.Decimal.Shortest

namespace Flowprint.Decimal

/-! ## §1. Placing the point. -/

/-- A run of zeros. -/
def zeros (n : Nat) : List Char :=
  List.replicate n '0'

/-- The digits of a decimal before and behind its point. -/
def Digits.split (d : Digits) : List Char × List Char :=
  match d.point with
  | .ofNat 0 => (['0'], d.digits)
  | .ofNat p => (d.digits.take p ++ zeros (p - d.digits.length), d.digits.drop p)
  | .negSucc p => (['0'], zeros (p + 1) ++ d.digits)

/-- A decimal in scientific form, the exponent written by a function. -/
def Digits.scientific (d : Digits) (exponent : Int → String) : List Char :=
  let lead := d.digits.take 1
  let rest := d.digits.drop 1
  lead ++ (if rest.isEmpty then [] else '.' :: rest) ++ 'e' :: (exponent (d.point - 1)).toList

/-- A number with the texts of its special values; finite magnitudes go to a function. -/
def withSign (x : Float) (nan inf : String) (finite : Magnitude → List Char) : String :=
  let sign := if isNegative x then ['-'] else []
  if x.isNaN then nan
  else if x.isInf then .ofList (sign ++ inf.toList)
  else .ofList (sign ++ finite (.ofFloat x))

/-! ## §2. Shortest digits. -/

/-- A magnitude in plain notation. -/
def plainMagnitude (x : Magnitude) : List Char :=
  if x.significand = 0 then ['0']
  else
    let (whole, decimals) := (x.shortest .up).split
    if decimals.isEmpty then whole else whole ++ '.' :: decimals

/-- A number in plain notation. -/
def plain (x : Float) : String :=
  withSign x "NaN" "inf" plainMagnitude

/-- An exponent with its sign. -/
def signedExponent (e : Int) : String :=
  if 0 ≤ e then s!"+{e}" else s!"{e}"

/-- A magnitude with a point or an exponent. -/
def pointedMagnitude (x : Magnitude) : List Char :=
  if x.significand = 0 then ['0', '.', '0']
  else
    let d := x.shortest .toEven
    if -5 < d.point ∧ d.point ≤ 16 then
      let (whole, decimals) := d.split
      whole ++ '.' :: (if decimals.isEmpty then ['0'] else decimals)
    else d.scientific signedExponent

/-- A number with a point or an exponent; the special values have no such form. -/
def withPoint (x : Float) : String :=
  withSign x "NaN" "inf" pointedMagnitude

/-! ## §3. Rounded digits. -/

/-- A number with a given number of decimals. -/
def fixed (places : Nat) (x : Float) : String :=
  withSign x "NaN" "inf" fun m =>
    let digits := Nat.toDigits 10 (roundQuotient .toEven (m.toFraction.inUnits (-places)))
    let padded := zeros (places + 1 - digits.length) ++ digits
    let whole := padded.take (padded.length - places)
    if places = 0 then whole else whole ++ '.' :: padded.drop (padded.length - places)

/-- The first `count` digits of a positive magnitude, rounded. -/
def Magnitude.leading (x : Magnitude) (count : Nat) : Digits :=
  let point := x.toFraction.pointOf
  let digits := Nat.toDigits 10 (roundQuotient .toEven (x.toFraction.inUnits (point - count)))
  ⟨digits.take count, point - count + digits.length⟩

/-- A number in scientific form with a given number of decimals. -/
def scientific (places : Nat) (x : Float) : String :=
  withSign x "NaN" "inf" fun m =>
    let d := if m.significand = 0 then ⟨zeros (places + 1), 1⟩ else m.leading (places + 1)
    d.scientific fun e => s!"{e}"

end Flowprint.Decimal
