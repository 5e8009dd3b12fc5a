/-
  Flowprint.Decimal.Shortest
  ────────────────────────────────
  The shortest decimal that reads back to a number.

  The reals that round to a magnitude form an interval around it: halfway to the neighbours on
  either side, the ends included if the significand is even.  Below a power of two the neighbour is
  half as far away.  On the grids of one, two, … seventeen digits the two points next to the
  magnitude are tried; the first grid with a point in the interval wins, of two points the nearer
  one, and a tie goes as the caller says.

  Main statements:

      pick?_reads          what a grid offers lies in the interval
-/
import Flowprint.Decimal.Basic

namespace Flowprint.Decimal

/-! ## §1. The interval. -/

/-- Whether the gap below a magnitude is half the gap above it. -/
def Magnitude.narrowBelow (x : Magnitude) : Bool :=
  x.significand == leadingBit && minExponent < x.exponent

/-- The lower end of the interval. -/
def Magnitude.lowerEnd (x : Magnitude) : Fraction :=
  .ofBinary (4 * x.significand - if x.narrowBelow then 1 else 2) (x.exponent - 2)

/-- The upper end of the interval. -/
def Magnitude.upperEnd (x : Magnitude) : Fraction :=
  .ofBinary (4 * x.significand + 2) (x.exponent - 2)

/-- Whether `n` units of `10 ^ p` lie in the interval of the reals that round to a magnitude. -/
def Magnitude.reads (x : Magnitude) (p : Int) (n : Nat) : Bool :=
  let low := x.lowerEnd.inUnits p
  let high := x.upperEnd.inUnits p
  if x.significand % 2 = 0 then low.num ≤ n * low.den && n * high.den ≤ high.num
  else low.num < n * low.den && n * high.den < high.num

/-! ## §2. The search. -/

/-- The point of the grid with unit `10 ^ p` that stands for a magnitude, if one does. -/
def Magnitude.pick? (x : Magnitude) (tie : Tie) (p : Int) : Option Nat :=
  let scaled := x.toFraction.inUnits p
  let low := scaled.num / scaled.den
  match x.reads p low, x.reads p (low + 1) with
  | true, true => some (roundQuotient tie scaled)
  | true, false => some low
  | false, true => some (low + 1)
  | false, false => none

/-- The shortest decimal that reads back to a positive magnitude. -/
def Magnitude.shortest (x : Magnitude) (tie : Tie) : Digits :=
  let point := x.toFraction.pointOf
  let units := (List.range 17).map fun (n : Nat) => point - (n + 1)
  match units.findSome? fun p => (x.pick? tie p).map fun n => Digits.ofNat n p with
  | some decimal => decimal
  | none => .ofNat (roundQuotient tie (x.toFraction.inUnits (point - 17))) (point - 17)

theorem roundQuotient_eq_or (tie : Tie) (x : Fraction) :
    roundQuotient tie x = x.num / x.den ∨ roundQuotient tie x = x.num / x.den + 1 := by
  unfold roundQuotient
  split
  · exact .inr rfl
  · exact .inl rfl

/-- What a grid offers reads back. -/
theorem pick?_reads {x : Magnitude} {tie : Tie} {p : Int} {n : Nat}
    (h : x.pick? tie p = some n) : x.reads p n = true := by
  unfold Magnitude.pick? at h
  simp only at h
  split at h
  next hlow hhigh =>
    cases h
    rcases roundQuotient_eq_or tie (x.toFraction.inUnits p) with heq | heq <;> rw [heq]
    · exact hlow
    · exact hhigh
  next hlow _ => cases h; exact hlow
  next _ hhigh => cases h; exact hhigh
  next => simp at h

end Flowprint.Decimal
