/-
  Flowprint.Decimal.Reader
  ────────────────────────────────
  Numbers as a person types them: an optional sign, then digits with an optional point and an
  optional exponent, or one of the names `inf`, `infinity` and `nan` in any case of letters.  The
  result is the number nearest to the decimal.
-/
import Flowprint.Decimal.Basic

namespace Flowprint.Decimal

/-- The value of a run of decimal digits. -/
def digitsValue (digits : List Char) : Nat :=
  digits.foldl (fun n c => n * 10 + (c.toNat - '0'.toNat)) 0

/-- The number nearest to `n * 10 ^ e`.  Beyond the range of the format the answer does not depend
on the exponent any more, which keeps the powers of ten small. -/
def nearest (n : Nat) (e : Int) : Float :=
  let point := (Nat.toDigits 10 n).length + e
  if n = 0 then 0.0
  else if 400 < point then Float.ofBits 0x7ff0000000000000
  else if point < -400 then 0.0
  else Float.ofScientific n (e < 0) e.natAbs

/-- The value of an exponent: nothing, or a mark, an optional sign and at least one digit. -/
def readExponent? : List Char → Option Int
  | [] => some 0
  | mark :: rest =>
    if mark = 'e' ∨ mark = 'E' then
      let (negative, digits) := match rest with
        | '-' :: digits => (true, digits)
        | '+' :: digits => (false, digits)
        | digits => (false, digits)
      if digits.isEmpty || ! digits.all Char.isDigit then none
      else
        let e : Int := digitsValue digits
        some (if negative then -e else e)
    else none

/-- The digits at the front of a text, and what follows them. -/
def spanDigits (s : List Char) : List Char × List Char :=
  (s.takeWhile Char.isDigit, s.dropWhile Char.isDigit)

/-- The digits behind a point at the front of a text, and what follows them. -/
def spanDecimals : List Char → List Char × List Char
  | '.' :: rest => spanDigits rest
  | rest => ([], rest)

/-- The value of an unsigned decimal. -/
def readUnsigned? (s : List Char) : Option Float := do
  let (whole, rest) := spanDigits s
  let (decimals, rest) := spanDecimals rest
  guard (! (whole ++ decimals).isEmpty)
  let e ← readExponent? rest
  return nearest (digitsValue (whole ++ decimals)) (e - decimals.length)

/-- The value of a name of a special number. -/
def readName? (s : List Char) : Option Float :=
  let name := String.ofList (s.map Char.toLower)
  if name = "inf" ∨ name = "infinity" then some (Float.ofBits 0x7ff0000000000000)
  else if name = "nan" then some (Float.ofBits 0x7ff8000000000000)
  else none

/-- The value of a name or of an unsigned decimal. -/
def readMagnitude? (s : List Char) : Option Float :=
  (readName? s).or (readUnsigned? s)

/-- The number that a text denotes. -/
def read? : List Char → Option Float
  | '-' :: rest => (readMagnitude? rest).map (- ·)
  | '+' :: rest => readMagnitude? rest
  | rest => readMagnitude? rest

end Flowprint.Decimal
