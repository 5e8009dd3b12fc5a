/-
  Flowprint.Json.Value
  ────────────────────────────────
  JSON documents as trees, and their two written forms: without blanks, and with one item per line
  indented by two blanks per level.

  Members of an object keep the order in which they were given.  Text escapes the quote, the
  backslash and the control characters below the blank, and nothing else.
-/
import Flowprint.Decimal.Layout
import Flowprint.Text.Radix

namespace Flowprint.Json

/-- A JSON document. -/
inductive Value where
  | null
  | bool (b : Bool)
  | int (n : Int)
  | float (x : Float)
  | text (s : String)
  | list (items : List Value)
  | object (members : List (String × Value))

/-- An integer that is not negative. -/
def Value.nat (n : Nat) : Value :=
  .int n

/-! ## §1. Atoms. -/

/-- One character as it stands between quotes. -/
def escapedChar (c : Char) : List Char :=
  match c with
  | '"' => ['\\', '"']
  | '\\' => ['\\', '\\']
  | '\x08' => ['\\', 'b']
  | '\x0c' => ['\\', 'f']
  | '\n' => ['\\', 'n']
  | '\r' => ['\\', 'r']
  | '\t' => ['\\', 't']
  | _ => if c.toNat < 0x20 then ['\\', 'u'] ++ Text.Radix.hexDigits 4 c.toNat else [c]

/-- A text in quotes. -/
def quotedText (s : String) : List Char :=
  '"' :: s.toList.flatMap escapedChar ++ ['"']

/-- A number with a fraction; what is no number has no form of its own. -/
def floatText (x : Float) : List Char :=
  if x.isNaN || x.isInf then ['n', 'u', 'l', 'l'] else (Decimal.withPoint x).toList

/-- An integer. -/
def intText (n : Int) : List Char :=
  match n with
  | .ofNat n => Nat.toDigits 10 n
  | .negSucc n => '-' :: Nat.toDigits 10 (n + 1)

/-! ## §2. Without blanks. -/

mutual

/-- A document without blanks. -/
def Value.chars : Value → List Char
  | .null => ['n', 'u', 'l', 'l']
  | .bool true => ['t', 'r', 'u', 'e']
  | .bool false => ['f', 'a', 'l', 's', 'e']
  | .int n => intText n
  | .float x => floatText x
  | .text s => quotedText s
  | .list items => '[' :: itemChars items ++ [']']
  | .object members => '\x7b' :: memberChars members ++ ['\x7d']

/-- Items with commas between them. -/
def itemChars : List Value → List Char
  | [] => []
  | [item] => item.chars
  | item :: rest => item.chars ++ ',' :: itemChars rest

/-- Members with commas between them. -/
def memberChars : List (String × Value) → List Char
  | [] => []
  | [(key, value)] => quotedText key ++ ':' :: value.chars
  | (key, value) :: rest => quotedText key ++ ':' :: value.chars ++ ',' :: memberChars rest

end

/-- A document without blanks. -/
def Value.compact (value : Value) : String :=
  .ofList value.chars

/-! ## §3. One item per line. -/

/-- The start of a line at a level. -/
def newLine (level : Nat) : List Char :=
  '\n' :: List.replicate (2 * level) ' '

mutual

/-- A document at a level, one item per line. -/
def Value.lines (level : Nat) : Value → List Char
  | .list [] => ['[', ']']
  | .list items => '[' :: itemLines (level + 1) items ++ newLine level ++ [']']
  | .object [] => ['\x7b', '\x7d']
  | .object members => '\x7b' :: memberLines (level + 1) members ++ newLine level ++ ['\x7d']
  | atom => atom.chars

/-- Items, each on a line of its own. -/
def itemLines (level : Nat) : List Value → List Char
  | [] => []
  | [item] => newLine level ++ item.lines level
  | item :: rest => newLine level ++ item.lines level ++ ',' :: itemLines level rest

/-- Members, each on a line of its own. -/
def memberLines (level : Nat) : List (String × Value) → List Char
  | [] => []
  | [(key, value)] => newLine level ++ quotedText key ++ [':', ' '] ++ value.lines level
  | (key, value) :: rest =>
    newLine level ++ quotedText key ++ [':', ' '] ++ value.lines level
      ++ ',' :: memberLines level rest

end

/-- A document with one item per line. -/
def Value.pretty (value : Value) : String :=
  .ofList (value.lines 0)

end Flowprint.Json
