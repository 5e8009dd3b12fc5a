/-
  Flowprint.Metadata.Line
  ────────────────────────────────
  Annotations as a text of lines.

  A line has five fields with a blank between them: the executable in hexadecimal digits, the file
  name, the address in hexadecimal digits, the function name in base 64, and whether the function is
  vulnerable.  File names may have blanks in them, for a line is cut at its first blank and at its
  last three.  Blanks around a line and empty lines do not count.  Of two lines for one function the
  later counts.  A function name that is not in base 64, or is no text, is taken as it stands.
-/
import Flowprint.Metadata.Basic
import Flowprint.Text.Base64
import Flowprint.Text.Cut
import Flowprint.Text.Utf8

namespace Flowprint.Annotations

/-! ## §1. Writing. -/

/-- The last field. -/
def flagText (b : Bool) : List Char :=
  if b then ['t', 'r', 'u', 'e'] else ['f', 'a', 'l', 's', 'e']

/-- A name as it is written. -/
def encodedName (name : String) : List Char :=
  Text.Base64.encode (Text.bytesOf name)

/-- An entry as a line. -/
def line (key : FunctionKey) (metadata : Metadata) : List Char :=
  Nat.toDigits 16 key.executable.toNat ++ ' ' :: metadata.fileName.toList
    ++ ' ' :: Nat.toDigits 16 key.address.toNat ++ ' ' :: encodedName metadata.functionName
    ++ ' ' :: flagText metadata.vulnerable

/-- Annotations as a text. -/
def render (annotations : Annotations) : String :=
  .ofList (annotations.toList.flatMap fun (key, metadata) => line key metadata ++ ['\n'])

/-! ## §2. Reading. -/

/-- The number that hexadecimal digits denote. -/
def readWord? (digits : List Char) : Option UInt64 :=
  (Text.Radix.read 16 UInt64.size digits).toOption.map .ofNat

/-- The flag of a last field. -/
def readFlag? (field : List Char) : Option Bool :=
  if field = flagText true then some true
  else if field = flagText false then some false
  else none

/-- The name that a field holds. -/
def readName (field : List Char) : String :=
  ((Text.Base64.decode? field).bind Text.ofBytes?).getD (.ofList field)

/-- The entry of a line without blanks around it. -/
def readLine? (line : List Char) : Option (FunctionKey × Metadata) := do
  let (executable, rest) ← Text.cutFirst? ' ' line
  let (rest, vulnerable) ← Text.cutLast? ' ' rest
  let (rest, name) ← Text.cutLast? ' ' rest
  let (fileName, address) ← Text.cutLast? ' ' rest
  let executable ← readWord? executable
  let address ← readWord? address
  let vulnerable ← readFlag? vulnerable
  return (⟨executable, address⟩, ⟨.ofList fileName, readName name, vulnerable⟩)

/-- Annotations with those of lines, the first of which has the given number. -/
def readLines : Nat → List (List Char) → Annotations → Except Metadata.Fault Annotations
  | _, [], annotations => .ok annotations
  | number, raw :: rest, annotations =>
    let line := Text.trim raw
    if line.isEmpty then readLines (number + 1) rest annotations
    else
      match readLine? line with
      | none => .error (.malformed number (.ofList raw))
      | some (key, metadata) => readLines (number + 1) rest (annotations.insert key metadata)

/-- The annotations that a text holds. -/
def parse (text : String) : Except Metadata.Fault Annotations :=
  readLines 1 (Text.lines text.toList) ∅

end Flowprint.Annotations
