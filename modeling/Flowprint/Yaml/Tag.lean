/-
  Flowprint.Yaml.Tag
  ────────────────────────────────
  Tags, which say what kind of thing a part of a document is, and the two kinds of lines that may
  stand before a document.

  A tag is written with a handle and a suffix, and the handle stands for the beginning of the tag:
  an exclamation mark for itself, two of them for the core kinds, and others as the lines before
  the document say.  A tag in angle brackets is written in full.  A percent sign and two digits
  stand for a byte; a tag ends at a byte of zero.
-/
import Flowprint.Text.Radix
import Flowprint.Text.Utf8
import Flowprint.Yaml.Cursor

namespace Flowprint.Yaml

/-- A tag, or a part of one. -/
abbrev Tag := List UInt8

namespace Tag

/-- The tag that a text spells. -/
def ofString (s : String) : Tag :=
  Text.bytesOf s

/-- What the tags of the core kinds begin with. -/
def coreStem : Tag :=
  ofString "tag:yaml.org,2002:"

/-- The tag of a core kind. -/
def core (kind : String) : Tag :=
  coreStem ++ ofString kind

/-- The name in a tag that begins with an exclamation mark; the mark alone names itself. -/
def localName? : Tag → Option String
  | 0x21 :: [] => some "!"
  | 0x21 :: name => Text.ofBytes? name
  | _ => none

/-! ## §1. Written tags. -/

/-- Whether a character may stand in a tag; some only in one that is written in full. -/
def isChar (full : Bool) (c : Char) : Bool :=
  isNameChar c || ";/?:@&=+$.%!~*'()".contains c || (full && ",[]".contains c)

/-- The byte that a percent sign and two digits stand for, passed over. -/
def escapedByte : Parser UInt8 := do
  expect '%'
  let digits := (← ahead).take 2
  guard (digits.length = 2)
  skipMany 2
  match Text.Radix.readDigits 16 UInt32.size 0 digits with
  | .ok n => return .ofNat n
  | .error _ => failure

/-- The number of bytes of a character after its first byte. -/
def trailing? (byte : UInt8) : Option Nat :=
  if byte < 0x80 then some 0
  else if 0xc0 ≤ byte && byte < 0xe0 then some 1
  else if 0xe0 ≤ byte && byte < 0xf0 then some 2
  else if 0xf0 ≤ byte && byte < 0xf8 then some 3
  else none

/-- Some escaped bytes that go on with a character. -/
def trailingBytes : Nat → Parser Tag
  | 0 => return []
  | n + 1 => do
    let byte ← escapedByte
    guard (0x80 ≤ byte && byte < 0xc0)
    return byte :: (← trailingBytes n)

/-- The characters of a tag that are ahead, with fuel. -/
def chars (full : Bool) : Nat → Parser Tag
  | 0 => return []
  | fuel + 1 => do
    match (← ahead).head?.filter (isChar full) with
    | none => return []
    | some '%' =>
      let first ← escapedByte
      let others ← trailingBytes (← trailing? first)
      return first :: others ++ (← chars full fuel)
    | some c =>
      skipOne
      return c.toNat.toUInt8 :: (← chars full fuel)

/-- A tag, or the end of one behind a handle; there must be something. -/
def someChars (full : Bool) : Parser Tag := do
  let bytes ← chars full ((← ahead).length + 1)
  guard (! bytes.isEmpty)
  return bytes.takeWhile (· != 0)

/-- A handle, or what may be the beginning of one: an exclamation mark, a name and perhaps another
mark. -/
def handle : Parser String := do
  expect '!'
  let name ← takeRun isNameChar
  if (← ahead).head? = some '!' then
    skipOne
    return .ofList ('!' :: name ++ ['!'])
  else return .ofList ('!' :: name)

/-- Whether the beginning of a tag is a handle other than the exclamation mark. -/
def isLongHandle (s : String) : Bool :=
  s != "!" && s.endsWith "!"

/-- A tag as it is written: its handle, which is empty for a tag written in full, and the rest.
The exclamation mark alone is itself. -/
def written (flow : Bool) : Parser (String × Tag) := do
  let tag ← match ← ahead with
    | '!' :: '<' :: _ =>
      skipMany 2
      let tag ← someChars true
      expect '>'
      pure ("", tag)
    | _ =>
      let start ← handle
      if isLongHandle start then pure (start, ← someChars false)
      else
        let rest ← chars false ((← ahead).length + 1)
        let name := (ofString start).drop 1 ++ rest.takeWhile (· != 0)
        pure (if name.isEmpty then ("", ofString "!") else ("!", name))
  let rest ← ahead
  guard (endsWord rest || (flow && rest.head? = some ','))
  return tag

/-! ## §2. Lines before a document. -/

/-- What a line before a document says. -/
inductive Directive where
  /-- The text keeps to a version of the language. -/
  | version (major minor : Nat)
  /-- A handle stands for the beginning of a tag. -/
  | handle (name : String) (stem : Tag)
  deriving Repr, DecidableEq

/-- A number of nine digits at most. -/
def versionNumber : Parser Nat := do
  let digits ← takeRun Char.isDigit
  guard (digits.length ≤ 9)
  match Text.Radix.read 10 UInt32.size digits with
  | .ok n => return n
  | .error _ => failure

/-- A line before a document, from its percent sign to its end. -/
def directive : Parser Directive := do
  expect '%'
  let name ← takeRun isNameChar
  guard (endsWord (← ahead))
  skipWhile isSpace
  let directive ←
    if name = "YAML".toList then
      let major ← versionNumber
      expect '.'
      pure (Directive.version major (← versionNumber))
    else if name = "TAG".toList then
      let name ← handle
      guard (name = "!" || isLongHandle name)
      guard ((← ahead).head?.any isSpace)
      skipWhile isSpace
      let stem ← someChars true
      guard (endsWord (← ahead))
      pure (Directive.handle name stem)
    else failure
  finishLine
  return directive

end Tag

end Flowprint.Yaml
