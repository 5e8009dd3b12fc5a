/-
  Flowprint.Yaml.Cursor
  ────────────────────────────────
  A position in a YAML text, and the steps over blanks, line breaks and comments.

  Indentation carries meaning, so a position knows its column; a key is short and ends on the line
  where it began, so a position knows its line and the bytes of the line before it.  The line breaks
  are the line feed, the line separator and the paragraph separator; a carriage return, alone or
  before a line feed, and a next line are taken for line feeds beforehand.
-/
import Flowprint.Text.Utf8

namespace Flowprint.Yaml

/-- A position in a text. -/
structure Cursor where
  rest : List Char
  column : Nat := 0
  /-- The number of bytes of the line before the position. -/
  bytes : Nat := 0
  line : Nat := 0
  deriving Repr

/-- A reader at a position, which fails where the text is malformed. -/
abbrev Parser (α : Type) := StateT Cursor Option α

/-! ## §1. Characters. -/

/-- A character that ends a line. -/
def isBreak (c : Char) : Bool :=
  c == '\n' || c == '\u2028' || c == '\u2029'

/-- A blank within a line. -/
def isSpace (c : Char) : Bool :=
  c == ' ' || c == '\t'

/-- Whether a text is at its end or at the end of a line. -/
def endsLine (s : List Char) : Bool :=
  s.head?.all isBreak

/-- Whether a text is at its end, at the end of a line or at a blank. -/
def endsWord (s : List Char) : Bool :=
  s.head?.all fun c => isSpace c || isBreak c

/-- Whether a character may stand in the name of a part, of a tag or of a directive. -/
def isNameChar (c : Char) : Bool :=
  c.isAlphanum || c == '-' || c == '_'

/-- Whether a character may stand in a text. -/
def isAllowed (c : Char) : Bool :=
  let n := c.toNat
  n == 9 || n == 10 || n == 13 || (0x20 ≤ n && n ≤ 0x7e) || n == 0x85 || (0xa0 ≤ n && n ≤ 0xd7ff)
    || (0xe000 ≤ n && n ≤ 0xfffd) || 0x10000 ≤ n

/-! ## §2. Texts. -/

/-- A text with the line breaks of other systems as line feeds. -/
def unifyBreaks : List Char → List Char
  | [] => []
  | '\r' :: '\n' :: rest => '\n' :: unifyBreaks rest
  | '\r' :: rest => '\n' :: unifyBreaks rest
  | '\x85' :: rest => '\n' :: unifyBreaks rest
  | c :: rest => c :: unifyBreaks rest

/-- The start of a text, if all of its characters may stand in one. -/
def Cursor.start? (s : String) : Option Cursor :=
  let chars := s.toList
  if chars.all isAllowed then some { rest := unifyBreaks chars } else none

/-! ## §3. Steps. -/

/-- The position behind a character. -/
def Cursor.next (cursor : Cursor) : Cursor :=
  match cursor.rest with
  | [] => cursor
  | c :: rest =>
    if isBreak c then { rest, line := cursor.line + 1 }
    else { cursor with rest, column := cursor.column + 1, bytes := cursor.bytes + c.utf8Size }

/-- The position behind some characters of the line. -/
def Cursor.skip (cursor : Cursor) (n : Nat) : Cursor :=
  { cursor with
    rest := cursor.rest.drop n
    column := cursor.column + n
    bytes := cursor.bytes + Text.utf8Length (cursor.rest.take n) }

/-- Whether a position is at three such characters that stand alone at the start of a line. -/
def Cursor.atRule (c : Char) (cursor : Cursor) : Bool :=
  cursor.column == 0 && cursor.rest.take 3 == [c, c, c] && endsWord (cursor.rest.drop 3)

/-- Whether a position is at a mark between documents. -/
def Cursor.atMark (cursor : Cursor) : Bool :=
  cursor.atRule '-' || cursor.atRule '.'

/-- The text ahead. -/
def ahead : Parser (List Char) :=
  return (← get).rest

/-- Pass over one character. -/
def skipOne : Parser Unit :=
  modify Cursor.next

/-- Pass over some characters of the line. -/
def skipMany (n : Nat) : Parser Unit :=
  modify (·.skip n)

/-- The run of characters of a class within a line, passed over. -/
def takeRun (p : Char → Bool) : Parser (List Char) := do
  let run := (← ahead).takeWhile p
  skipMany run.length
  return run

/-- Pass over characters of a class within a line. -/
def skipWhile (p : Char → Bool) : Parser Unit := do
  let _ ← takeRun p

/-- Pass over a given character. -/
def expect (c : Char) : Parser Unit := do
  guard ((← ahead).head? = some c)
  skipOne

/-- Pass over a comment, if one is ahead. -/
def skipComment : Parser Unit := do
  if (← ahead).head? = some '#' then skipWhile (! isBreak ·)

/-- Pass over what stands before the end of a line: blanks and a comment; then over the end. -/
def finishLine : Parser Unit := do
  skipWhile isSpace
  skipComment
  guard (endsLine (← ahead))
  skipOne

/-- Pass over a byte order mark at the start of a line. -/
def skipByteOrderMark : Parser Unit := do
  let cursor ← get
  if cursor.column = 0 && cursor.rest.head? = some '\ufeff' then skipOne

/-- Pass over blanks, comments and line breaks, with fuel for the lines; tells whether there was a
line break.  A byte order mark may begin a line, and takes a column.  Tabs are no blanks where
indentation is expected: before the first break unless `tabs` says so, and after a break unless
`later` does. -/
def skipToText (later : Bool) : Nat → Bool → Parser Bool
  | 0, _ => return false
  | fuel + 1, tabs => do
    skipByteOrderMark
    skipWhile fun c => c == ' ' || (c == '\t' && tabs)
    skipComment
    if (← ahead).head?.any isBreak then
      skipOne
      let _ ← skipToText later fuel later
      return true
    else return false

end Flowprint.Yaml
