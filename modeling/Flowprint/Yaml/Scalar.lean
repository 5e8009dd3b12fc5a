/-
  Flowprint.Yaml.Scalar
  ────────────────────────────────
  The four written forms of a text: plain, in single quotes, in double quotes, and as a block of
  lines.

  Except in a block kept line by line, a line feed within a text reads as a blank, and each empty
  line after it as a line break; a separator of lines or paragraphs stays as it is.
-/
import Flowprint.Text.Radix
import Flowprint.Yaml.Cursor

namespace Flowprint.Yaml

/-! ## §1. Gaps. -/

/-- What stands between two words of a text: blanks, or line breaks and the blanks around them. -/
structure Gap where
  blanks : List Char
  breaks : List Char

namespace Gap

/-- Whether a gap goes over the end of a line. -/
def broken (gap : Gap) : Bool :=
  ! gap.breaks.isEmpty

/-- What line breaks in a row read as. -/
def folded : List Char → List Char
  | ['\n'] => [' ']
  | '\n' :: breaks => breaks
  | breaks => breaks

/-- What a gap reads as. -/
def text (gap : Gap) : List Char :=
  if gap.broken then folded gap.breaks else gap.blanks

end Gap

/-- The line breaks here, with fuel, and the blanks after them passed over.  At columns before
`low` a tab is an error. -/
def takeBreaks (low : Nat) : Nat → Parser (List Char)
  | 0 => return []
  | fuel + 1 => do
    match (← ahead).head?.filter isBreak with
    | none => return []
    | some c =>
      skipOne
      guard (! ((← takeRun isSpace).take low).contains '\t')
      return c :: (← takeBreaks low fuel)

/-- The gap here. -/
def takeGap (low : Nat) : Parser Gap := do
  let blanks ← takeRun isSpace
  return ⟨blanks, ← takeBreaks low ((← ahead).length + 1)⟩

/-! ## §2. Plain. -/

/-- The characters that end a plain text within brackets. -/
def isFlowSign (c : Char) : Bool :=
  c == ',' || c == '[' || c == ']' || c == '\x7b' || c == '\x7d'

/-- Whether a plain text may begin here. -/
def startsPlain (flow : Bool) : List Char → Bool
  | [] => false
  | '-' :: rest => ! rest.head?.any isSpace
  | '?' :: rest => ! flow && ! endsWord rest
  | ':' :: rest => ! flow && ! endsWord rest
  | c :: _ =>
    ! (isSpace c || isBreak c || isFlowSign c
      || [ '#', '&', '*', '!', '|', '>', '\'', '"', '%', '@', '\x60' ].contains c)

/-- The run of a plain text up to the next blank.  Within brackets a colon directly before a sign of
the brackets or a question mark is an error. -/
def plainRun? (flow : Bool) : List Char → Option (List Char)
  | [] => some []
  | c :: rest =>
    if endsWord (c :: rest) || (flow && isFlowSign c) then some []
    else if c == ':' && endsWord rest then some []
    else if c == ':' && flow && rest.head?.any (fun d => isFlowSign d || d == '?') then none
    else (plainRun? flow rest).map (c :: ·)

/-- A plain text behind a gap, with fuel for its runs, the gap included; tells whether line breaks
were passed over at its end.  Further lines are indented to `low` at least. -/
def plainFrom (flow : Bool) (low : Nat) : Nat → Gap → Parser (List Char × Bool)
  | 0, gap => return ([], gap.broken)
  | fuel + 1, gap => do
    let cursor ← get
    if cursor.atMark || cursor.rest.head? = some '#' then return ([], gap.broken)
    let run ← (plainRun? flow cursor.rest : Option (List Char))
    if run.isEmpty then return ([], gap.broken)
    skipMany run.length
    let next ← takeGap low
    if ! flow && (← get).column < low then return (gap.text ++ run, next.broken)
    let (text, broken) ← plainFrom flow low fuel next
    return (gap.text ++ run ++ text, broken)

/-- A plain text; tells whether line breaks were passed over at its end. -/
def plain (flow : Bool) (low : Nat) : Parser (List Char × Bool) := do
  plainFrom flow low ((← ahead).length + 1) ⟨[], []⟩

/-! ## §3. Quoted. -/

/-- The text up to a closing single quote, with fuel. -/
def singleQuoted : Nat → Parser (List Char)
  | 0 => failure
  | fuel + 1 => do
    let cursor ← get
    guard (! cursor.atMark)
    match cursor.rest with
    | [] => failure
    | '\'' :: '\'' :: _ =>
      skipMany 2
      return '\'' :: (← singleQuoted fuel)
    | '\'' :: _ =>
      skipOne
      return []
    | c :: _ =>
      if isSpace c || isBreak c then return (← takeGap 0).text ++ (← singleQuoted fuel)
      else
        skipOne
        return c :: (← singleQuoted fuel)

/-- The character that an escape of one letter stands for. -/
def simpleEscape? (c : Char) : Option Char :=
  match c with
  | '0' => some '\x00'
  | 'a' => some '\x07'
  | 'b' => some '\x08'
  | 't' => some '\t'
  | '\t' => some '\t'
  | 'n' => some '\n'
  | 'v' => some '\x0b'
  | 'f' => some '\x0c'
  | 'r' => some '\r'
  | 'e' => some '\x1b'
  | ' ' => some ' '
  | '"' => some '"'
  | '/' => some '/'
  | '\\' => some '\\'
  | 'N' => some '\x85'
  | '_' => some '\xa0'
  | 'L' => some '\u2028'
  | 'P' => some '\u2029'
  | _ => none

/-- The number of digits behind the letter of a numeric escape. -/
def escapeWidth? (c : Char) : Option Nat :=
  match c with
  | 'x' => some 2
  | 'u' => some 4
  | 'U' => some 8
  | _ => none

/-- The character of a code point. -/
def charOf? (n : Nat) : Option Char :=
  if h : n.isValidChar then some (Char.ofNatAux n h) else none

/-- The character that an escape stands for, behind its backslash. -/
def escape : Parser Char := do
  match ← ahead with
  | [] => failure
  | c :: rest =>
    match escapeWidth? c with
    | none =>
      skipOne
      simpleEscape? c
    | some width =>
      let digits := rest.take width
      guard (digits.length = width)
      skipMany (width + 1)
      match Text.Radix.readDigits 16 UInt32.size 0 digits with
      | .ok n => charOf? n
      | .error _ => failure

/-- The text up to a closing double quote, with fuel.  A backslash at the end of a line joins the
lines. -/
def doubleQuoted : Nat → Parser (List Char)
  | 0 => failure
  | fuel + 1 => do
    let cursor ← get
    guard (! cursor.atMark)
    match cursor.rest with
    | [] => failure
    | '"' :: _ =>
      skipOne
      return []
    | '\\' :: c :: _ =>
      skipOne
      if isBreak c then
        let breaks ← takeBreaks 0 cursor.rest.length
        return breaks.drop 1 ++ (← doubleQuoted fuel)
      else return (← escape) :: (← doubleQuoted fuel)
    | c :: _ =>
      if isSpace c || isBreak c then return (← takeGap 0).text ++ (← doubleQuoted fuel)
      else
        skipOne
        return c :: (← doubleQuoted fuel)

/-! ## §4. Blocks. -/

/-- What becomes of the line breaks at the end of a block. -/
inductive Chomping where
  | strip
  | clip
  | keep
  deriving Repr, DecidableEq

/-- The chomping that a sign asks for. -/
def Chomping.ofSign? (c : Char) : Option Chomping :=
  match c with
  | '-' => some .strip
  | '+' => some .keep
  | _ => none

/-- A sign of a kind that is ahead, passed over. -/
def sign? {α : Type} (read : Char → Option α) : Parser (Option α) := do
  match (← ahead).head?.bind read with
  | some value =>
    skipOne
    return some value
  | none => return none

/-- The head of a block behind its sign: its indentation, if it is given, and its chomping, in
either order.  An indentation is one digit and not zero. -/
def blockHead : Parser (Option Nat × Chomping) := do
  let digit? (c : Char) : Option Nat :=
    if c.isDigit then some (c.toNat - '0'.toNat) else none
  let before ← sign? Chomping.ofSign?
  let indent ← sign? digit?
  let after ← if before.isNone && indent.isSome then sign? Chomping.ofSign? else pure none
  guard (indent ≠ some 0)
  return (indent, (before.or after).getD .clip)

/-- The empty lines before a line of a block, with fuel, as line breaks, and the column of the
longest of them or of the line.  Blanks count as indentation up to `indent`, or all if it is not
known; a tab among them is an error. -/
def blockBreaks (indent : Option Nat) : Nat → Parser (List Char × Nat)
  | 0 => return ([], 0)
  | fuel + 1 => do
    let start ← get
    let spaces := (start.rest.takeWhile (· == ' ')).length
    skipMany <| match indent with
      | some indent => min spaces (indent - start.column)
      | none => spaces
    let cursor ← get
    guard (! (indent.all (cursor.column < ·) && cursor.rest.head? = some '\t'))
    match cursor.rest.head?.filter isBreak with
    | none => return ([], cursor.column)
    | some c =>
      skipOne
      let (breaks, widest) ← blockBreaks indent fuel
      return (c :: breaks, max cursor.column widest)

/-- The lines of a block, with fuel, behind a line break `last` and the breaks of empty lines; gives
the text, the last line break and the breaks of the empty lines at the end. -/
def blockLines (literal : Bool) (indent : Nat) :
    Nat → Bool → List Char → List Char → Parser (List Char × List Char × List Char)
  | 0, _, last, empty => return ([], last, empty)
  | fuel + 1, blankBefore, last, empty => do
    let cursor ← get
    if cursor.column ≠ indent || cursor.rest.isEmpty then return ([], last, empty)
    let blankHere := cursor.rest.head?.any isSpace
    let joint : List Char :=
      if ! literal && last == ['\n'] && ! blankBefore && ! blankHere then
        Gap.folded (last ++ empty)
      else last ++ empty
    let line ← takeRun (! isBreak ·)
    let end? := (← ahead).head?
    skipOne
    let (empty, _) ← blockBreaks (some indent) ((← ahead).length + 1)
    let (text, last, empty) ← blockLines literal indent fuel blankHere end?.toList empty
    return (joint ++ line ++ text, last, empty)

/-- A block behind its sign, with lines that are indented to `low` at least. -/
def block (literal : Bool) (low : Nat) : Parser (List Char) := do
  let (given, chomping) ← blockHead
  finishLine
  let fuel := (← ahead).length + 1
  let indent? := given.map (low - 1 + ·)
  let (empty, widest) ← blockBreaks indent? fuel
  let indent := indent?.getD (max widest (max low 1))
  let (text, last, empty) ← blockLines literal indent fuel false [] empty
  match chomping with
  | .strip => return text
  | .clip => return text ++ last
  | .keep => return text ++ last ++ empty

end Flowprint.Yaml
