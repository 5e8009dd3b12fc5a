/-
  Flowprint.Yaml.Token
  ────────────────────────────────
  The tokens of a YAML text.

  Besides what is written, the tokens tell where parts by indentation begin and end.  Such a part
  begins where a dash or a key stands further in than the part around it, and ends before the first
  token that stands less far in.  That something was a key shows only at the colon behind it, so its
  token is put in front of it then; a key without a question mark stands on one line and takes 1024
  bytes at most.
-/
import Flowprint.Yaml.Scalar
import Flowprint.Yaml.Tag

namespace Flowprint.Yaml

/-- The written forms of a text that matter for what it means. -/
inductive Style where
  /-- Without quotes. -/
  | plain
  /-- As a block kept line by line. -/
  | literal
  /-- In quotes, or as a block whose lines are joined. -/
  | other
  deriving Repr, DecidableEq

/-- A token of a text. -/
inductive Token where
  | directive (directive : Tag.Directive)
  | documentStart
  | documentEnd
  /-- The beginning of a list by indentation. -/
  | listStart
  /-- The beginning of a map by indentation. -/
  | mapStart
  /-- The end of a list or a map by indentation. -/
  | partEnd
  | openBracket
  | closeBracket
  | openBrace
  | closeBrace
  | dash
  | comma
  /-- A key comes next. -/
  | key
  /-- The value of a key comes next. -/
  | value
  /-- The name of the part that comes next. -/
  | name (name : String)
  /-- The name of the part that stands here. -/
  | reference (name : String)
  /-- The tag of the part that comes next: its handle and the rest. -/
  | tag (handle : String) (rest : Tag)
  | scalar (text : String) (style : Style)
  deriving Repr, DecidableEq

/-! ## §1. Lexers. -/

/-- A place where a key may have begun. -/
structure KeyStart where
  /-- The number of tokens before it. -/
  number : Nat
  column : Nat
  bytes : Nat
  line : Nat
  /-- Whether only a key can stand there. -/
  required : Bool
  deriving Repr

/-- A reader of tokens. -/
structure Lexer where
  cursor : Cursor
  tokens : Array Token := #[]
  /-- The columns of the open parts by indentation, the innermost first. -/
  columns : List Nat := []
  /-- Whether a key may begin here. -/
  keyAllowed : Bool := true
  /-- Where the last key within the innermost brackets may have begun. -/
  keyStart : Option KeyStart := none
  /-- The same for the brackets around them, one for each. -/
  outer : List (Option KeyStart) := []
  deriving Repr

/-- A step of a lexer, which fails where the text is malformed. -/
abbrev LexerM (α : Type) := StateT Lexer Option α

namespace Lexer

/-- Whether a lexer is within brackets. -/
def flow (lexer : Lexer) : Bool :=
  ! lexer.outer.isEmpty

/-- The column from which on a part stands further in than the innermost open one. -/
def low (lexer : Lexer) : Nat :=
  match lexer.columns with
  | [] => 0
  | column :: _ => column + 1

/-- The lexer behind one more token. -/
def push (lexer : Lexer) (token : Token) : Lexer :=
  { lexer with tokens := lexer.tokens.push token }

/-- The lexer behind the end of every part by indentation whose column is not below `low`; within
brackets none ends. -/
def close (low : Nat) (lexer : Lexer) : Lexer :=
  if lexer.flow then lexer else
  let ended := lexer.columns.takeWhile (low ≤ ·)
  { lexer with
    tokens := lexer.tokens ++ ended.map fun _ => Token.partEnd
    columns := lexer.columns.drop ended.length }

/-- The lexer behind the beginning of a part by indentation at a column, which it puts before the
token with the given number, if none is open there. -/
def openAt (column number : Nat) (start : Token) (lexer : Lexer) : Lexer :=
  if lexer.flow || column < lexer.low then lexer
  else { lexer with
    tokens := lexer.tokens.insertIdxIfInBounds number start
    columns := column :: lexer.columns }

end Lexer

/-- What a reader of texts reads at the position of the lexer. -/
def scan {α : Type} (parser : Parser α) : LexerM α := do
  let lexer ← get
  match parser lexer.cursor with
  | some (a, cursor) =>
    set { lexer with cursor }
    return a
  | none => failure

/-- Read one token. -/
def emit (token : Token) : LexerM Unit :=
  modify (·.push token)

/-- Say whether a key may begin at the next token. -/
def allowKey (keyAllowed : Bool) : LexerM Unit :=
  modify ({ · with keyAllowed })

/-! ## §2. Keys. -/

/-- Give up the place where a key may have begun; one is missing if only a key could stand there. -/
def dropKeyStart : LexerM Unit := do
  guard (! (← get).keyStart.any (·.required))
  modify ({ · with keyStart := none })

/-- Note that a key may begin here. -/
def noteKeyStart : LexerM Unit := do
  let lexer ← get
  if lexer.keyAllowed then
    dropKeyStart
    let cursor := lexer.cursor
    let required := ! lexer.flow && lexer.columns.head? = some cursor.column
    modify ({ · with
      keyStart := some ⟨lexer.tokens.size, cursor.column, cursor.bytes, cursor.line, required⟩ })

/-- Whether a key that began at a place would be too long by now, or on two lines. -/
def KeyStart.isPast (cursor : Cursor) (start : KeyStart) : Bool :=
  start.line < cursor.line || start.bytes + 1024 < cursor.bytes

/-- Give up the places where a key can no longer have begun. -/
def dropPastKeyStarts : LexerM Unit := do
  let lexer ← get
  let past := KeyStart.isPast lexer.cursor
  guard (! (lexer.keyStart :: lexer.outer).any (·.any fun start => past start && start.required))
  set { lexer with
    keyStart := lexer.keyStart.filter (! past ·)
    outer := lexer.outer.map (Option.filter (! past ·)) }

/-! ## §3. Tokens. -/

/-- A token of one character, behind which a key may begin or not. -/
def oneSign (token : Token) (key : Bool) : LexerM Unit := do
  scan skipOne
  allowKey key
  emit token

/-- The opening of brackets. -/
def lexOpen (token : Token) : LexerM Unit := do
  noteKeyStart
  modify fun lexer => { lexer with keyStart := none, outer := lexer.keyStart :: lexer.outer }
  oneSign token true

/-- The closing of brackets. -/
def lexClose (token : Token) : LexerM Unit := do
  dropKeyStart
  match (← get).outer with
  | [] => failure
  | keyStart :: outer => modify ({ · with keyStart, outer })
  oneSign token false

/-- A sign that may open a part by indentation at its column, where a key may begin as well. -/
def lexIndented (start : Token) : LexerM Unit := do
  let lexer ← get
  guard (lexer.flow || lexer.keyAllowed)
  modify (·.openAt lexer.cursor.column lexer.tokens.size start)

/-- The dash of an item. -/
def lexDash : LexerM Unit := do
  lexIndented .listStart
  dropKeyStart
  oneSign .dash true

/-- The question mark before a key. -/
def lexKey : LexerM Unit := do
  lexIndented .mapStart
  dropKeyStart
  oneSign .key (! (← get).flow)

/-- The colon before a value; what came last was a key if it can have been one. -/
def lexValue : LexerM Unit := do
  match (← get).keyStart with
  | some start =>
    modify fun lexer => { lexer with
      tokens := lexer.tokens.insertIdxIfInBounds start.number .key
      keyStart := none }
    modify (·.openAt start.column start.number .mapStart)
    oneSign .value false
  | none =>
    lexIndented .mapStart
    oneSign .value (! (← get).flow)

/-- The name of a part, behind a sign. -/
def lexName (token : String → Token) : LexerM Unit := do
  noteKeyStart
  allowKey false
  scan skipOne
  let name ← scan (takeRun isNameChar)
  let rest ← scan ahead
  guard (! name.isEmpty && (endsWord rest || rest.head?.any ("?:,]\x7d%@\x60".contains ·)))
  emit (token (.ofList name))

/-- The tag of a part. -/
def lexTag : LexerM Unit := do
  noteKeyStart
  allowKey false
  let (handle, rest) ← scan (Tag.written (← get).flow)
  emit (.tag handle rest)

/-- A text as a block. -/
def lexBlock (literal : Bool) : LexerM Unit := do
  dropKeyStart
  allowKey true
  scan skipOne
  let text ← scan (block literal (← get).low)
  emit (.scalar (.ofList text) (if literal then .literal else .other))

/-- A text in quotes. -/
def lexQuoted (parser : Nat → Parser (List Char)) : LexerM Unit := do
  noteKeyStart
  allowKey false
  scan skipOne
  let text ← scan (parser ((← scan ahead).length + 1))
  emit (.scalar (.ofList text) .other)

/-- A text without quotes.  If it ends behind a line break, a key may begin there. -/
def lexPlain : LexerM Unit := do
  let lexer ← get
  guard (startsPlain lexer.flow lexer.cursor.rest)
  noteKeyStart
  let (text, broken) ← scan (plain lexer.flow lexer.low)
  allowKey broken
  emit (.scalar (.ofList text) .plain)

/-- A token that ends what came before it: a line before a document or a mark between two. -/
def lexBoundary (parser : Parser Token) : LexerM Unit := do
  modify (·.close 0)
  dropKeyStart
  allowKey false
  emit (← scan parser)

/-- Pass over what stands before the next token, and end the parts by indentation that it is not
within. -/
def advance : LexerM Unit := do
  let lexer ← get
  let broken ← scan <|
    skipToText lexer.flow (lexer.cursor.rest.length + 1) (lexer.flow || ! lexer.keyAllowed)
  if broken && ! lexer.flow then allowKey true
  dropPastKeyStarts
  modify fun lexer => lexer.close (lexer.cursor.column + 1)

/-- The token at the position of the lexer, which is not at the end of the text. -/
def lexToken : LexerM Unit := do
  let lexer ← get
  let cursor := lexer.cursor
  let standsAlone := endsWord (cursor.rest.drop 1)
  if cursor.column = 0 && cursor.rest.head? = some '%' then
    lexBoundary (return .directive (← Tag.directive))
  else if cursor.atRule '-' then lexBoundary (skipMany 3 *> pure .documentStart)
  else if cursor.atRule '.' then lexBoundary (skipMany 3 *> pure .documentEnd)
  else match cursor.rest with
  | '[' :: _ => lexOpen .openBracket
  | '\x7b' :: _ => lexOpen .openBrace
  | ']' :: _ => lexClose .closeBracket
  | '\x7d' :: _ => lexClose .closeBrace
  | ',' :: _ =>
    dropKeyStart
    oneSign .comma true
  | '*' :: _ => lexName .reference
  | '&' :: _ => lexName .name
  | '!' :: _ => lexTag
  | '\'' :: _ => lexQuoted singleQuoted
  | '"' :: _ => lexQuoted doubleQuoted
  | '-' :: _ => if standsAlone then lexDash else lexPlain
  | '?' :: _ => if lexer.flow || standsAlone then lexKey else lexPlain
  | ':' :: _ => if lexer.flow || standsAlone then lexValue else lexPlain
  | '|' :: _ => if lexer.flow then failure else lexBlock true
  | '>' :: _ => if lexer.flow then failure else lexBlock false
  | _ => lexPlain

/-- The tokens up to the end of the text, with fuel; no key may be missing there. -/
def lexAll : Nat → LexerM Unit
  | 0 => failure
  | fuel + 1 => do
    advance
    if (← get).cursor.rest.isEmpty then
      modify (·.close 0)
      dropKeyStart
    else
      lexToken
      lexAll fuel

/-- The tokens of a text. -/
def tokens? (s : String) : Option (List Token) := do
  let cursor ← Cursor.start? s
  let (_, lexer) ← lexAll (cursor.rest.length + 1) { cursor }
  return lexer.tokens.toList

end Flowprint.Yaml
