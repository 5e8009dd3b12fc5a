/-
  Flowprint.Feature.Weight
  ────────────────────────────────
  Learned weights of features, and the text files that hold them.

  A file has one entry per line: an identity, bare or tagged, and a number.  Blank lines and lines
  that begin with `#` say nothing.  Of two entries for one identity the later counts.  Weights in a
  file are finite; a table in memory may hold any number.
-/
import Flowprint.Decimal.Layout
import Flowprint.Decimal.Reader
import Flowprint.Feature.Basic
import Flowprint.Text.Blank
import Std.Data.ExtTreeMap

namespace Flowprint

open Std

/-- The weights of some features. -/
abbrev Weights := ExtTreeMap FeatureId Float

namespace Weights

/-- The weight of an identity, if the table has one. -/
def find? (table : Weights) (id : FeatureId) : Option Float :=
  table[id]?

/-- The table into which entries are inserted one after the other. -/
def ofEntries (entries : List (FeatureId × Float)) : Weights :=
  entries.foldl (fun table entry => table.insert entry.1 entry.2) ∅

/-- Why a line is no entry. -/
inductive EntryFault where
  /-- There are not exactly two words. -/
  | wrongShape
  /-- The first word is no identity. -/
  | wrongId (cause : FeatureId.ReadFault)
  /-- The second word is no number. -/
  | wrongNumber
  /-- The number is not finite. -/
  | notFinite
  deriving Repr, DecidableEq

/-- The sentence that names a fault. -/
def EntryFault.message : EntryFault → String
  | .wrongShape => "expected `<feature-id> <weight>`"
  | .wrongId cause => cause.message
  | .wrongNumber => "invalid float literal"
  | .notFinite => "weight must be a finite number"

/-- A line that is no entry, by its number from one and its text. -/
structure Malformed where
  line : Nat
  content : String
  cause : EntryFault
  deriving Repr, DecidableEq

/-- The sentence that names a malformed line. -/
def Malformed.message (fault : Malformed) : String :=
  s!"Malformed weight entry on line {fault.line}: {Text.quoted fault.content} "
    ++ s!"({fault.cause.message})"

/-! ## §1. Reading. -/

/-- Whether a trimmed line says nothing. -/
def isRemark (line : List Char) : Bool :=
  line.isEmpty || line.head? == some '#'

/-- The entry of a trimmed line. -/
def readEntry (line : List Char) : Except EntryFault (FeatureId × Float) :=
  match Text.words line with
  | [id, weight] =>
    match FeatureId.read (.ofList id) with
    | .error cause => .error (.wrongId cause)
    | .ok id =>
      match Decimal.read? weight with
      | none => .error .wrongNumber
      | some weight => if weight.isFinite then .ok (id, weight) else .error .notFinite
  | _ => .error .wrongShape

/-- A table with the entries of lines, the first of which has the given number. -/
def readLines : Nat → List (List Char) → Weights → Except Malformed Weights
  | _, [], table => .ok table
  | number, raw :: rest, table =>
    let line := Text.trim raw
    if isRemark line then readLines (number + 1) rest table
    else
      match readEntry line with
      | .ok (id, weight) => readLines (number + 1) rest (table.insert id weight)
      | .error cause => .error ⟨number, .ofList raw, cause⟩

/-- The table that a file holds. -/
def parse (text : String) : Except Malformed Weights :=
  readLines 1 (Text.lines text.toList) ∅

/-! ## §2. Writing. -/

/-- An entry as a line. -/
def entryLine (entry : FeatureId × Float) : String :=
  s!"{entry.1.text} {Decimal.plain entry.2}\n"

/-- A table as a file, identities ascending. -/
def render (table : Weights) : String :=
  String.join (table.toList.map entryLine)

/-! ## §3. Comparison. -/

/-- Whether two tables give the same weights to the same identities; a weight that is no number
equals none. -/
def same (a b : Weights) : Bool :=
  a.size == b.size && a.toList.all fun (id, weight) => b[id]?.any (· == weight)

end Weights

end Flowprint
