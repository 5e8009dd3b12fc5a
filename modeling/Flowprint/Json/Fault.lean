/-
  Flowprint.Json.Fault
  ────────────────────────────────
  What can be wrong with a JSON text that should hold a value of a known shape.

  A text is read from the left and the first problem met is reported: the grammar is broken, the
  text ends too early, or what stands there does not have the shape.
-/
import Flowprint.Decimal.Layout
import Flowprint.Text.Quoted

namespace Flowprint.Json

/-- What stands where something else was expected. -/
inductive Found where
  | null
  | bool (b : Bool)
  | int (n : Int)
  | float (x : Float)
  | text (s : String)
  | sequence
  | map
  /-- A bare name of a variant that carries a value. -/
  | unitVariant
  deriving Repr

/-- What stands there, in words. -/
def Found.describe : Found → String
  | .null => "null"
  | .bool b => s!"boolean `{b}`"
  | .int n => s!"integer `{n}`"
  | .float x => s!"floating point `{Decimal.withPoint x}`"
  | .text s => s!"string {Text.quoted s}"
  | .sequence => "sequence"
  | .map => "map"
  | .unitVariant => "unit variant"

/-- How a well-formed text fails to have a shape. -/
inductive Mismatch where
  /-- A value of another type. -/
  | wrongType (found : Found) (expected : String)
  /-- A value of the type, but outside its range. -/
  | outOfRange (found : Found) (expected : String)
  /-- A sequence with this many items, too few for the fields of a record. -/
  | tooShort (items : Nat) (expected : String)
  /-- A name that is none of the variants. -/
  | unknownVariant (name : String) (variants : List String)
  /-- A record without a field it needs. -/
  | missingField (name : String)
  /-- A record with a field twice. -/
  | duplicateField (name : String)
  deriving Repr

/-- A choice of names. -/
def oneOf : List String → String
  | [] => "there are no variants"
  | [a] => s!"expected `{a}`"
  | [a, b] => s!"expected `{a}` or `{b}`"
  | names => "expected one of " ++ ", ".intercalate (names.map fun name => s!"`{name}`")

/-- The sentence that names a mismatch. -/
def Mismatch.message : Mismatch → String
  | .wrongType found expected => s!"invalid type: {found.describe}, expected {expected}"
  | .outOfRange found expected => s!"invalid value: {found.describe}, expected {expected}"
  | .tooShort items expected => s!"invalid length {items}, expected {expected}"
  | .unknownVariant name variants => s!"unknown variant `{name}`, {oneOf variants}"
  | .missingField name => s!"missing field `{name}`"
  | .duplicateField name => s!"duplicate field `{name}`"

/-- The first problem met in a text. -/
inductive Fault where
  /-- The text breaks the grammar. -/
  | malformed
  /-- The text ends within a value. -/
  | truncated
  /-- A value does not have the shape. -/
  | mismatch (cause : Mismatch)
  deriving Repr

end Flowprint.Json
