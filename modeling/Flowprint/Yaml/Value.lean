/-
  Flowprint.Yaml.Value
  ────────────────────────────────
  Values of known types in YAML documents.

  A number or a truth value is a plain text of a certain form, whatever its tag, or a block kept line
  by line whose tag says its kind; a text is any text at all.  A record is a map, or nothing; a field
  that it lacks has its default, and fields that it does not know are passed over.
-/
import Flowprint.Decimal.Reader
import Flowprint.Text.Radix
import Flowprint.Yaml.Node

namespace Flowprint.Yaml

/-! ## §1. Texts and numbers. -/

/-- Whether digits are no decimal number, for they begin with a zero. -/
def padsZero (digits : List Char) : Bool :=
  match digits with
  | '0' :: d :: rest => (d :: rest).all Char.isDigit
  | _ => false

/-- Whether a text begins with a sign. -/
def signed : List Char → Bool
  | '+' :: _ => true
  | '-' :: _ => true
  | _ => false

/-- The digits of a number in a base, if they are such. -/
def digits? (base bound : Nat) (s : List Char) : Option Nat :=
  if signed s then none else (Text.Radix.read base bound s).toOption

/-- The number below `bound` that a plain text denotes. -/
def number? (bound : Nat) (s : List Char) : Option Nat :=
  let s := match s with
    | '+' :: rest => rest
    | s => s
  match s with
  | '0' :: 'x' :: rest => digits? 16 bound rest
  | '0' :: 'o' :: rest => digits? 8 bound rest
  | '0' :: 'b' :: rest => digits? 2 bound rest
  | s => if padsZero s then none else digits? 10 bound s

/-- The infinite number. -/
def infinity : Float := Float.ofBits 0x7ff0000000000000

/-- The value that is no number. -/
def notANumber : Float := Float.ofBits 0x7ff8000000000000

/-- The floating-point number that a plain text denotes. -/
def float? (s : List Char) : Option Float :=
  let unsigned := match s with
    | '+' :: rest => rest
    | s => s
  let text := String.ofList unsigned
  if s.head? = some '+' && signed unsigned then none
  else if [".inf", ".Inf", ".INF"].contains text then some infinity
  else if ["-.inf", "-.Inf", "-.INF"].contains (.ofList s) then some (-infinity)
  else if [".nan", ".NaN", ".NAN"].contains (.ofList s) then some notANumber
  else (Decimal.read? unsigned).filter Float.isFinite

/-- The truth value that a plain text denotes. -/
def bool? (s : String) : Option Bool :=
  if ["true", "True", "TRUE"].contains s then some true
  else if ["false", "False", "FALSE"].contains s then some false
  else none

/-- Whether a text is a word for nothing. -/
def isNullWord (s : String) : Bool :=
  ["~", "null", "Null", "NULL"].contains s

/-- Whether a plain text stands for nothing. -/
def isNull (s : String) : Bool :=
  s.isEmpty || isNullWord s

/-! ## §2. Parts. -/

/-- A part of a document, together with the parts that references in it go to. -/
structure Part where
  node : Node
  named : List (Nat × Node)

/-- The whole of a document. -/
def Document.part (document : Document) : Part :=
  ⟨document.root, document.named⟩

namespace Part

/-- The tree of a part, which is no reference. -/
def tree (part : Part) : Node :=
  match part.node with
  | .reference slot => (part.named.lookup slot).getD .empty
  | node => node

/-- Whether a part is the empty plain text. -/
def isEmpty (part : Part) : Bool :=
  match part.tree with
  | .scalar text .plain _ => text.isEmpty
  | _ => false

/-- The text of a part. -/
def text? (part : Part) : Option String :=
  match part.tree with
  | .scalar text _ _ => some text
  | _ => none

/-- The text of a part that can be a value of a core kind. -/
def literal? (kind : String) (part : Part) : Option String :=
  match part.tree with
  | .scalar text .plain _ => some text
  | .scalar text .literal tag => if tag = some (Tag.core kind) then some text else none
  | _ => none

/-- The number below `bound` at a part. -/
def nat? (bound : Nat) (part : Part) : Option Nat :=
  (part.literal? "int").bind fun text => number? bound text.toList

/-- The word of 32 bits at a part. -/
def word32? (part : Part) : Option UInt32 :=
  (part.nat? UInt32.size).map .ofNat

/-- The word of 64 bits at a part. -/
def word64? (part : Part) : Option UInt64 :=
  (part.nat? UInt64.size).map .ofNat

/-- The count at a part. -/
def count? (part : Part) : Option Nat :=
  part.nat? UInt64.size

/-- The floating-point number at a part. -/
def float? (part : Part) : Option Float :=
  (part.literal? "float").bind fun text => Yaml.float? text.toList

/-- The truth value at a part. -/
def bool? (part : Part) : Option Bool :=
  (part.literal? "bool").bind Yaml.bool?

/-- Whether a part is nothing; a part with the tag of nothing must be a word for it. -/
def isNull? (part : Part) : Option Bool :=
  match part.tree with
  | .scalar text .plain none => some (isNull text)
  | .scalar text .plain (some tag) =>
    if tag ≠ Tag.core "null" then some false
    else if isNullWord text then some true
    else none
  | _ => some false

/-- What a part holds, if it is not nothing. -/
def optional? {α : Type} (read : Part → Option α) (part : Part) : Option (Option α) := do
  if ← part.isNull? then return none
  return some (← read part)

/-- The items of a part. -/
def list? {α : Type} (read : Part → Option α) (part : Part) : Option (List α) :=
  match part.tree with
  | .list items => items.mapM fun item => read { part with node := item }
  | _ => if part.isEmpty then some [] else none

/-- The name of a choice that carries nothing: the name in the tag of a part that is nothing
itself, or the text of the part. -/
def choice? (part : Part) : Option String :=
  match part.tree with
  | .scalar text style tag =>
    match tag.bind Tag.localName? with
    | some name => if style = .plain ∧ isNull text then some name else none
    | none => some text
  | _ => none

/-- The value of a choice that carries nothing. -/
def oneOf? {α : Type} (name : α → String) (values : List α) (part : Part) : Option α :=
  part.choice?.bind fun text => values.find? (name · = text)

/-! ## §3. Records. -/

/-- The entries of a map with the given names, none of which comes twice. -/
def named? (names : List String) : List (Part × Part) → Option (List (String × Part))
  | [] => some []
  | (key, value) :: rest => do
    let name ← key.text?
    let rest ← named? names rest
    if ! names.contains name then return rest
    guard (rest.lookup name).isNone
    return (name, value) :: rest

/-- The fields of a record with the given names. -/
def fields? (names : List String) (part : Part) : Option (List (String × Part)) :=
  match part.tree with
  | .map entries =>
    named? names <| entries.map fun (key, value) =>
      ({ part with node := key }, { part with node := value })
  | _ => if part.isEmpty then some [] else none

end Part

/-- A field of a record, or its default. -/
def field? {α : Type} (fields : List (String × Part)) (name : String) (read : Part → Option α)
    (default : α) : Option α :=
  match fields.lookup name with
  | none => some default
  | some part => read part

end Flowprint.Yaml
