/-
  Flowprint.Json.Shape
  ────────────────────────────────
  Readers of JSON texts into values of known shapes: numbers of a range, texts, lists, optional
  values, records and choices.

  A record is written as an object or as the list of its fields in order.  In an object the fields
  come in any order, fields that the record does not know are passed over, and a field given twice
  is refused at its second key.  A field that is missing takes its default if it has one.
-/
import Flowprint.Json.Scan

namespace Flowprint.Json

/-! ## §1. Faults. -/

/-- A fault of shape. -/
def misfit (cause : Mismatch) : Fault :=
  .mismatch cause

/-- A number where something else was expected. -/
def Number.found : Number → Found
  | .int n => .int n
  | .float x => .float x

/-- The fault of a value of another type than expected, blanks in front of it taken.  A name, a
number or a text is read to its end first, and a problem within it comes before its type. -/
def wrongType (expected : String) (s : List Char) : Fault :=
  let report (found : Found) : Fault := misfit (.wrongType found expected)
  let after {α : Type} (scan : Except Fault α) (found : α → Found) : Fault :=
    match scan with
    | .ok a => report (found a)
    | .error fault => fault
  match s with
  | [] => .truncated
  | 'n' :: rest => after (scanName ['u', 'l', 'l'] rest) fun _ => .null
  | 't' :: rest => after (scanName ['r', 'u', 'e'] rest) fun _ => .bool true
  | 'f' :: rest => after (scanName ['a', 'l', 's', 'e'] rest) fun _ => .bool false
  | '-' :: rest => after (scanUnsigned true rest) fun (n, _) => n.found
  | '"' :: rest => after (scanText rest) fun (text, _) => .text text
  | '[' :: _ => report .sequence
  | '\x7b' :: _ => report .map
  | c :: rest =>
    if c.isDigit then after (scanUnsigned false (c :: rest)) fun (n, _) => n.found
    else .malformed

/-! ## §2. Atoms. -/

/-- A number, checked and converted by `convert`. -/
def number {α : Type} (expected : String) (convert : Number → Except Mismatch α) : Scanner α :=
  fun s =>
    let s := skipBlanks s
    let scanned := match s with
      | '-' :: rest => scanUnsigned true rest
      | _ => if startsDigit s then scanUnsigned false s else .error (wrongType expected s)
    match scanned with
    | .error fault => .error fault
    | .ok (n, rest) =>
      match convert n with
      | .ok a => .ok (a, rest)
      | .error cause => .error (misfit cause)

/-- An integer from `low` on and below `high`. -/
def integer (expected : String) (low high : Int) : Scanner Int :=
  number expected fun n =>
    match n with
    | .int n => if low ≤ n ∧ n < high then .ok n else .error (.outOfRange (.int n) expected)
    | .float x => .error (.wrongType (.float x) expected)

/-- Apply a function to what a scanner finds. -/
def Scanner.map {α β : Type} (f : α → β) (scanner : Scanner α) : Scanner β := fun s =>
  match scanner s with
  | .ok (a, rest) => .ok (f a, rest)
  | .error fault => .error fault

/-- An unsigned integer of 64 bits. -/
def word64 : Scanner UInt64 :=
  (integer "u64" 0 UInt64.size).map fun n => .ofNat n.toNat

/-- An unsigned integer of 32 bits. -/
def word32 : Scanner UInt32 :=
  (integer "u32" 0 UInt32.size).map fun n => .ofNat n.toNat

/-- A count. -/
def count : Scanner Nat :=
  (integer "usize" 0 UInt64.size).map Int.toNat

/-- A signed integer of 64 bits. -/
def signed64 : Scanner Int :=
  integer "i64" (-0x8000000000000000) 0x8000000000000000

/-- A signed integer of 32 bits. -/
def signed32 : Scanner Int :=
  integer "i32" (-0x80000000) 0x80000000

/-- A floating-point number; an integer counts as one. -/
def float : Scanner Float :=
  number "f64" fun n =>
    match n with
    | .int (.ofNat n) => .ok (UInt64.ofNat n).toFloat
    | .int (.negSucc n) => .ok (-(UInt64.ofNat (n + 1)).toFloat)
    | .float x => .ok x

/-- An unsigned integer of 128 bits.  Here a sign or a value out of range breaks the grammar. -/
def word128 : Scanner (BitVec 128) := fun s =>
  match skipBlanks s with
  | [] => .error .truncated
  | '0' :: rest => if startsDigit rest then .error .malformed else .ok (0, rest)
  | s =>
    match Text.Radix.read 10 Text.Radix.size128 (s.takeWhile Char.isDigit) with
    | .ok n => .ok (.ofNat 128 n, s.dropWhile Char.isDigit)
    | .error _ => .error .malformed

/-- A truth value. -/
def bool : Scanner Bool := fun s =>
  match skipBlanks s with
  | 't' :: rest => (scanName ['r', 'u', 'e'] rest).map (true, ·)
  | 'f' :: rest => (scanName ['a', 'l', 's', 'e'] rest).map (false, ·)
  | s => .error (wrongType "a boolean" s)

/-- A text that plays the given role. -/
def textAs (expected : String) : Scanner String := fun s =>
  match skipBlanks s with
  | '"' :: rest => scanText rest
  | s => .error (wrongType expected s)

/-- A text. -/
def text : Scanner String :=
  textAs "a string"

/-- The path of a file. -/
def path : Scanner String :=
  textAs "path string"

/-- The absent value. -/
def unit : Scanner Unit := fun s =>
  match skipBlanks s with
  | 'n' :: rest => (scanName ['u', 'l', 'l'] rest).map ((), ·)
  | s => .error (wrongType "unit" s)

/-- A value, or the absent value in its place. -/
def optional {α : Type} (scanner : Scanner α) : Scanner (Option α) := fun s =>
  match skipBlanks s with
  | 'n' :: rest => (scanName ['u', 'l', 'l'] rest).map (none, ·)
  | s => scanner.map some s

/-! ## §3. Lists. -/

/-- Whether another item follows in a list, and the text from there on; `first` says that none has
been read yet. -/
def nextItem (first : Bool) (s : List Char) : Except Fault (Bool × List Char) :=
  match skipBlanks s with
  | [] => .error .truncated
  | ']' :: rest => .ok (false, ']' :: rest)
  | c :: rest =>
    if first then .ok (true, c :: rest)
    else if c = ',' then
      match skipBlanks rest with
      | [] => .error .truncated
      | ']' :: _ => .error .malformed
      | rest => .ok (true, rest)
    else .error .malformed

/-- The items of a list behind its opening, with fuel for its length. -/
def items {α : Type} (item : Scanner α) : Nat → Bool → Scanner (List α)
  | 0, _, _ => .error .truncated
  | fuel + 1, first, s => do
    match ← nextItem first s with
    | (false, rest) => return ([], rest)
    | (true, rest) =>
      let (a, rest) ← item rest
      let (as, rest) ← items item fuel false rest
      return (a :: as, rest)

/-- The end of a list. -/
def closeList (s : List Char) : Except Fault (List Char) :=
  match skipBlanks s with
  | [] => .error .truncated
  | ']' :: rest => .ok rest
  | _ => .error .malformed

/-- A list. -/
def list {α : Type} (item : Scanner α) : Scanner (List α) := fun s =>
  match skipBlanks s with
  | '[' :: rest => do
    let (as, rest) ← items item (rest.length + 1) true rest
    return (as, ← closeList rest)
  | s => .error (wrongType "a sequence" s)

/-! ## §4. Records. -/

/-- A field of a record: its name, its reader, and the value it has when it is missing. -/
structure Field (β : Type) where
  name : String
  read : Scanner β
  absent : Option β

/-- A field that must be there. -/
def Field.required {β : Type} (name : String) (read : Scanner β) : Field β :=
  ⟨name, read, none⟩

/-- A field with a default. -/
def Field.withDefault {β : Type} (name : String) (read : Scanner β) (value : β) : Field β :=
  ⟨name, read, some value⟩

/-- The fields of a record in order, by the types of their values. -/
inductive Fields : List Type → Type 1 where
  | nil : Fields []
  | cons {β : Type} {βs : List Type} (field : Field β) (rest : Fields βs) : Fields (β :: βs)

/-- One value per field. -/
def Values : List Type → Type
  | [] => Unit
  | β :: βs => β × Values βs

/-- The values read so far. -/
def Draft : List Type → Type
  | [] => Unit
  | β :: βs => Option β × Draft βs

namespace Fields

/-- The number of fields. -/
def size {βs : List Type} : Fields βs → Nat
  | .nil => 0
  | .cons _ rest => rest.size + 1

/-- Nothing read yet. -/
def blank {βs : List Type} : Fields βs → Draft βs
  | .nil => ()
  | .cons _ rest => (none, rest.blank)

/-- How to read the value of a named field into a draft: nothing for a field that the record does
not know, a fault for one that has been read. -/
def place? (name : String) {βs : List Type} :
    Fields βs → Draft βs → Option (Except Mismatch (Scanner (Draft βs)))
  | .nil, _ => none
  | .cons field rest, (value, values) =>
    if field.name = name then
      match value with
      | some _ => some (.error (.duplicateField name))
      | none => some (.ok (field.read.map fun value => (some value, values)))
    else
      (rest.place? name values).map fun found =>
        found.map fun scanner => scanner.map fun values => (value, values)

/-- The values of a draft, defaults in the places of missing fields. -/
def close {βs : List Type} : Fields βs → Draft βs → Except Mismatch (Values βs)
  | .nil, _ => .ok ()
  | .cons field rest, (value, values) =>
    match value.or field.absent with
    | none => .error (.missingField field.name)
    | some value =>
      match rest.close values with
      | .ok values => .ok (value, values)
      | .error cause => .error cause

/-- The values of the fields from number `index` on as the items of a list; `expected` names the
record. -/
def sequence (expected : String) {βs : List Type} :
    Fields βs → Nat → Scanner (Values βs)
  | .nil, _, s => .ok ((), s)
  | .cons field rest, index, s => do
    let (value, s) ← match ← nextItem (index = 0) s with
      | (true, s) => field.read s
      | (false, s) =>
        match field.absent with
        | some value => pure (value, s)
        | none => throw (misfit (.tooShort index expected))
    let (values, s) ← rest.sequence expected (index + 1) s
    return ((value, values), s)

end Fields

/-- Whether another key follows in an object, and the text behind its opening quote; `first` says
that none has been read yet. -/
def nextKey (first : Bool) (s : List Char) : Except Fault (Option (List Char) × List Char) :=
  let key (s : List Char) : Except Fault (Option (List Char) × List Char) :=
    match s with
    | '"' :: rest => .ok (some rest, rest)
    | _ => .error .malformed
  match skipBlanks s with
  | [] => .error .truncated
  | '\x7d' :: rest => .ok (none, rest)
  | c :: rest =>
    if first then key (c :: rest)
    else if c = ',' then
      match skipBlanks rest with
      | [] => .error .truncated
      | rest => key rest
    else .error .malformed

/-- The text behind a colon. -/
def passColon (s : List Char) : Except Fault (List Char) :=
  match skipBlanks s with
  | [] => .error .truncated
  | ':' :: rest => .ok rest
  | _ => .error .malformed

/-- The members of an object read into a draft, with fuel for its length; its closing included. -/
def members {βs : List Type} (fields : Fields βs) : Nat → Bool → Draft βs → Scanner (Draft βs)
  | 0, _, _, _ => .error .truncated
  | fuel + 1, first, draft, s => do
    match ← nextKey first s with
    | (none, rest) => return (draft, rest)
    | (some rest, _) =>
      let (name, rest) ← scanText rest
      match fields.place? name draft with
      | none => members fields fuel false draft (← passValue (← passColon rest))
      | some (.error cause) => throw (misfit cause)
      | some (.ok read) =>
        let (draft, rest) ← read (← passColon rest)
        members fields fuel false draft rest

/-- The name of a record with its number of fields. -/
def sized (what : String) (size : Nat) : String :=
  let noun := if size = 1 then "element" else "elements"
  s!"{what} with {size} {noun}"

/-- The values of a record of the given name. -/
def recordAs (what : String) {βs : List Type} (fields : Fields βs) : Scanner (Values βs) := fun s =>
  match skipBlanks s with
  | '\x7b' :: rest => do
    let (draft, rest) ← members fields (rest.length + 1) true fields.blank rest
    match fields.close draft with
    | .ok values => return (values, rest)
    | .error cause => throw (misfit cause)
  | '[' :: rest => do
    let (values, rest) ← fields.sequence (sized what fields.size) 0 rest
    return (values, ← closeList rest)
  | s => .error (wrongType what s)

/-- The values of a record. -/
def record (name : String) {βs : List Type} (fields : Fields βs) : Scanner (Values βs) :=
  recordAs s!"struct {name}" fields

/-! ## §5. Choices. -/

/-- What a variant carries. -/
inductive Payload (α : Type) where
  /-- Nothing. -/
  | nothing (value : α)
  /-- One value. -/
  | one (read : Scanner α)
  /-- The fields of a record. -/
  | fields (read : Scanner α)

/-- A named variant of a choice. -/
structure Variant (α : Type) where
  name : String
  payload : Payload α

/-- The payload of a variant given by its bare name. -/
def Payload.bare {α : Type} : Payload α → Except Mismatch α
  | .nothing value => .ok value
  | .one _ => .error (.wrongType .unitVariant "newtype variant")
  | .fields _ => .error (.wrongType .unitVariant "struct variant")

/-- The reader of a payload behind the name of its variant. -/
def Payload.read {α : Type} : Payload α → Scanner α
  | .nothing value => unit.map fun _ => value
  | .one read => read
  | .fields read => read

/-- The variant of a name. -/
def select {α : Type} (variants : List (Variant α)) (name : String) :
    Except Fault (Variant α) :=
  match variants.find? (·.name = name) with
  | some found => .ok found
  | none => .error (misfit (.unknownVariant name (variants.map (·.name))))

/-- A choice: the name of a variant that carries nothing, or an object with the name of a variant
as its only key and the payload as its value. -/
def choice {α : Type} (variants : List (Variant α)) : Scanner α := fun s =>
  match skipBlanks s with
  | [] => .error .truncated
  | '"' :: rest => do
    let (name, rest) ← scanText rest
    match (← select variants name).payload.bare with
    | .ok value => return (value, rest)
    | .error cause => throw (misfit cause)
  | '\x7b' :: rest => do
    let (some rest, _) ← nextKey true rest | throw .malformed
    let (name, rest) ← scanText rest
    let found ← select variants name
    let (value, rest) ← found.payload.read (← passColon rest)
    match skipBlanks rest with
    | [] => throw .truncated
    | '\x7d' :: rest => return (value, rest)
    | _ => throw .malformed
  | _ => .error .malformed

/-! ## §6. Documents. -/

/-- The value that a whole text holds. -/
def parse {α : Type} (scanner : Scanner α) (s : String) : Except Fault α := do
  let (a, rest) ← scanner s.toList
  if (skipBlanks rest).isEmpty then return a else throw .malformed

end Flowprint.Json
