/-
  Flowprint.Yaml.Node
  ────────────────────────────────
  YAML documents as trees.

  A part of a document is a text, a list or a map, or refers to a part that has a name.  A part of
  which nothing is written is the empty text.  A text holds at most one document.

  A name takes a slot, whose number is the number of names so far; one that is given again takes
  a new slot.  A reference goes to the slot that its name has at that point, and what the slot holds
  in the end is the part that took it last.
-/
import Flowprint.Yaml.Token

namespace Flowprint.Yaml

/-- A part of a document. -/
inductive Node where
  | scalar (text : String) (style : Style) (tag : Option Tag)
  | list (items : List Node)
  | map (entries : List (Node × Node))
  /-- The part in a slot. -/
  | reference (slot : Nat)

/-- The part of which nothing is written. -/
def Node.empty : Node :=
  .scalar "" .plain none

/-- A document: its tree, and the parts that have names, each with its slot, the last first. -/
structure Document where
  root : Node
  named : List (Nat × Node)

/-! ## §1. Readers of tokens. -/

/-- A reader of nodes at a place among the tokens. -/
structure NodeReader where
  tokens : List Token
  /-- What the handles of tags stand for. -/
  stems : List (String × Tag) := []
  /-- The slots of the names so far. -/
  slots : List (String × Nat) := []
  /-- The parts with names, each with its slot, in the order in which they begin. -/
  named : Array (Nat × Node) := #[]

/-- A step of a reader, which fails where the tokens are no document. -/
abbrev NodeM (α : Type) := StateT NodeReader Option α

/-- The token ahead. -/
def peek? : NodeM (Option Token) :=
  return (← get).tokens.head?

/-- Pass over a token. -/
def skipToken : NodeM Unit :=
  modify fun reader => { reader with tokens := reader.tokens.drop 1 }

/-- Pass over a given token, if it is ahead; tells whether it is. -/
def tryToken (token : Token) : NodeM Bool := do
  if (← peek?) = some token then
    skipToken
    return true
  else return false

/-! ## §2. Names and tags. -/

/-- Give a name to a part that begins here; gives the number of the part. -/
def beginNamed (name : String) : NodeM Nat := do
  let reader ← get
  let slot := reader.slots.length
  set { reader with
    slots := (name, slot) :: reader.slots.filter (·.1 != name)
    named := reader.named.push (slot, .empty) }
  return reader.named.size

/-- End a part that has a name. -/
def endNamed (number : Nat) (node : Node) : NodeM Unit :=
  modify fun reader => { reader with
    named := reader.named.modify number fun (slot, _) => (slot, node) }

/-- The slot of a name. -/
def slotOf (name : String) : NodeM Nat := do
  (← get).slots.lookup name

/-- The tag that a handle and the rest of a tag make. -/
def tagOf (handle : String) (rest : Tag) : NodeM Tag := do
  if handle.isEmpty then return rest
  let stem ← (← get).stems.lookup handle
  return stem ++ rest

/-- The name ahead, if there is one. -/
def name? : NodeM (Option String) := do
  match ← peek? with
  | some (.name name) =>
    skipToken
    return some name
  | _ => return none

/-- The tag ahead, if there is one. -/
def tag? : NodeM (Option Tag) := do
  match ← peek? with
  | some (.tag handle rest) =>
    skipToken
    return some (← tagOf handle rest)
  | _ => return none

/-- The name and the tag before a part, in either order. -/
def properties : NodeM (Option String × Option Tag) := do
  let first ← name?
  let tag ← tag?
  let second ← if first.isNone && tag.isSome then name? else pure none
  return (first.or second, tag)

/-! ## §3. Parts. -/

mutual

/-- A part, with fuel.  Only a `block` may be a list or a map by indentation, and only an
`indentless` one a list whose dashes are at the column of the key. -/
def readNode : Nat → (block indentless : Bool) → NodeM Node
  | 0, _, _ => failure
  | fuel + 1, block, indentless => do
    match ← peek? with
    | some (.reference name) =>
      skipToken
      return .reference (← slotOf name)
    | _ =>
      let (name, tag) ← properties
      let number ← name.mapM beginNamed
      let node ← readContent fuel block indentless tag (name.isSome || tag.isSome)
      if let some number := number then endNamed number node
      return node

/-- A part behind its name and its tag, with fuel; it may be left out if there are such. -/
def readContent : Nat → (block indentless : Bool) → Option Tag → Bool → NodeM Node
  | 0, _, _, _, _ => failure
  | fuel + 1, block, indentless, tag, mayLack => do
    match ← peek? with
    | some (.scalar text style) =>
      skipToken
      return .scalar text style (tag.filter (· != Tag.ofString "!"))
    | some .openBracket =>
      skipToken
      return .list (← flowItems fuel true)
    | some .openBrace =>
      skipToken
      return .map (← flowEntries fuel true)
    | token =>
      if token = some .dash ∧ indentless then return .list (← blockItems fuel true)
      else if token = some .listStart ∧ block then
        skipToken
        return .list (← blockItems fuel false)
      else if token = some .mapStart ∧ block then
        skipToken
        return .map (← blockEntries fuel)
      else
        guard mayLack
        return .scalar "" .plain tag

/-- A part, or nothing if the next token is one of `ends`, with fuel. -/
def readUnless : Nat → List Token → (block indentless : Bool) → NodeM Node
  | 0, _, _, _ => failure
  | fuel + 1, ends, block, indentless => do
    if (← peek?).any ends.contains then return .empty
    else readNode fuel block indentless

/-- The value of a key, with fuel; it may be left out. -/
def readValue : Nat → List Token → (block : Bool) → NodeM Node
  | 0, _, _ => failure
  | fuel + 1, ends, block => do
    if ← tryToken .value then readUnless fuel ends block block else return .empty

/-- The items of a list by indentation, with fuel. -/
def blockItems : Nat → (indentless : Bool) → NodeM (List Node)
  | 0, _ => failure
  | fuel + 1, indentless => do
    if ← tryToken .dash then
      let ends := if indentless then [.dash, .key, .value, .partEnd] else [.dash, .partEnd]
      let item ← readUnless fuel ends true false
      return item :: (← blockItems fuel indentless)
    else
      if ! indentless then guard (← tryToken .partEnd)
      return []

/-- The entries of a map by indentation, with fuel. -/
def blockEntries : Nat → NodeM (List (Node × Node))
  | 0 => failure
  | fuel + 1 => do
    let ends := [.key, .value, .partEnd]
    if ← tryToken .key then
      let key ← readUnless fuel ends true true
      let value ← readValue fuel ends true
      return (key, value) :: (← blockEntries fuel)
    else
      guard (← tryToken .partEnd)
      return []

/-- The items of a list in brackets, with fuel; between two of them there is a comma.  An item that
is marked as a key is a map of one entry; if the key is left out, so is the token in its place. -/
def flowItems : Nat → (first : Bool) → NodeM (List Node)
  | 0, _ => failure
  | fuel + 1, first => do
    if ← tryToken .closeBracket then return []
    if ! first then guard (← tryToken .comma)
    if ← tryToken .closeBracket then return []
    if ← tryToken .key then
      let ends := [.value, .comma, .closeBracket]
      let lacks := (← peek?).any ends.contains
      let key ← readUnless fuel ends false false
      if lacks then skipToken
      let value ← readValue fuel [.comma, .closeBracket] false
      return .map [(key, value)] :: (← flowItems fuel false)
    else
      let item ← readNode fuel false false
      return item :: (← flowItems fuel false)

/-- The entries of a map in braces, with fuel; between two of them there is a comma. -/
def flowEntries : Nat → (first : Bool) → NodeM (List (Node × Node))
  | 0, _ => failure
  | fuel + 1, first => do
    if ← tryToken .closeBrace then return []
    if ! first then guard (← tryToken .comma)
    if ← tryToken .closeBrace then return []
    if ← tryToken .key then
      let key ← readUnless fuel [.value, .comma, .closeBrace] false false
      let value ← readValue fuel [.comma, .closeBrace] false
      return (key, value) :: (← flowEntries fuel false)
    else
      let key ← readNode fuel false false
      return (key, .empty) :: (← flowEntries fuel false)

end

/-! ## §4. Documents. -/

/-- The lines before a document, with fuel. -/
def directives : Nat → NodeM (List Tag.Directive)
  | 0 => return []
  | fuel + 1 => do
    match ← peek? with
    | some (.directive directive) =>
      skipToken
      return directive :: (← directives fuel)
    | _ => return []

/-- What lines before a document say of the handles of tags, besides what is so without them.  A
version is 1.1 or 1.2 and is given once at most, and so is each handle. -/
def stems? (directives : List Tag.Directive) : Option (List (String × Tag)) := do
  let versions := directives.filterMap fun
    | .version major minor => some (major, minor)
    | .handle _ _ => none
  let handles := directives.filterMap fun
    | .version _ _ => none
    | .handle name stem => some (name, stem)
  guard (versions.length ≤ 1 && versions.all [(1, 1), (1, 2)].contains)
  guard (handles.map Prod.fst).Nodup
  return handles ++ [("!", Tag.ofString "!"), ("!!", Tag.coreStem)]

/-- Pass over the marks at the end of a document, with fuel. -/
def endMarks : Nat → NodeM Unit
  | 0 => return
  | fuel + 1 => do
    if ← tryToken .documentEnd then endMarks fuel

/-- The document that the tokens are. -/
def readDocument : NodeM Node := do
  let length := (← get).tokens.length
  let fuel := 4 * length + 8
  let directives ← directives length
  let stems ← stems? directives
  modify ({ · with stems })
  let marked ← tryToken .documentStart
  guard (marked || directives.isEmpty)
  let token ← peek?
  let isEmpty := token.isNone || (marked && (token = some .documentStart
    || token = some .documentEnd))
  let root ← if isEmpty then pure .empty else readNode fuel true false
  endMarks length
  guard (← get).tokens.isEmpty
  return root

/-- The document that a text holds. -/
def parse? (s : String) : Option Document := do
  let tokens ← tokens? s
  let (root, reader) ← readDocument { tokens }
  return ⟨root, reader.named.toList.reverse⟩

end Flowprint.Yaml
