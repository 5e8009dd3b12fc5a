/-
  Flowprint.Feature.Extract
  ────────────────────────────────
  The features of a flowgraph in a fixed order.

  First come the graphlets: for each configured distance and each block in ascending order, the
  shape of the neighbourhood of the block, unless it is too large.  Then come the mnemonic tuples:
  all runs of three mnemonics in the code, blocks in ascending order.  Each is a key of bytes; the
  number of times that a key has come up before tells its repeats apart, or drops them.

  Main statements:

      map_number              numbering keeps every key, in order
-/
import Flowprint.Feature.Basic
import Flowprint.Graph.Neighbourhood
import Flowprint.Graph.Shape

namespace Flowprint

open Std

/-- How repeats of a key are treated. -/
inductive Multiplicity where
  /-- Every repeat is a feature of its own. -/
  | occurrenceTagged
  /-- Only the first occurrence counts. -/
  | once
  deriving Repr, DecidableEq

/-- Which features are extracted. -/
structure Extractor where
  /-- The radii of the neighbourhoods. -/
  distances : List UInt32 := [1, 2, 3]
  /-- The largest neighbourhood whose shape counts, in blocks. -/
  maxSize : Nat := 30
  graphlets : Bool := true
  mnemonics : Bool := true
  multiplicity : Multiplicity := .occurrenceTagged
  deriving Repr, DecidableEq

/-- The bytes by which equal features are recognised. -/
abbrev FeatureKey := List UInt8

/-! ## §1. Keys. -/

/-- The first keys of the two shape hashes in a graphlet's key. -/
def graphletKeys : Flowgraph.ShapeKeys :=
  ⟨0xc3a5c85c97cb3127, 0xb492b66fbe98f273, 0x9ae16a3b2f90404f⟩

/-- The same keys, each moved up one place. -/
def Flowgraph.ShapeKeys.turned (keys : Flowgraph.ShapeKeys) : Flowgraph.ShapeKeys :=
  ⟨keys.k1, keys.k2, keys.k0⟩

/-- The eight bytes of a word, most significant first. -/
def wordBytes (word : UInt64) : List UInt8 :=
  ([56, 48, 40, 32, 24, 16, 8, 0] : List UInt64).map fun shift => (word >>> shift).toUInt8

/-- The key of a neighbourhood around a block. -/
def shapeKey (part : Flowgraph) (centre : Address) : FeatureKey :=
  FeatureKind.graphlet.keyByte :: wordBytes (part.shapeHash centre graphletKeys)
    ++ wordBytes (part.shapeHash centre graphletKeys.turned)

/-- The key of the neighbourhood of a block, if it is not too large. -/
def graphletKey? (g : Flowgraph) (maxSize : Nat) (centre : Address) (distance : UInt32) :
    Option FeatureKey :=
  (g.neighbourhood? centre distance.toNat maxSize).map fun part => shapeKey part centre

/-- The key of three mnemonics. -/
def tupleKey (a b c : String) : FeatureKey :=
  FeatureKind.mnemonicTuple.keyByte
    :: Text.bytesOf a ++ 0 :: Text.bytesOf b ++ 0 :: Text.bytesOf c

/-- The keys of all runs of three. -/
def tupleKeys : List String → List FeatureKey
  | a :: b :: c :: rest => tupleKey a b c :: tupleKeys (b :: c :: rest)
  | _ => []

/-- The mnemonics of a graph, blocks in ascending order. -/
def Flowgraph.mnemonics (g : Flowgraph) : List String :=
  g.blocks.flatMap fun (_, insns) => insns.map Instruction.mnemonic

namespace Extractor

/-- The keys of the graphlets. -/
def graphletKeys (extractor : Extractor) (g : Flowgraph) : List FeatureKey :=
  extractor.distances.flatMap fun distance =>
    g.nodes.filterMap fun centre => graphletKey? g extractor.maxSize centre distance

/-- All keys with their kinds. -/
def keys (extractor : Extractor) (g : Flowgraph) : List (FeatureKind × FeatureKey) :=
  (if extractor.graphlets then (extractor.graphletKeys g).map (FeatureKind.graphlet, ·) else [])
    ++ (if extractor.mnemonics then (tupleKeys g.mnemonics).map (FeatureKind.mnemonicTuple, ·)
        else [])

/-! ## §2. Features. -/

/-- A key with its kind and the number of times it has come up before. -/
structure Occurrence where
  kind : FeatureKind
  key : FeatureKey
  earlier : Nat
  deriving Repr, DecidableEq

/-- Number the occurrences of each key, given how often keys have come up already.  The numbers
have no end here.  A count of 32 bits overflows with occurrence `2 ^ 32` of one key, and if it starts
again the next occurrence is taken for a first one; below that the two are the same.  Identities take up
the lowest 32 bits of a number, so they do not tell the two apart. -/
def number (seen : ExtTreeMap FeatureKey Nat) :
    List (FeatureKind × FeatureKey) → List Occurrence
  | [] => []
  | (kind, key) :: rest =>
    let earlier := seen.getD key 0
    ⟨kind, key, earlier⟩ :: number (seen.insert key (earlier + 1)) rest

/-- The occurrences that count. -/
def select (multiplicity : Multiplicity) (occurrences : List Occurrence) : List Occurrence :=
  match multiplicity with
  | .occurrenceTagged => occurrences
  | .once => occurrences.filter (·.earlier = 0)

/-- The feature of an occurrence. -/
def Occurrence.feature (occurrence : Occurrence) : Feature :=
  ⟨occurrence.kind, FeatureId.ofKey occurrence.key (.ofNat occurrence.earlier)⟩

/-- The features of a graph. -/
def extract (extractor : Extractor) (g : Flowgraph) : List Feature :=
  (select extractor.multiplicity (number ∅ (extractor.keys g))).map Occurrence.feature

/-- Numbering keeps every key, in order. -/
theorem map_number (seen : ExtTreeMap FeatureKey Nat) (keys : List (FeatureKind × FeatureKey)) :
    (number seen keys).map (fun o => (o.kind, o.key)) = keys := by
  induction keys generalizing seen with
  | nil => rfl
  | cons entry rest ih => simp [number, ih]

end Extractor

end Flowprint
