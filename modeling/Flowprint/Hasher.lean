/-
  Flowprint.Hasher
  ────────────────────────────────
  Hashing of flowgraphs: the features of a graph elect the bits of its hash, each voting with the
  pattern that its identity projects to.

  A feature has the weight of its table entry, or else the default weight of its kind.
-/
import Flowprint.Feature.Extract
import Flowprint.Feature.Weight
import Flowprint.SimHash
import Flowprint.Vote

namespace Flowprint

/-- The settings of a hasher. -/
structure HasherConfig where
  /-- The file with the weight table. -/
  weightsPath : Option String := none
  disableGraphlets : Bool := false
  disableMnemonics : Bool := false
  /-- The weight of a graphlet without an entry. -/
  graphletWeight : Float := 1.0
  /-- The weight of a mnemonic tuple without an entry. -/
  mnemonicWeight : Float := 1.0
  multiplicity : Multiplicity := .occurrenceTagged
  distances : List UInt32 := [1, 2, 3]
  maxSize : Nat := 30
  deriving Repr, DecidableEq

/-- The features that a configuration asks for. -/
def HasherConfig.extractor (config : HasherConfig) : Extractor :=
  { distances := config.distances
    maxSize := config.maxSize
    graphlets := ! config.disableGraphlets
    mnemonics := ! config.disableMnemonics
    multiplicity := config.multiplicity }

/-- What it takes to hash a graph. -/
structure Hasher where
  extractor : Extractor := {}
  weights : Weights := ∅
  graphletWeight : Float := 1.0
  mnemonicWeight : Float := 1.0

namespace Hasher

/-- The hasher of a configuration with a table of weights. -/
def of (config : HasherConfig) (weights : Weights) : Hasher :=
  { extractor := config.extractor
    weights := weights
    graphletWeight := config.graphletWeight
    mnemonicWeight := config.mnemonicWeight }

/-- The default weight of a kind. -/
def defaultWeight (hasher : Hasher) : FeatureKind → Float
  | .graphlet => hasher.graphletWeight
  | .mnemonicTuple => hasher.mnemonicWeight

/-- The weight of a feature. -/
def weightOf (hasher : Hasher) (feature : Feature) : Float :=
  (hasher.weights.find? feature.id).getD (hasher.defaultWeight feature.kind)

/-- The ballot of a feature. -/
def ballot (hasher : Hasher) (feature : Feature) : Ballot Float :=
  ⟨hasher.weightOf feature, FeatureId.projection feature.id⟩

/-- The totals that features reach at the places of the hash. -/
def votes (hasher : Hasher) (features : List Feature) : List Float :=
  Ballot.totals (features.map hasher.ballot)

/-- The hash that features elect. -/
def elect (hasher : Hasher) (features : List Feature) : SimHash :=
  .ofBits (Ballot.outcome (features.map hasher.ballot))

/-- The features of a graph. -/
def features (hasher : Hasher) (g : Flowgraph) : List Feature :=
  hasher.extractor.extract g

/-- The hash of a graph. -/
def hash (hasher : Hasher) (g : Flowgraph) : SimHash :=
  hasher.elect (hasher.features g)

end Hasher

end Flowprint
