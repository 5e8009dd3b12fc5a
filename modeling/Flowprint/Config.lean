/-
  Flowprint.Config
  ────────────────────────────────
  The settings of a search: where the index is, how it is created, which functions are indexed, and
  how functions are hashed.
-/
import Flowprint.Hasher
import Flowprint.Index.Handle
import Flowprint.Layout

namespace Flowprint

/-- The settings of a search. -/
structure SearchConfig where
  indexPath : String := "functions.simidx"
  /-- The sidecar, if it is not beside the index. -/
  metadataPath : Option String := none
  capacityBits : UInt32 := 28
  permutations : UInt32 := 28
  /-- The number of branching blocks below which a function is not indexed. -/
  minBranching : Nat := 5
  /-- The number of free bytes below which indexing stops. -/
  lowSpace : UInt64 := 1024
  hasher : HasherConfig := {}
  deriving Repr, DecidableEq

namespace SearchConfig

/-- How an index is created. -/
def indexOptions (config : SearchConfig) : Index.Options :=
  ⟨config.capacityBits, config.permutations⟩

/-- The files of the index. -/
def layout (config : SearchConfig) : Layout :=
  .of config.indexPath config.metadataPath

end SearchConfig

end Flowprint
