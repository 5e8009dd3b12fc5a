/-
  Flowprint.Service.Open
  ────────────────────────────────
  Hashers and services that their settings describe.
-/
import Flowprint.Config
import Flowprint.Failure
import Flowprint.Service

namespace Flowprint

/-- The hasher of a configuration with the table that it names. -/
def Hasher.load (config : HasherConfig) (disk : Disk) : Except Weights.Fault Hasher :=
  match config.weightsPath with
  | none => .ok (.of config ∅)
  | some path => (Weights.load path disk).map fun weights => .of config weights

/-- The hasher of a configuration for a command. -/
def Hasher.prepare (config : HasherConfig) : DiskM Failure Hasher :=
  (DiskM.reading (Hasher.load config)).adapt Failure.loadWeights

/-- The service that settings describe, its index opened or created. -/
def Service.ofConfig (config : SearchConfig) : DiskM Failure Service := do
  let hasher ← Hasher.prepare config.hasher
  let index ← (Index.File.loadOrCreate config.indexPath config.indexOptions).adapt
    (Failure.openIndex config.indexPath)
  return ⟨hasher, index, config.minBranching, config.lowSpace⟩

end Flowprint
