/-
  Flowprint.Config.Document
  ────────────────────────────────
  Search settings as documents, in JSON and in YAML.  Every setting may be left out and then has its
  default.  A written document leaves out the path of the sidecar if it has none.
-/
import Flowprint.Config
import Flowprint.Hasher.Document
import Flowprint.Yaml.Value

namespace Flowprint

/-! ## §1. JSON. -/

namespace SearchConfig

/-- Settings as a document. -/
def toJson (config : SearchConfig) : Json.Value :=
  .object <|
    [("index_path", .text config.indexPath)]
    ++ (config.metadataPath.toList.map fun path => ("metadata_path", .text path))
    ++ [ ("capacity_bits", .nat config.capacityBits.toNat),
        ("permutations", .nat config.permutations.toNat),
        ("min_branching_nodes", .nat config.minBranching),
        ("low_space_threshold", .nat config.lowSpace.toNat),
        ("hasher", config.hasher.toJson) ]

/-- The settings that a document holds. -/
def scanner : Json.Scanner SearchConfig :=
  let start : SearchConfig := {}
  (Json.record "SearchConfig"
    (.cons (.withDefault "index_path" Json.path start.indexPath)
    (.cons (.withDefault "metadata_path" (Json.optional Json.path) start.metadataPath)
    (.cons (.withDefault "capacity_bits" Json.word32 start.capacityBits)
    (.cons (.withDefault "permutations" Json.word32 start.permutations)
    (.cons (.withDefault "min_branching_nodes" Json.count start.minBranching)
    (.cons (.withDefault "low_space_threshold" Json.word64 start.lowSpace)
    (.cons (.withDefault "hasher" HasherConfig.scanner start.hasher) .nil)))))))).map
    fun (indexPath, metadataPath, capacityBits, permutations, minBranching, lowSpace, hasher, ()) =>
      { indexPath, metadataPath, capacityBits, permutations, minBranching, lowSpace, hasher }

/-- The settings that a text holds. -/
def parse (s : String) : Except Json.Fault SearchConfig :=
  Json.parse scanner s

end SearchConfig

/-! ## §2. YAML. -/

open Yaml (field?)
open Yaml.Part

/-- The hasher settings at a part of a YAML document. -/
def HasherConfig.ofYaml? (part : Yaml.Part) : Option HasherConfig := do
  let start : HasherConfig := {}
  let fields ← part.fields? ["weights_path", "disable_graphlets", "disable_mnemonics",
    "default_graphlet_weight", "default_mnemonic_weight", "multiplicity", "graphlet_distances",
    "max_graphlet_size"]
  return {
    weightsPath := ← field? fields "weights_path" (optional? text?) start.weightsPath
    disableGraphlets := ← field? fields "disable_graphlets" bool? start.disableGraphlets
    disableMnemonics := ← field? fields "disable_mnemonics" bool? start.disableMnemonics
    graphletWeight := ← field? fields "default_graphlet_weight" float? start.graphletWeight
    mnemonicWeight := ← field? fields "default_mnemonic_weight" float? start.mnemonicWeight
    multiplicity := ← field? fields "multiplicity"
      (oneOf? Multiplicity.name [.occurrenceTagged, .once]) start.multiplicity
    distances := ← field? fields "graphlet_distances" (list? word32?) start.distances
    maxSize := ← field? fields "max_graphlet_size" count? start.maxSize }

namespace SearchConfig

/-- The settings at a part of a YAML document. -/
def ofYaml? (part : Yaml.Part) : Option SearchConfig := do
  let start : SearchConfig := {}
  let fields ← part.fields? ["index_path", "metadata_path", "capacity_bits", "permutations",
    "min_branching_nodes", "low_space_threshold", "hasher"]
  return {
    indexPath := ← field? fields "index_path" text? start.indexPath
    metadataPath := ← field? fields "metadata_path" (optional? text?) start.metadataPath
    capacityBits := ← field? fields "capacity_bits" word32? start.capacityBits
    permutations := ← field? fields "permutations" word32? start.permutations
    minBranching := ← field? fields "min_branching_nodes" count? start.minBranching
    lowSpace := ← field? fields "low_space_threshold" word64? start.lowSpace
    hasher := ← field? fields "hasher" HasherConfig.ofYaml? start.hasher }

/-- The settings that a YAML text holds. -/
def parseYaml? (s : String) : Option SearchConfig :=
  (Yaml.parse? s).bind fun document => ofYaml? document.part

end SearchConfig

end Flowprint
