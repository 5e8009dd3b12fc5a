/-
  Flowprint.Hasher.Document
  ────────────────────────────────
  Hasher settings as JSON documents.  Every setting may be left out and then has its default.
-/
import Flowprint.Feature.Document
import Flowprint.Hasher

namespace Flowprint.HasherConfig

/-- Settings as a document. -/
def toJson (config : HasherConfig) : Json.Value :=
  .object
    [ ("weights_path", match config.weightsPath with
        | some path => .text path
        | none => .null),
      ("disable_graphlets", .bool config.disableGraphlets),
      ("disable_mnemonics", .bool config.disableMnemonics),
      ("default_graphlet_weight", .float config.graphletWeight),
      ("default_mnemonic_weight", .float config.mnemonicWeight),
      ("multiplicity", .text config.multiplicity.name),
      ("graphlet_distances", .list (config.distances.map fun d => .nat d.toNat)),
      ("max_graphlet_size", .nat config.maxSize) ]

/-- The settings that a document holds. -/
def scanner : Json.Scanner HasherConfig :=
  let start : HasherConfig := {}
  (Json.record "HasherConfig"
    (.cons (.withDefault "weights_path" (Json.optional Json.path) start.weightsPath)
    (.cons (.withDefault "disable_graphlets" Json.bool start.disableGraphlets)
    (.cons (.withDefault "disable_mnemonics" Json.bool start.disableMnemonics)
    (.cons (.withDefault "default_graphlet_weight" Json.float start.graphletWeight)
    (.cons (.withDefault "default_mnemonic_weight" Json.float start.mnemonicWeight)
    (.cons (.withDefault "multiplicity" Multiplicity.scanner start.multiplicity)
    (.cons (.withDefault "graphlet_distances" (Json.list Json.word32) start.distances)
    (.cons (.withDefault "max_graphlet_size" Json.count start.maxSize) .nil))))))))).map
    fun (weightsPath, disableGraphlets, disableMnemonics, graphletWeight, mnemonicWeight,
        multiplicity, distances, maxSize, ()) =>
      { weightsPath, disableGraphlets, disableMnemonics, graphletWeight, mnemonicWeight,
        multiplicity, distances, maxSize }

/-- The settings that a text holds. -/
def parse (s : String) : Except Json.Fault HasherConfig :=
  Json.parse scanner s

end Flowprint.HasherConfig
