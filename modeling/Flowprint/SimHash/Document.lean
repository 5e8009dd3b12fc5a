/-
  Flowprint.SimHash.Document
  ────────────────────────────────
  Hashes as JSON documents: a record of the two halves as integers.
-/
import Flowprint.Json.Shape
import Flowprint.Json.Value
import Flowprint.SimHash

namespace Flowprint.SimHash

/-- A hash as a document. -/
def toJson (hash : SimHash) : Json.Value :=
  .object [("h1", .nat hash.high.toNat), ("h2", .nat hash.low.toNat)]

/-- The hash that a document holds. -/
def scanner : Json.Scanner SimHash :=
  (Json.record "SimHash"
    (.cons (.required "h1" Json.word64) (.cons (.required "h2" Json.word64) .nil))).map
    fun (high, low, ()) => ⟨high, low⟩

end Flowprint.SimHash
