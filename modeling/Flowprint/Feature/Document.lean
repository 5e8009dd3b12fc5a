/-
  Flowprint.Feature.Document
  ────────────────────────────────
  Features and the treatment of their repeats as JSON documents.  An identity is one integer of 128
  bits.
-/
import Flowprint.Feature.Extract
import Flowprint.Json.Shape
import Flowprint.Json.Value

namespace Flowprint

/-- The name of a kind in documents. -/
def FeatureKind.name : FeatureKind → String
  | .graphlet => "graphlet"
  | .mnemonicTuple => "mnemonic_tuple"

/-- The name of a treatment in documents. -/
def Multiplicity.name : Multiplicity → String
  | .occurrenceTagged => "occurrence_tagged"
  | .once => "once"

/-- A choice among values that carry nothing. -/
def Json.oneOfNamed {α : Type} (name : α → String) (values : List α) : Json.Scanner α :=
  Json.choice (values.map fun value => ⟨name value, .nothing value⟩)

/-- The kinds that a document may name. -/
def FeatureKind.scanner : Json.Scanner FeatureKind :=
  Json.oneOfNamed FeatureKind.name [.graphlet, .mnemonicTuple]

/-- The treatments that a document may name. -/
def Multiplicity.scanner : Json.Scanner Multiplicity :=
  Json.oneOfNamed Multiplicity.name [.occurrenceTagged, .once]

/-- A feature as a document. -/
def Feature.toJson (feature : Feature) : Json.Value :=
  .object [("kind", .text feature.kind.name), ("id", .nat feature.id.toNat)]

/-- The feature that a document holds. -/
def Feature.scanner : Json.Scanner Feature :=
  (Json.record "Feature"
    (.cons (.required "kind" FeatureKind.scanner)
      (.cons (.required "id" Json.word128) .nil))).map
    fun (kind, id, ()) => ⟨kind, id⟩

end Flowprint
