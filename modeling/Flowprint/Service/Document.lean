/-
  Flowprint.Service.Document
  ────────────────────────────────
  What became of a function, and scored matches, as JSON documents.
-/
import Flowprint.Service
import Flowprint.SimHash.Document

namespace Flowprint

/-- What became of a function as a document. -/
def IndexOutcome.toJson : IndexOutcome → Json.Value
  | .indexed hash => .object [("indexed", hash.toJson)]
  | .belowThreshold branching =>
    .object [("below_threshold", .object [("branching_nodes", .nat branching)])]

/-- What a document says became of a function. -/
def IndexOutcome.scanner : Json.Scanner IndexOutcome :=
  let branching := Json.recordAs "struct variant IndexOutcome::BelowThreshold"
    (.cons (.required "branching_nodes" Json.count) .nil)
  Json.choice
    [ ⟨"indexed", .one (SimHash.scanner.map .indexed)⟩,
      ⟨"below_threshold", .fields (branching.map fun (n, ()) => .belowThreshold n)⟩ ]

namespace ScoredMatch

/-- The members of a scored match as a document. -/
def members (found : ScoredMatch) : List (String × Json.Value) :=
  [ ("matching_bits", .nat found.matching.toNat),
    ("executable_id", .nat found.executable.toNat),
    ("address", .nat found.address.toNat),
    ("hash", found.hash.toJson),
    ("similarity", .float found.similarity),
    ("odds", .float found.odds) ]

/-- A scored match as a document. -/
def toJson (found : ScoredMatch) : Json.Value :=
  .object found.members

/-- The scored match that a document holds. -/
def scanner : Json.Scanner ScoredMatch :=
  (Json.record "ScoredMatch"
    (.cons (.required "matching_bits" Json.word32)
    (.cons (.required "executable_id" Json.word64)
    (.cons (.required "address" Json.word64)
    (.cons (.required "hash" SimHash.scanner)
    (.cons (.required "similarity" Json.float)
    (.cons (.required "odds" Json.float) .nil))))))).map
    fun (matching, executable, address, hash, similarity, odds, ()) =>
      { matching, executable, address, hash, similarity, odds }

end ScoredMatch

end Flowprint
