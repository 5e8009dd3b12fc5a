/-
  Flowprint.Command.Hashing
  ────────────────────────────────
  Commands that hash graphs: reports of hashes, and listings of features.

  A listing of features as lines is a weight table: each feature has the weight that it has now.
-/
import Flowprint.Graph.Dot
import Flowprint.Service.Open
import Flowprint.SimHash.Document

namespace Flowprint.Command

/-- The graph in a file. -/
def loadGraph (path : String) : DiskM Failure Flowgraph :=
  (DiskM.reading (Flowgraph.load path .autoCreate)).adapt (Failure.readGraph path)

/-! ## §1. Hashes. -/

/-- The hash of the graph in a file. -/
structure HashReport where
  path : String
  hash : SimHash
  nodes : Nat
  edges : Nat
  branching : Nat
  deriving Repr, DecidableEq

/-- A report as a document. -/
def HashReport.toJson (report : HashReport) : Json.Value :=
  .object [("path", .text report.path), ("hash", report.hash.toJson), ("nodes", .nat report.nodes),
    ("edges", .nat report.edges), ("branching_nodes", .nat report.branching)]

/-- A report as a line. -/
def HashReport.line (report : HashReport) : String :=
  s!"{report.hash.text}  {report.path}\n"

/-- The report on a graph. -/
def HashReport.of (hasher : Hasher) (path : String) (g : Flowgraph) : HashReport :=
  ⟨path, hasher.hash g, g.nodeCount, g.edgeCount, g.branchingCount⟩

/-- The reports on the graphs in files. -/
def hashReports (paths : List String) (config : HasherConfig) :
    DiskM Failure (List HashReport) := do
  let hasher ← Hasher.prepare config
  paths.mapM fun path => return .of hasher path (← loadGraph path)

/-! ## §2. Features. -/

/-- The features of a graph as a listing. -/
def featureLines (hasher : Hasher) (features : List Feature) : String :=
  let row (feature : Feature) : String :=
    s!"{feature.text} {Decimal.plain (hasher.weightOf feature)}\n"
  s!"# {features.length} features, hash {(hasher.elect features).text}\n"
    ++ String.join (features.map row)

/-- The features of a graph as a document. -/
def featureDocument (hasher : Hasher) (features : List Feature) : Json.Value :=
  .list (features.map fun feature =>
    .object [("feature", .text feature.text), ("weight", .float (hasher.weightOf feature))])

end Flowprint.Command
