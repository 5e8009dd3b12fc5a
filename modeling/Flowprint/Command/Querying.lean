/-
  Flowprint.Command.Querying
  ────────────────────────────────
  Looking up the functions that resemble a graph, with what is known about them, and saying what is
  known about a function.
-/
import Flowprint.Command.Adding
import Flowprint.Metadata.Store
import Flowprint.Service.Document

namespace Flowprint.Command

/-- The annotations of an index. -/
def loadMetadata (path : String) : DiskM Failure MetadataStore :=
  (DiskM.reading (MetadataStore.load path)).adapt (Failure.readMetadata path)

/-! ## §1. Queries. -/

/-- A match with what is known about its function. -/
structure Row where
  found : ScoredMatch
  metadata : Option Metadata
  deriving Repr, DecidableEq

namespace Row

/-- The row of a match. -/
def of (store : MetadataStore) (found : ScoredMatch) : Row :=
  ⟨found, store.get? ⟨found.executable, found.address⟩⟩

/-- Whether the function of a row is known to be vulnerable. -/
def vulnerable (row : Row) : Bool :=
  row.metadata.any Metadata.vulnerable

/-- A row as a document. -/
def toJson (row : Row) : Json.Value :=
  let optional (field : Metadata → String) : Json.Value :=
    match row.metadata with
    | some metadata => .text (field metadata)
    | none => .null
  .object (row.found.members ++
    [("file_name", optional Metadata.fileName), ("function_name", optional Metadata.functionName),
      ("vulnerable", .bool row.vulnerable)])

/-- A row as a line. -/
def line (row : Row) : String :=
  let found := row.found
  let bits := Text.Radix.padLeft 3 (toString found.matching.toNat)
  let similarity := Decimal.fixed 3 found.similarity
  let odds := Decimal.scientific 3 found.odds
  let executable := Text.Radix.hexPadded 16 found.executable.toNat
  let address := Text.Radix.hex found.address.toNat
  let names := match row.metadata with
    | some metadata => s!"  {metadata.functionName} ({metadata.fileName})"
    | none => ""
  let mark := if row.vulnerable then "  [vulnerable]" else ""
  s!"{bits}/128  sim {similarity}  odds {odds}  {executable}:{address}{names}{mark}\n"

end Row

/-- The rows for the functions closest to the graph of a file. -/
def queryRows (indexPath graphPath : String) (count : Nat) (config : SearchConfig) :
    DiskM Failure (List Row) := do
  let hasher ← Hasher.prepare config.hasher
  let service : Service := { hasher, index := ← openIndex indexPath }
  let g ← loadGraph graphPath
  let found ← (DiskM.reading (service.search g count)).adapt Failure.query
  let store ← loadMetadata (Layout.of indexPath config.metadataPath).metadataPath
  return found.map (Row.of store)

/-! ## §2. Annotations. -/

/-- Save a store. -/
def saveMetadata (store : MetadataStore) : DiskM Failure Unit := fun disk =>
  match store.save disk with
  | (.ok (), _, disk) => (.ok (), disk)
  | (.error fault, _, disk) => (.error (.writeMetadata store.path fault), disk)

/-- Say what is known about a function; gives the path of the annotations. -/
def annotateFunction (indexPath : String) (metadataPath : Option String) (key : FunctionKey)
    (metadata : Metadata) : DiskM Failure String := do
  let path := (Layout.of indexPath metadataPath).metadataPath
  let store ← loadMetadata path
  let store ← ((store.insert key metadata).mapError Failure.annotate : Except Failure MetadataStore)
  saveMetadata store
  return path

end Flowprint.Command
