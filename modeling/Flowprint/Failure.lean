/-
  Flowprint.Failure
  ────────────────────────────────
  Why a command fails: what it was doing, and what went wrong there.
-/
import Flowprint.Feature.WeightFile
import Flowprint.Graph.File
import Flowprint.Index.Fault
import Flowprint.Metadata.Basic

namespace Flowprint

/-- A fault below a failure that a caller may want to tell from others. -/
inductive Cause where
  | index (fault : Index.Fault)
  | json (fault : Json.Fault)
  | file (fault : FileFault)
  deriving Repr

/-- What a command was doing when it failed, and what went wrong. -/
inductive Failure where
  /-- The settings cannot be read. -/
  | readConfig (path : String) (fault : FileFault)
  /-- The settings are no document of the kind that their file name promises. -/
  | parseConfigJson (fault : Json.Fault)
  /-- The settings are no document of the kind that their file name promises. -/
  | parseConfigYaml
  /-- A graph cannot be read. -/
  | readGraph (path : String) (fault : GraphFileFault)
  /-- The weight table cannot be read. -/
  | loadWeights (fault : Weights.Fault)
  /-- An executable cannot be read. -/
  | hashExecutable (path : String) (fault : FileFault)
  | createIndex (path : String) (fault : Index.Fault)
  | openIndex (path : String) (fault : Index.Fault)
  /-- The function of a graph file cannot be stored. -/
  | storeFunction (path : String) (fault : Index.Fault)
  | query (fault : Index.Fault)
  | readStats (fault : Index.Fault)
  | readEntries (fault : Index.Fault)
  | growIndex (fault : Index.Fault)
  | readMetadata (path : String) (fault : Metadata.Fault)
  | writeMetadata (path : String) (fault : Metadata.Fault)
  /-- The annotation itself is refused. -/
  | annotate (fault : Metadata.Fault)
  /-- One address was given for several graphs. -/
  | addressOfMany
  /-- Nothing says which executable the functions come from. -/
  | noExecutable
  deriving Repr

namespace Failure

/-- What failed, in words. -/
def message : Failure → String
  | .readConfig path _ => s!"Failed to read search config at {path}"
  | .parseConfigJson _ => "Failed to parse search config JSON"
  | .parseConfigYaml => "Failed to parse search config YAML"
  | .readGraph path _ => s!"Failed to read flowgraph from {path}"
  | .loadWeights _ => "Failed to load feature weights"
  | .hashExecutable path _ => s!"Failed to hash {path}"
  | .createIndex path _ => s!"Failed to create index at {path}"
  | .openIndex path _ => s!"Failed to open index at {path}"
  | .storeFunction path _ => s!"Failed to index {path}"
  | .query _ => "Query failed"
  | .readStats _ => "Failed to read index stats"
  | .readEntries _ => "Failed to read index entries"
  | .growIndex _ => "Failed to grow index"
  | .readMetadata path _ => s!"Failed to read metadata at {path}"
  | .writeMetadata path _ => s!"Failed to write metadata at {path}"
  | .annotate _ => "Refusing to annotate function"
  | .addressOfMany => "--address only makes sense with a single flowgraph"
  | .noExecutable => "add needs --exec-id or --binary"

/-- What failed, in one line. -/
def firstLine (failure : Failure) : String :=
  .ofList ((Text.lines failure.message.toList).headD [])

/-- The fault of a file below a fault of annotations. -/
def causeOfMetadata? : Metadata.Fault → Option Cause
  | .file fault => some (.file fault)
  | .malformed _ _ => none
  | .fileNameBreaks _ => none

/-- The fault below a failure, if it is one of those that have a name of their own. -/
def cause? : Failure → Option Cause
  | .readConfig _ fault => some (.file fault)
  | .parseConfigJson fault => some (.json fault)
  | .parseConfigYaml => none
  | .readGraph _ (.file fault) => some (.file fault)
  | .readGraph _ (.text (.unreadable fault)) => some (.json fault)
  | .readGraph _ (.text (.unknownNode _)) => none
  | .loadWeights (.file fault) => some (.file fault)
  | .loadWeights (.malformed _) => none
  | .hashExecutable _ fault => some (.file fault)
  | .createIndex _ fault => some (.index fault)
  | .openIndex _ fault => some (.index fault)
  | .storeFunction _ fault => some (.index fault)
  | .query fault => some (.index fault)
  | .readStats fault => some (.index fault)
  | .readEntries fault => some (.index fault)
  | .growIndex fault => some (.index fault)
  | .readMetadata _ fault => causeOfMetadata? fault
  | .writeMetadata _ fault => causeOfMetadata? fault
  | .annotate fault => causeOfMetadata? fault
  | .addressOfMany => none
  | .noExecutable => none

end Failure

end Flowprint
