/-
  Flowprint.Graph.File
  ────────────────────────────────
  Graphs in files.
-/
import Flowprint.Disk
import Flowprint.Graph.Document

namespace Flowprint

/-- Why a file gives no graph. -/
inductive GraphFileFault where
  /-- The file cannot be used. -/
  | file (cause : FileFault)
  /-- Its text gives no graph. -/
  | text (cause : GraphFault)
  deriving Repr

/-- The graph in a file. -/
def Flowgraph.load (path : String) (policy : EdgePolicy) (disk : Disk) :
    Except GraphFileFault Flowgraph :=
  match disk.readText path with
  | .error fault => .error (.file fault)
  | .ok text =>
    match Flowgraph.parse text policy with
    | .error fault => .error (.text fault)
    | .ok g => .ok g

end Flowprint
