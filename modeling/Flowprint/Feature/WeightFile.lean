/-
  Flowprint.Feature.WeightFile
  ────────────────────────────────
  Weight tables in files.
-/
import Flowprint.Disk
import Flowprint.Feature.Weight

namespace Flowprint.Weights

/-- Why a file gives no table. -/
inductive Fault where
  /-- The file cannot be used. -/
  | file (cause : FileFault)
  /-- A line of it is no entry. -/
  | malformed (cause : Malformed)
  deriving Repr, DecidableEq

/-- The table in a file. -/
def load (path : String) (disk : Disk) : Except Fault Weights :=
  match disk.readText path with
  | .error fault => .error (.file fault)
  | .ok text =>
    match parse text with
    | .error fault => .error (.malformed fault)
    | .ok table => .ok table

/-- The disk with a table in a file. -/
def save (table : Weights) (path : String) (disk : Disk) : Except FileFault Disk :=
  disk.writeText path table.render

end Flowprint.Weights
