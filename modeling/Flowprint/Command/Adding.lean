/-
  Flowprint.Command.Adding
  ────────────────────────────────
  Adding the functions of graph files to an index.

  Graphs without blocks and graphs below the gate are skipped.  When space is low the remaining
  files are left out; this is no failure, and the summary says so.  A file that cannot be read ends the
  command, but what was stored before stays.
-/
import Flowprint.Command.Hashing

namespace Flowprint.Command

/-- What became of the graphs of a run. -/
structure AddSummary where
  indexed : Nat := 0
  skipped : Nat := 0
  /-- Whether space was low before every graph was offered. -/
  stoppedEarly : Bool := false
  deriving Repr, DecidableEq

/-- A summary as lines. -/
def AddSummary.lines (summary : AddSummary) : String :=
  s!"Indexed: {summary.indexed}\nSkipped: {summary.skipped}\n"
    ++ if summary.stoppedEarly then "Stopped early: index is out of space\n" else ""

/-- Open an index. -/
def openIndex (path : String) : DiskM Failure Index.Handle :=
  (Index.File.load path).adapt (Failure.openIndex path)

/-- Offer the graphs of files to an index one after the other. -/
def addGraphs (executable : UInt64) (address : Option Address) :
    List String → Service → AddSummary → DiskM Failure AddSummary
  | [], _, summary => return summary
  | path :: rest, service, summary => do
    let g ← loadGraph path
    match g.entry? address with
    | none =>
      addGraphs executable address rest service { summary with skipped := summary.skipped + 1 }
    | some entry =>
      match ← (service.offer g executable entry).run with
      | .ok (.indexed _, service) =>
        addGraphs executable address rest service { summary with indexed := summary.indexed + 1 }
      | .ok (.belowThreshold _, service) =>
        addGraphs executable address rest service { summary with skipped := summary.skipped + 1 }
      | .error (.exhausted _ _) => return { summary with stoppedEarly := true }
      | .error fault => throw (.storeFunction path fault)

/-- Add the functions of graph files to an index that is there. -/
def addFunctions (indexPath : String) (graphs : List String) (executable : UInt64)
    (address : Option Address) (config : SearchConfig) : DiskM Failure AddSummary := do
  if address.isSome && 1 < graphs.length then throw .addressOfMany
  let hasher ← Hasher.prepare config.hasher
  let index ← openIndex indexPath
  addGraphs executable address graphs ⟨hasher, index, config.minBranching, config.lowSpace⟩ {}

end Flowprint.Command
