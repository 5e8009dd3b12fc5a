/-
  Flowprint.Index.File
  ────────────────────────────────
  Indexes in files.

  An index is created where its path leads to nothing, and opened where it is.  Every operation of a
  handle reads the file as it is at that moment; only the capacity, the number of permutations and
  the number of records are the handle's own.  A path can lead to nothing and still spell a file;
  then an index that is there is taken over with its records, as an empty one.
-/
import Flowprint.Disk
import Flowprint.Index.Locator
import Flowprint.Index.Query

namespace Flowprint.Index.File

/-! ## §1. Databases in files. -/

/-- The database in a file; one of a byte at most holds an empty database. -/
def databaseOf : FileNode → Except Fault Database
  | .database contents => .ok contents
  | .file content => if content.length ≤ 1 then .ok {} else .error .storage
  | .directory => .error .storage

/-- The database of an open index. -/
def database (store : Store) (disk : Disk) : Except Fault Database :=
  match store with
  | .alone database => .ok database
  | .file place =>
    match disk.lookup place with
    | some node => databaseOf node
    | none => .error .storage

/-- The tables of an open index. -/
def tables (store : Store) (disk : Disk) : Except Fault Tables :=
  match database store disk with
  | .error fault => .error fault
  | .ok database =>
    match database.tables with
    | none => .error .storage
    | some tables => .ok tables

/-- Whether what is in a file can be changed: a journal stands beside it meanwhile. -/
def hasRoomForJournal (place : Place) : Bool :=
  place.getLast?.all fun name => ! Place.isTooLong (name ++ "-journal")

/-- Put a database where the one of an open index is; gives where it is then. -/
def put (store : Store) (database : Database) : DiskM Fault Store := fun disk =>
  match store with
  | .alone _ => (.ok (.alone database), disk)
  | .file place =>
    if hasRoomForJournal place then (.ok store, disk.put place (.database database))
    else (.error .storage, disk)

/-- Put tables where those of an open index are; gives where they are then. -/
def putTables (store : Store) (tables : Tables) : DiskM Fault Store := do
  put store { ← database store (← get) with tables := some tables }

/-! ## §2. Opening. -/

/-- Where the database is to which a path leads; a file is created if it may be. -/
def locate (access : Access) (path : String) (disk : Disk) : Except Fault (Store × Disk) :=
  match Locator.ofPath? access path with
  | none => .error .storage
  | some .alone => .ok (.alone {}, disk)
  | some (.file name mayCreate) =>
    match disk.spelled name with
    | .error _ => .error .storage
    | .ok place =>
      if (disk.lookup place).isNone && ! mayCreate then .error .storage
      else
        match disk.touch place with
        | .error _ => .error .storage
        | .ok disk => .ok (.file place, disk)

/-- Make a new index of the database that is there. -/
def found (path : String) (options : Options) (store : Store) : DiskM Fault Handle := do
  let database ← database store (← get)
  let store ← put store (← database.founded options.capacity options.permutations)
  return .ofOptions path store options

/-- Create an index. -/
def create (path : String) (options : Options) : DiskM Fault Handle := fun disk =>
  match options.validate with
  | .error fault => (.error fault, disk)
  | .ok () =>
    if disk.holds path then (.error (.alreadyExists path), disk)
    else
      match locate .create path disk with
      | .error fault => (.error fault, disk)
      | .ok (store, disk) => found path options store disk

/-- Open an index.  Its tables are upgraded if they have an older form, and stay upgraded even if
the header then turns out not to make sense. -/
def load (path : String) : DiskM Fault Handle := fun disk =>
  if disk.holds path then
    match locate .write path disk with
    | .error fault => (.error fault, disk)
    | .ok (store, disk) =>
      match database store disk with
      | .error fault => (.error fault, disk)
      | .ok found =>
        let (handle, opened) := found.openAt path store
        if opened = found then (handle, disk)
        else
          match put store opened disk with
          | (.ok _, disk) => (handle, disk)
          | (.error fault, disk) => (.error fault, disk)
  else (.error (.missing path), disk)

/-- Create an index, or open one. -/
def createOrLoad (path : String) (create : Bool) (options : Options) : DiskM Fault Handle :=
  if create then File.create path options else load path

/-- Open an index, or create it where nothing is. -/
def loadOrCreate (path : String) (options : Options) : DiskM Fault Handle := do
  if (← get).holds path then load path else create path options

/-! ## §3. Operations of a handle. -/

/-- Add records; gives their numbers.  Whether there is room is decided before the file is read. -/
def add (handle : Handle) (records : List Record) : DiskM Fault (List RecordId × Handle) := do
  handle.checkRoom records.length
  let (ids, handle, tables) ← handle.add records (← tables handle.store (← get))
  return (ids, { handle with store := ← putTables handle.store tables })

/-- Add capacity. -/
def grow (handle : Handle) (extra : UInt64) : DiskM Fault Handle := do
  let (handle, tables) := handle.grow extra (← tables handle.store (← get))
  return { handle with store := ← putTables handle.store tables }

/-- The best `n` hits for a hash.  For no hits the file is not read. -/
def query (handle : Handle) (hash : SimHash) (n : Nat) (disk : Disk) : Except Fault (List Hit) :=
  if n = 0 then .ok []
  else
    match tables handle.store disk with
    | .error fault => .error fault
    | .ok tables => handle.query hash n tables

/-- The record of a number. -/
def record? (handle : Handle) (id : RecordId) (disk : Disk) : Except Fault (Option Record) :=
  (tables handle.store disk).map fun tables => tables.records[id]?

/-- All records with their numbers, ascending. -/
def records (handle : Handle) (disk : Disk) : Except Fault (List (RecordId × Record)) :=
  (tables handle.store disk).map fun tables => tables.records.toList

/-- The listed entries, ascending: those of the first permutation, or all. -/
def entries (handle : Handle) (all : Bool) (disk : Disk) : Except Fault (List Entry) :=
  (tables handle.store disk).map fun tables => tables.list all

/-- Numbers about the index. -/
def stats (handle : Handle) (disk : Disk) : Except Fault Stats := do
  let database ← database handle.store disk
  return handle.stats database.schemaVersion (← tables handle.store disk)

/-! ## §4. Edits from outside. -/

/-- Change the database in a file, which is there afterwards even if the change is refused.  No operation
does this: it stands for what other programs do to a file between two operations, so that files which
no operation leaves behind, such as those of an older form or with rows missing, can be made
(`Session.run_edit_lose`). -/
def edit (path : String) (change : Database → Except Fault Database) : DiskM Fault Unit := do
  match (← get).locate path with
  | .error _ => throw .storage
  | .ok place =>
    match (← get).touch place with
    | .error _ => throw .storage
    | .ok disk =>
      set disk
      let _ ← put (.file place) (← change (← database (.file place) disk))

end Flowprint.Index.File
