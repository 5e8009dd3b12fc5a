/-
  Flowprint.Index.Handle
  ────────────────────────────────
  Open indexes.

  A handle knows the capacity, the number of permutations and the number of records as they were
  when it was opened, and keeps them up to date with its own writes.  Several handles may be open on
  one file; each goes by its own numbers.  An index may also be in no file and live with its handle.

  The capacity is a budget: a record costs a fixed number of bytes for itself and for each of its
  entries, and a batch of records that would exceed the budget is refused as a whole.
-/
import Flowprint.Index.Database
import Flowprint.Place
import Flowprint.Saturating

namespace Flowprint.Index

/-! ## §1. Options. -/

/-- How an index is created. -/
structure Options where
  /-- The logarithm of the capacity in bytes. -/
  bits : UInt32 := 28
  permutations : UInt32 := 28
  deriving Repr, DecidableEq

/-- Whether the options are in range. -/
def Options.validate (options : Options) : Except Fault Unit :=
  if options.bits.toNat < minCapacityBits ∨ maxCapacityBits < options.bits.toNat then
    .error (.invalidCapacity options.bits)
  else if options.permutations.toNat < 1 ∨ maxPermutations < options.permutations.toNat then
    .error (.invalidPermutations options.permutations)
  else .ok ()

/-- The capacity in bytes. -/
def Options.capacity (options : Options) : UInt64 :=
  1 <<< options.bits.toUInt64

/-! ## §2. Handles. -/

/-- Where the database of an open index is. -/
inductive Store where
  /-- In the file at a place. -/
  | file (place : Place)
  /-- With the handle alone. -/
  | alone (database : Database)
  deriving DecidableEq

/-- An open index. -/
structure Handle where
  /-- The path with which it was opened. -/
  path : String
  store : Store
  capacity : UInt64
  permutations : UInt32
  /-- The number of records. -/
  count : UInt64
  deriving DecidableEq

/-- The bytes that a record itself costs. -/
def recordBytes : UInt64 := 32

/-- The bytes that an entry costs. -/
def entryBytes : UInt64 := 25

/-- The largest number of a header. -/
def maxHeader : UInt64 := 0x7fffffffffffffff

namespace Handle

/-- The bytes that a record costs with its entries. -/
def bytesPerRecord (handle : Handle) : UInt64 :=
  recordBytes + entryBytes * handle.permutations.toUInt64

/-- The bytes spent. -/
def used (handle : Handle) : UInt64 :=
  satMul handle.count handle.bytesPerRecord

/-- The bytes left. -/
def free (handle : Handle) : UInt64 :=
  satSub handle.capacity handle.used

/-- The bytes that a number of records cost. -/
def cost (handle : Handle) (records : Nat) : UInt64 :=
  satMul (clampWord records) handle.bytesPerRecord

/-- The handle on a new index. -/
def ofOptions (path : String) (store : Store) (options : Options) : Handle :=
  ⟨path, store, options.capacity, options.permutations, 0⟩

/-- A number of permutations that an index can have. -/
def checkPermutations (count : UInt64) : Except Fault UInt32 :=
  if 1 ≤ count.toNat ∧ count.toNat ≤ maxPermutations then .ok count.toUInt32
  else .error (.corruptHeader (.permutationsOutOfRange count))

/-- The handle that a header describes. -/
def ofTables (path : String) (store : Store) (tables : Tables) : Except Fault Handle := do
  let capacity ← tables.readHeader capacityKey
  let permutations ← checkPermutations (← tables.readHeader permutationsKey)
  let count ← tables.readHeader countKey
  return ⟨path, store, capacity, permutations, count⟩

end Handle

/-- Open the index in a database.  The tables are upgraded before their header is read, so that the
database may have changed even if there is no handle. -/
def Database.openAt (path : String) (store : Store) (database : Database) :
    Except Fault Handle × Database :=
  if database.applicationId ≠ applicationMark then
    (.error (.foreignFormat database.applicationId), database)
  else if database.schemaVersion < oldestSchema ∨ currentSchema < database.schemaVersion then
    (.error (.unsupportedSchema database.schemaVersion), database)
  else
    match database.tables with
    | none => (.error .storage, database)
    | some tables =>
      let (database, tables) := database.upgraded tables
      (Handle.ofTables path store tables, database)

/-! ## §3. Writing. -/

namespace Handle

/-- Whether a number of records fits. -/
def checkRoom (handle : Handle) (records : Nat) : Except Fault Unit :=
  if handle.free < handle.cost records then
    .error (.exhausted handle.free (handle.cost records))
  else .ok ()

/-- Add records; gives their numbers. -/
def add (handle : Handle) (records : List Record) (tables : Tables) :
    Except Fault (List RecordId × Handle × Tables) :=
  match handle.checkRoom records.length with
  | .error fault => .error fault
  | .ok () =>
    let (ids, tables) := tables.appendAll handle.permutations.toNat records
    let count := handle.count + .ofNat records.length
    .ok (ids, { handle with count := count }, tables.setHeader countKey count)

/-- Add capacity. -/
def grow (handle : Handle) (extra : UInt64) (tables : Tables) : Handle × Tables :=
  let capacity := min (satAdd handle.capacity extra) maxHeader
  ({ handle with capacity := capacity }, tables.setHeader capacityKey capacity)

end Handle

/-! ## §4. Numbers about an index. -/

/-- How large an index is and how full. -/
structure Stats where
  schemaVersion : Int
  permutations : UInt32
  recordCount : UInt64
  entryCount : UInt64
  capacity : UInt64
  used : UInt64
  free : UInt64
  bytesPerRecord : UInt64
  deriving Repr, DecidableEq

/-- The numbers about an open index.  The form of the tables and the number of entries are taken
from the file, all else from the handle. -/
def Handle.stats (handle : Handle) (schemaVersion : Int32) (tables : Tables) : Stats :=
  { schemaVersion := schemaVersion.toInt
    permutations := handle.permutations
    recordCount := handle.count
    entryCount := .ofNat tables.entries.size
    capacity := handle.capacity
    used := handle.used
    free := handle.free
    bytesPerRecord := handle.bytesPerRecord }

end Flowprint.Index
