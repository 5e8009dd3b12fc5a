/-
  Flowprint.Index.Database
  ────────────────────────────────
  The contents of an index file: two numbers that tell what kind of file it is, a header of named
  numbers, the records, and the entries of all permutations.

  An operation files entries only for records that are there, and removes none of either.
  Record numbers grow by one and are never used again.

  Main statements:

      readHeader_setHeader    what was written to the header is read from it
      founded_empty           an empty database is made a new index
-/
import Flowprint.Index.Entry
import Flowprint.Index.Fault
import Flowprint.Permutation
import Std.Data.ExtTreeMap
import Std.Data.ExtTreeSet

namespace Flowprint.Index

open Std

/-- The number that marks a file as an index. -/
def applicationMark : Int32 := 0x46535349

/-- The tables of an index. -/
structure Tables where
  header : ExtTreeMap String Int64 := ∅
  records : ExtTreeMap RecordId Record := ∅
  entries : ExtTreeSet Key := ∅
  /-- The number of the last record that was added. -/
  lastId : RecordId := 0
  deriving DecidableEq

/-- The contents of a database file. -/
structure Database where
  applicationId : Int32 := 0
  schemaVersion : Int32 := 0
  /-- The tables, if the file has those of an index. -/
  tables : Option Tables := none
  deriving DecidableEq

/-! ## §1. The header. -/

/-- The header's name for the capacity in bytes. -/
def capacityKey : String := "capacity_bytes"

/-- The header's name for the number of permutations. -/
def permutationsKey : String := "permutations"

/-- The header's name for the number of records. -/
def countKey : String := "record_count"

namespace Tables

/-- The tables with a number in their header. -/
def setHeader (tables : Tables) (key : String) (value : UInt64) : Tables :=
  { tables with header := tables.header.insert key value.toInt64 }

/-- A number of the header. -/
def readHeader (tables : Tables) (key : String) : Except Fault UInt64 :=
  match tables.header[key]? with
  | none => .error (.corruptHeader (.missing key))
  | some value =>
    if 0 ≤ value then .ok value.toUInt64 else .error (.corruptHeader (.negative key value))

/-- What was written to the header is read from it, if it is no negative number there. -/
theorem readHeader_setHeader (tables : Tables) (key : String) {value : UInt64}
    (h : 0 ≤ value.toInt64) : (tables.setHeader key value).readHeader key = .ok value := by
  simp [readHeader, setHeader, h]

/-! ## §2. Records and entries. -/

/-- The keys under which a record is filed. -/
def keysOf (permutations : Nat) (hash : SimHash) (id : RecordId) : List Key :=
  (Permutation.orbit permutations hash.toBits).mapIdx fun k bits => Key.of k (.ofBits bits) id

/-- The tables with one more record and its entries; gives the number of the record. -/
def append (permutations : Nat) (record : Record) (tables : Tables) : RecordId × Tables :=
  let id := tables.lastId + 1
  (id, { tables with
    records := tables.records.insert id record
    entries := (keysOf permutations record.hash id).foldl (fun entries key => entries.insert key)
      tables.entries
    lastId := id })

/-- The tables with more records and their entries; gives the numbers of the records. -/
def appendAll (permutations : Nat) : List Record → Tables → List RecordId × Tables
  | [], tables => ([], tables)
  | record :: rest, tables =>
    let (id, tables) := tables.append permutations record
    let (ids, tables) := appendAll permutations rest tables
    (id :: ids, tables)

/-- The listed entries, ascending: those of the first permutation, or all. -/
def list (tables : Tables) (all : Bool) : List Entry :=
  (tables.entries.toList.filter fun key => all || key.permutation == 0).map Key.entry

end Tables

/-! ## §3. Files. -/

namespace Database

/-- A new index with nothing in it. -/
def fresh (capacity : UInt64) (permutations : UInt32) : Database :=
  let tables : Tables := {}
  { applicationId := applicationMark
    schemaVersion := currentSchema
    tables := some (((tables.setHeader countKey 0).setHeader capacityKey capacity).setHeader
      permutationsKey permutations.toUInt64) }

/-- The database after an upgrade of its tables: the first form had no reliable count of records in
the header, so the records are counted. -/
def upgraded (database : Database) (tables : Tables) : Database × Tables :=
  if database.schemaVersion < currentSchema then
    let tables := tables.setHeader countKey (.ofNat tables.records.size)
    ({ database with schemaVersion := currentSchema, tables := some tables }, tables)
  else (database, tables)

/-- The database made that of a new index.  Tables of an index that it has already stay, with their
records. -/
def founded (capacity : UInt64) (permutations : UInt32) (database : Database) :
    Except Fault Database :=
  if currentSchema < database.schemaVersion then
    .error (.unsupportedSchema database.schemaVersion)
  else
    let begun := if database.schemaVersion ≠ 0 then database else
      ⟨applicationMark, oldestSchema, some (database.tables.getD {})⟩
    match begun.tables with
    | none => .error .storage
    | some tables =>
      let (database, tables) := begun.upgraded tables
      .ok { database with
        tables := some ((tables.setHeader capacityKey capacity).setHeader permutationsKey
          permutations.toUInt64) }

/-- An empty database is made a new index with nothing in it. -/
theorem founded_empty (capacity : UInt64) (permutations : UInt32) :
    founded capacity permutations {} = .ok (fresh capacity permutations) := by
  rfl

/-! ### Edits from outside

What other programs can do to a database between two operations.  No operation makes these changes;
files with rows missing, or with a header that does not make sense, come of them. -/

/-- The database with its tables changed, if it has those of an index. -/
def modifyTables (database : Database) (change : Tables → Except Fault Tables) :
    Except Fault Database :=
  match database.tables with
  | none => .error .storage
  | some tables =>
    match change tables with
    | .ok tables => .ok { database with tables := some tables }
    | .error fault => .error fault

/-- Put any signed number into the header. -/
def putHeader (database : Database) (key : String) (value : Int64) : Except Fault Database :=
  database.modifyTables fun tables =>
    .ok { tables with header := tables.header.insert key value }

/-- Remove a number from the header. -/
def dropHeader (database : Database) (key : String) : Except Fault Database :=
  database.modifyTables fun tables => .ok { tables with header := tables.header.erase key }

/-- Remove a record to which no entry refers. -/
def dropRecord (database : Database) (id : RecordId) : Except Fault Database :=
  database.modifyTables fun tables =>
    if tables.records.contains id && tables.entries.toList.any (·.record == id) then
      .error .storage
    else .ok { tables with records := tables.records.erase id }

end Database

end Flowprint.Index
