/-
  Flowprint.Index.Storage
  ────────────────────────────────
  The bytes of an index file.

  A file begins with a mark, the first byte of which begins no text.  Words are stored with their
  most significant byte first, lists and texts behind their lengths.
-/
import Flowprint.Index.Database
import Flowprint.Text.Utf8

namespace Flowprint.Index.Storage

open Std

/-! ## §1. Writing. -/

/-- The first bytes of every index file. -/
def mark : List UInt8 := [0xff, 0x46, 0x53, 0x49, 1]

/-- A word of 64 bits. -/
def word (n : UInt64) : List UInt8 :=
  ([56, 48, 40, 32, 24, 16, 8, 0] : List UInt64).map fun shift => (n >>> shift).toUInt8

/-- A signed number of 64 bits. -/
def signed (n : Int) : List UInt8 :=
  word (Int64.ofInt n).toUInt64

/-- A text. -/
def text (s : String) : List UInt8 :=
  let bytes := Text.bytesOf s
  word (.ofNat bytes.length) ++ bytes

/-- A list. -/
def list {α : Type} (item : α → List UInt8) (items : List α) : List UInt8 :=
  word (.ofNat items.length) ++ items.flatMap item

/-- A number of the header with its name. -/
def headerEntry (entry : String × Int64) : List UInt8 :=
  text entry.1 ++ word entry.2.toUInt64

/-- A record with its number. -/
def recordEntry (entry : RecordId × Record) : List UInt8 :=
  signed entry.1 ++ word entry.2.hash.high ++ word entry.2.hash.low ++ word entry.2.executable
    ++ word entry.2.address

/-- A key. -/
def key (key : Key) : List UInt8 :=
  word (.ofNat key.permutation) ++ word key.high.toUInt64 ++ word key.low.toUInt64
    ++ signed key.record

/-- The tables of an index. -/
def tables (tables : Tables) : List UInt8 :=
  list headerEntry tables.header.toList ++ list recordEntry tables.records.toList
    ++ list key tables.entries.toList ++ signed tables.lastId

/-- The bytes of a database. -/
def encode (database : Database) : List UInt8 :=
  mark ++ word database.applicationId.toInt64.toUInt64
    ++ word database.schemaVersion.toInt64.toUInt64 ++ list tables database.tables.toList

/-! ## §2. Reading. -/

/-- A reader of the first bytes of a list. -/
abbrev Reader (α : Type) := StateT (List UInt8) Option α

/-- The next byte. -/
def readByte : Reader UInt8 := do
  match ← get with
  | [] => failure
  | byte :: rest =>
    set rest
    return byte

/-- The next bytes, a given number of them. -/
def readBytes : Nat → Reader (List UInt8)
  | 0 => return []
  | n + 1 => return (← readByte) :: (← readBytes n)

/-- A word of 64 bits. -/
def readWord : Reader UInt64 :=
  return (← readBytes 8).foldl (fun n byte => n <<< 8 ||| byte.toUInt64) 0

/-- A signed number of 64 bits. -/
def readSigned : Reader Int :=
  return (← readWord).toInt64.toInt

/-- A text. -/
def readText : Reader String := do
  let length ← readWord
  (Text.ofBytes? (← readBytes length.toNat) : Option String)

/-- Some items one after the other. -/
def readItems {α : Type} (item : Reader α) : Nat → Reader (List α)
  | 0 => return []
  | n + 1 => return (← item) :: (← readItems item n)

/-- A list. -/
def readList {α : Type} (item : Reader α) : Reader (List α) := do
  readItems item (← readWord).toNat

/-- A number of the header with its name. -/
def readHeaderEntry : Reader (String × Int64) :=
  return (← readText, (← readWord).toInt64)

/-- A record with its number. -/
def readRecordEntry : Reader (RecordId × Record) := do
  let id ← readSigned
  let high ← readWord
  let low ← readWord
  return (id, ⟨⟨high, low⟩, ← readWord, ← readWord⟩)

/-- A key. -/
def readKey : Reader Key := do
  let permutation := (← readWord).toNat
  let high := (← readWord).toInt64
  let low := (← readWord).toInt64
  return ⟨permutation, high, low, ← readSigned⟩

/-- The tables of an index. -/
def readTables : Reader Tables := do
  let header ← readList readHeaderEntry
  let records ← readList readRecordEntry
  let entries ← readList readKey
  return ⟨.ofList header, .ofList records, .ofList entries, ← readSigned⟩

/-- The contents of a database file. -/
def readDatabase : Reader Database := do
  guard ((← readBytes mark.length) = mark)
  let applicationId := (← readWord).toInt64.toInt32
  let schemaVersion := (← readWord).toInt64.toInt32
  return ⟨applicationId, schemaVersion, (← readList readTables).head?⟩

/-- The database that bytes hold, if they hold one and nothing more. -/
def decode? (bytes : List UInt8) : Option Database := do
  match ← readDatabase.run bytes with
  | (database, []) => some database
  | _ => none

end Flowprint.Index.Storage
