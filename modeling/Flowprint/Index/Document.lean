/-
  Flowprint.Index.Document
  ────────────────────────────────
  Records, hits, entries and numbers about an index as JSON documents.
-/
import Flowprint.Index.Query
import Flowprint.SimHash.Document

namespace Flowprint.Index

/-- A record as a document. -/
def Record.toJson (record : Record) : Json.Value :=
  .object [("hash", record.hash.toJson), ("executable_id", .nat record.executable.toNat),
    ("address", .nat record.address.toNat)]

/-- The record that a document holds. -/
def Record.scanner : Json.Scanner Record :=
  (Json.record "IndexRecord"
    (.cons (.required "hash" SimHash.scanner)
    (.cons (.required "executable_id" Json.word64)
    (.cons (.required "address" Json.word64) .nil)))).map
    fun (hash, executable, address, ()) => ⟨hash, executable, address⟩

/-- A hit as a document. -/
def Hit.toJson (hit : Hit) : Json.Value :=
  .object [("matching_bits", .nat hit.matching.toNat), ("executable_id", .nat hit.executable.toNat),
    ("address", .nat hit.address.toNat), ("hash", hit.hash.toJson), ("record_id", .int hit.record)]

/-- The hit that a document holds. -/
def Hit.scanner : Json.Scanner Hit :=
  (Json.record "QueryHit"
    (.cons (.required "matching_bits" Json.word32)
    (.cons (.required "executable_id" Json.word64)
    (.cons (.required "address" Json.word64)
    (.cons (.required "hash" SimHash.scanner)
    (.cons (.required "record_id" Json.signed64) .nil)))))).map
    fun (matching, executable, address, hash, record, ()) =>
      ⟨matching, executable, address, hash, record⟩

/-- An entry as a document. -/
def Entry.toJson (entry : Entry) : Json.Value :=
  .object [("permutation", .nat entry.permutation.toNat), ("permuted", entry.permuted.toJson),
    ("record_id", .int entry.record)]

/-- The entry that a document holds. -/
def Entry.scanner : Json.Scanner Entry :=
  (Json.record "IndexEntry"
    (.cons (.required "permutation" Json.word32)
    (.cons (.required "permuted" SimHash.scanner)
    (.cons (.required "record_id" Json.signed64) .nil)))).map
    fun (permutation, permuted, record, ()) => ⟨permutation, permuted, record⟩

/-- Numbers about an index as a document. -/
def Stats.toJson (stats : Stats) : Json.Value :=
  .object
    [ ("schema_version", .int stats.schemaVersion),
      ("permutations", .nat stats.permutations.toNat),
      ("record_count", .nat stats.recordCount.toNat),
      ("permuted_entry_count", .nat stats.entryCount.toNat),
      ("capacity_bytes", .nat stats.capacity.toNat),
      ("used_bytes", .nat stats.used.toNat),
      ("free_bytes", .nat stats.free.toNat),
      ("bytes_per_record", .nat stats.bytesPerRecord.toNat) ]

/-- The numbers that a document holds. -/
def Stats.scanner : Json.Scanner Stats :=
  (Json.record "IndexStats"
    (.cons (.required "schema_version" Json.signed32)
    (.cons (.required "permutations" Json.word32)
    (.cons (.required "record_count" Json.word64)
    (.cons (.required "permuted_entry_count" Json.word64)
    (.cons (.required "capacity_bytes" Json.word64)
    (.cons (.required "used_bytes" Json.word64)
    (.cons (.required "free_bytes" Json.word64)
    (.cons (.required "bytes_per_record" Json.word64) .nil))))))))).map
    fun (schemaVersion, permutations, recordCount, entryCount, capacity, used, free,
        bytesPerRecord, ()) =>
      { schemaVersion, permutations, recordCount, entryCount, capacity, used, free,
        bytesPerRecord }

end Flowprint.Index
