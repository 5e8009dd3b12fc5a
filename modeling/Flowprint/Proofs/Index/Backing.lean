/-
  Flowprint.Proofs.Index.Backing
  ────────────────────────────────
  Entries that have their records.

  A query ranks entries and fetches the records afterwards.  It can rely on what it fetches if the
  tables are backed: every entry is that of a record which is there, filed under a permuted hash of that
  record.  This asks for less than `Filed`: a record need not have an entry for every permutation.  So
  it holds of tables that were filled under different numbers of permutations, too.

  Main statements:

      Backed.appendAll      a batch leaves the tables backed
      Filed.backed          tables that file some records are backed
-/
import Flowprint.Proofs.Index.Filing

namespace Flowprint.Index

open Std

/-- Every entry is that of a record which is there, and no record has a number beyond the last one. -/
structure Backed (tables : Tables) : Prop where
  entries : ∀ {key}, key ∈ tables.entries → ∃ k record,
    tables.records[key.record]? = some record ∧ key = Key.of k (permutedAt k record.hash) key.record
  last : ∀ {id record}, tables.records[id]? = some record → LE.le (α := Int) id tables.lastId

namespace Backed

variable {tables : Tables}

/-- The header does not matter. -/
theorem setHeader (h : Backed tables) (key : String) (value : UInt64) :
    Backed (tables.setHeader key value) :=
  ⟨h.entries, h.last⟩

/-- One record more leaves the tables backed, whatever the number of permutations. -/
theorem append (h : Backed tables) (permutations : Nat) (record : Record) :
    Backed (tables.append permutations record).2 where
  entries := by
    intro key hkey
    change key ∈ (Tables.keysOf permutations record.hash (tables.lastId + 1)).foldl
      (fun entries key => entries.insert key) tables.entries at hkey
    show ∃ k found, (tables.records.insert (tables.lastId + 1) record)[key.record]? = some found ∧ _
    rw [ExtTreeMap.getElem?_insert]
    rcases mem_foldl_insert.mp hkey with hnew | hold
    · obtain ⟨k, -, rfl⟩ := mem_keysOf.mp hnew
      exact ⟨k, record, if_pos (Std.compare_eq_iff_eq.mpr rfl), rfl⟩
    · -- the record of an old entry keeps its number, which is not the new one
      obtain ⟨k, found, hfound, hof⟩ := h.entries hold
      have hle := h.last hfound
      have hne : ¬ compare (tables.lastId + 1) key.record = .eq := by
        rw [Std.compare_eq_iff_eq]
        intro heq
        have hsame : Eq (α := Int) (tables.lastId + 1) key.record := heq
        omega
      exact ⟨k, found, (if_neg hne).trans hfound, hof⟩
  last := by
    intro id found hfound
    change (tables.records.insert (tables.lastId + 1) record)[id]? = some found at hfound
    show LE.le (α := Int) id (tables.lastId + 1)
    rw [ExtTreeMap.getElem?_insert] at hfound
    split at hfound
    next heq =>
      have hsame : Eq (α := Int) (tables.lastId + 1) id := Std.compare_eq_iff_eq.mp heq
      omega
    next =>
      have hle := h.last hfound
      omega

/-- A batch leaves the tables backed. -/
theorem appendAll (h : Backed tables) (permutations : Nat) (records : List Record) :
    Backed (tables.appendAll permutations records).2 := by
  induction records generalizing tables with
  | nil => exact h
  | cons record records ih => exact ih (h.append permutations record)

end Backed

/-- Tables that file some records are backed. -/
theorem Filed.backed {permutations : Nat} {stored : List Record} {tables : Tables}
    (h : Filed permutations stored tables) : Backed tables where
  entries := by
    intro key hkey
    obtain ⟨id, record, hstored, hof⟩ := h.entries.mp hkey
    obtain ⟨k, -, rfl⟩ := mem_keysOf.mp hof
    exact ⟨k, record, h.records.mpr hstored, rfl⟩
  last := by
    intro id record hrecord
    rw [h.lastId]
    exact id_le_length (h.records.mp hrecord)

end Flowprint.Index
