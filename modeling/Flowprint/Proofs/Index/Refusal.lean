/-
  Flowprint.Proofs.Index.Refusal
  ────────────────────────────────
  Indexes that are refused.

  The mark of a database and the form of its tables are looked at before anything is written, but the
  header is read only after tables of the first form have been upgraded.  So an index of the first
  form the header of which makes no sense is refused, and yet is one of the current form afterwards,
  with its records counted.  Whatever else is refused stays as it is.

  Main statements:

      ofTables_counted    counting the records mends nothing else in a header
      openAt_changed      opening changes databases of the first form only
      lookup_kept         a failed opening keeps every other file
      failed_load         what a failed opening changes
-/
import Flowprint.Proofs.Index.Upgrading

namespace Flowprint.Index

open Std

/-! ## §1. Headers that make no sense. -/

/-- What is wrong with a header, apart from its count of records. -/
inductive Unusable (tables : Tables) : Fault → Prop
  | capacity {fault : Fault} (h : tables.readHeader capacityKey = .error fault) :
    Unusable tables fault
  | permutations {fault : Fault} {capacity : UInt64}
      (hcapacity : tables.readHeader capacityKey = .ok capacity)
      (h : tables.readHeader permutationsKey = .error fault) :
    Unusable tables fault
  | range {capacity stated : UInt64} (hcapacity : tables.readHeader capacityKey = .ok capacity)
      (hstated : tables.readHeader permutationsKey = .ok stated)
      (h : ¬ (1 ≤ stated.toNat ∧ stated.toNat ≤ maxPermutations)) :
    Unusable tables (.corruptHeader (.permutationsOutOfRange stated))

theorem checkPermutations_eq_error {stated : UInt64} {fault : Fault} :
    Handle.checkPermutations stated = .error fault
      ↔ ¬ (1 ≤ stated.toNat ∧ stated.toNat ≤ maxPermutations)
        ∧ fault = .corruptHeader (.permutationsOutOfRange stated) := by
  unfold Handle.checkPermutations
  split
  next hrange => exact ⟨fun h => absurd h (by simp), fun h => absurd hrange h.1⟩
  next hrange =>
    constructor
    · intro h
      exact ⟨hrange, (Except.error.inj h).symm⟩
    · intro h
      rw [h.2]

/-- Counting the records mends nothing else in a header. -/
theorem ofTables_counted {tables : Tables} (hrows : tables.records.size ≤ maxHeader.toNat)
    {path : String} {store : Store} {fault : Fault} :
    Handle.ofTables path store tables.counted = .error fault ↔ Unusable tables fault := by
  obtain ⟨count, hcount, -⟩ := (counted_counted hrows).count
  have hcapacity : tables.counted.readHeader capacityKey = tables.readHeader capacityKey :=
    readHeader_setHeader_ne tables (by decide) _
  have hpermutations : tables.counted.readHeader permutationsKey = tables.readHeader permutationsKey :=
    readHeader_setHeader_ne tables (by decide) _
  rw [Handle.ofTables, hcapacity, hpermutations, hcount]
  constructor
  · intro h
    cases hread : tables.readHeader capacityKey with
    | error cause =>
      rw [hread] at h
      obtain rfl := Except.error.inj h
      exact .capacity hread
    | ok capacity =>
      rw [hread] at h
      cases hstated : tables.readHeader permutationsKey with
      | error cause =>
        rw [hstated] at h
        obtain rfl := Except.error.inj h
        exact .permutations hread hstated
      | ok stated =>
        rw [hstated] at h
        cases hcheck : Handle.checkPermutations stated with
        | error cause =>
          replace h : (Handle.checkPermutations stated >>= fun _ => _) = Except.error fault := h
          rw [hcheck] at h
          obtain rfl := Except.error.inj h
          obtain ⟨hrange, rfl⟩ := checkPermutations_eq_error.mp hcheck
          exact .range hread hstated hrange
        | ok permutations =>
          replace h : (Handle.checkPermutations stated >>= fun _ => _) = Except.error fault := h
          rw [hcheck] at h
          cases h
  · intro h
    cases h with
    | capacity hread =>
      rw [hread]
      rfl
    | permutations hread hstated =>
      rw [hread, hstated]
      rfl
    | range hread hstated hrange =>
      rw [hread, hstated]
      show (Handle.checkPermutations _ >>= _) = _
      rw [checkPermutations_eq_error.mpr ⟨hrange, rfl⟩]
      rfl

/-! ## §2. What opening changes. -/

/-- Opening changes databases of the first form only. -/
theorem openAt_changed {path : String} {store : Store} {found : Database}
    (h : (found.openAt path store).2 ≠ found) :
    ∃ tables, found = ⟨applicationMark, oldestSchema, some tables⟩ := by
  unfold Database.openAt at h
  split at h
  · exact absurd rfl h
  next hmark =>
    split at h
    · exact absurd rfl h
    next hknown =>
      split at h
      · exact absurd rfl h
      next tables htables =>
        by_cases hold : found.schemaVersion < currentSchema
        · have hbelow : ¬ found.schemaVersion < oldestSchema := fun hlt => hknown (.inl hlt)
          rw [Int32.lt_iff_toInt_lt] at hold hbelow
          -- there is one form between those that are too old and the current one
          have hforms : oldestSchema.toInt = 1 ∧ currentSchema.toInt = 2 := by decide
          have hfirst : found.schemaVersion = oldestSchema := Int32.toInt_inj.mp (by omega)
          refine ⟨tables, ?_⟩
          rw [← Decidable.byContradiction hmark, ← hfirst, ← htables]
        · rw [Database.upgraded, if_neg hold] at h
          exact absurd rfl h

section Failing

variable {path : String} {place : Place} {disk after : Disk} {fault : Fault}

/-- A failed opening keeps every file that was there, if the path does not lead to one of the first
form. -/
theorem lookup_kept (h : (File.load path).run disk = (.error fault, after))
    (hnone : ∀ other tables, Leads path other disk → ¬ Outdated other tables disk)
    (hthere : (disk.lookup place).isSome) : after.lookup place = disk.lookup place := by
  rw [Index.run_load] at h
  split at h
  next hholds =>
    split at h
    next => rw [← (Prod.mk.inj h).2]
    next store located hlocate =>
      have hsame := lookup_locate hlocate hthere
      split at h
      next => rw [← (Prod.mk.inj h).2, hsame]
      next found hfound =>
        unfold File.openFound at h
        split at h
        next => rw [← (Prod.mk.inj h).2, hsame]
        next hchanged =>
          obtain ⟨tables, rfl⟩ := openAt_changed hchanged
          obtain ⟨other, rfl, rfl, hcontents⟩ := marked_locate hlocate hfound rfl
          -- a file of the first form stays only if there is no room for a journal
          have hroom : ¬ File.hasRoomForJournal other = true := fun hroom =>
            hnone other tables ⟨hholds, hlocate⟩ ⟨hcontents, hroom⟩
          have hput : File.put (.file other) ⟨applicationMark, currentSchema, some tables.counted⟩
              located = (.error .storage, located) := if_neg hroom
          rw [openAt_oldest, hput] at h
          rw [← (Prod.mk.inj h).2]
  next => rw [← (Prod.mk.inj h).2]

/-- A file of the first form is another file when it has been upgraded. -/
theorem Outdated.lookup_counted {tables : Tables} (h : Outdated place tables disk) :
    (disk.put place (indexFile tables.counted)).lookup place ≠ disk.lookup place := by
  have hbelow : Place.isAncestor place = false :=
    Disk.isAncestor_eq_false (by rw [h.contents]; simp)
  have hforms : currentSchema ≠ oldestSchema := by decide
  rw [Disk.lookup_put disk hbelow, h.contents]
  intro heq
  exact hforms (congrArg Database.schemaVersion (FileNode.database.inj (Option.some.inj heq)))

/-- A failed opening changes a file that was there exactly if it is of the first form and the path
leads to it. -/
theorem lookup_failed (h : (File.load path).run disk = (.error fault, after))
    (hthere : (disk.lookup place).isSome) :
    after.lookup place ≠ disk.lookup place
      ↔ ∃ tables, Leads path place disk ∧ Outdated place tables disk := by
  constructor
  · intro hchanged
    by_contra hnone
    refine hchanged (lookup_kept h (fun other tables hleads houtdated => ?_) hthere)
    -- the file to which the path leads is another one, and is all that changes
    have hne : other ≠ place := fun heq => hnone ⟨tables, heq ▸ hleads, heq ▸ houtdated⟩
    rw [houtdated.run_load hleads] at h
    rw [← (Prod.mk.inj h).2] at hchanged
    exact hchanged (Disk.lookup_put_ne disk hne _)
  · intro hex
    obtain ⟨tables, hleads, houtdated⟩ := hex
    rw [houtdated.run_load hleads] at h
    rw [← (Prod.mk.inj h).2]
    exact houtdated.lookup_counted

end Failing

/-- An opening that fails changes a file that was there only if it is an index of the first form, the
header of which makes no sense.  The file is refused for what is wrong with its header, and is of the
current form then: its records are counted, and nothing else in it is different. -/
theorem failed_load (path : String) (disk : Disk) :
    (∀ {fault after}, (File.load path).run disk = (.error fault, after) →
        ∀ {place}, (disk.lookup place).isSome → (after.lookup place ≠ disk.lookup place
          ↔ ∃ tables, Leads path place disk ∧ Outdated place tables disk))
      ∧ ∀ {place tables}, Leads path place disk → Outdated place tables disk →
          -- a file cannot have more rows than a header can count
          tables.records.size ≤ maxHeader.toNat →
          Counted tables tables.counted
            ∧ ∀ {fault after}, (File.load path).run disk = (.error fault, after)
              ↔ Unusable tables fault ∧ after = disk.put place (indexFile tables.counted) := by
  refine ⟨fun h _ hthere => lookup_failed h hthere, fun {place tables} hleads h hrows => ?_⟩
  refine ⟨counted_counted hrows, fun {fault after} => ?_⟩
  rw [h.run_load hleads, Prod.mk.injEq, ofTables_counted hrows, eq_comm (a := after)]

/-! ## §3. A refused index that is upgraded. -/

/-- The path "i" leads to a database of this name. -/
theorem leads_start {disk : Disk} {old : Database}
    (hthere : disk.lookup ["i"] = some (.database old)) : Leads "i" ["i"] disk := by
  have htouch : disk.touch ["i"] = .ok disk := by simp only [Disk.touch, hthere]
  have hspelled : disk.spelled "i" = .ok ["i"] := rfl
  constructor
  · simp only [Disk.holds, Disk.node, Session.locate_start, hthere]
  · simp only [File.locate, Session.ofPath?_start .write (.inl rfl), hspelled, htouch, hthere]
    rfl

/-- Tables of two records with a header that counts seven. -/
def stale : Tables :=
  ((newTables Session.smallOptions).appendAll 1 Session.twoRecords).2.setHeader countKey 7

/-- A disk with an index of the first form. -/
def oldDisk (tables : Tables) : Disk :=
  ({} : Disk).put ["i"] (.database ⟨applicationMark, oldestSchema, some tables⟩)

theorem outdated_oldDisk (tables : Tables) : Outdated ["i"] tables (oldDisk tables) :=
  ⟨Disk.lookup_put _ (by decide) _, by decide⟩

/-- Without permutations the index is refused, and yet its records are counted. -/
theorem failed_load_no_permutations :
    let tables := stale.setHeader permutationsKey 0
    ∃ after, (File.load "i").run (oldDisk tables)
        = (.error (.corruptHeader (.permutationsOutOfRange 0)), after)
      ∧ after.lookup ["i"] ≠ (oldDisk tables).lookup ["i"] := by
  intro tables
  have houtdated := outdated_oldDisk tables
  have hleads := leads_start houtdated.contents
  obtain ⟨hchanged, hrefused⟩ := failed_load "i" (oldDisk tables)
  have hcapacity : tables.readHeader capacityKey = .ok 1024 := rfl
  have hrun := (hrefused hleads houtdated (by decide)).2.mpr
    ⟨.range hcapacity rfl (by decide), rfl⟩
  refine ⟨_, hrun, (hchanged hrun ?_).mpr ⟨tables, hleads, houtdated⟩⟩
  rw [houtdated.contents]
  rfl

/-- An index without a capacity is refused, but is no longer what it was: its form is the current one
and its count of records has changed. -/
theorem refused_and_changed :
    let tables : Tables := { stale with header := stale.header.erase capacityKey }
    ∃ after, (File.load "i").run (oldDisk tables)
        = (.error (.corruptHeader (.missing capacityKey)), after)
      ∧ (oldDisk tables).lookup ["i"] = some (.database ⟨applicationMark, 1, some tables⟩)
      ∧ after.lookup ["i"] = some (.database ⟨applicationMark, 2, some tables.counted⟩)
      ∧ tables.header[countKey]? = some 7 ∧ tables.counted.header[countKey]? = some 2 := by
  intro tables
  have houtdated := outdated_oldDisk tables
  refine ⟨_, houtdated.run_load (leads_start houtdated.contents), houtdated.contents, ?_, rfl, rfl⟩
  exact Disk.lookup_put _ (by decide) _

end Flowprint.Index
