/-
  Flowprint.Proofs.Index.Batches
  ────────────────────────────────
  Adding records at once and adding them in batches.

  A list of records may be added at once, one record at a time, or cut into batches in any other way.
  All ways go by the same budget: the records fit together exactly if each batch fits behind the
  batches before it.  So either all ways succeed, with the same numbers and the same file, or none
  does, and then adding at once leaves everything as it was.

  Main statements:

      checkRoom_eq_ok         what a handle finds room for, in plain numbers
      run_addBatches_ok       batches that fit together are stored as one
      run_addBatches_error    of batches that do not fit together, one is refused
      add_all_or_nothing      at once or in batches, all of the records or none
-/
import Flowprint.Proofs.Index.Ledger

namespace Flowprint.Index

open Std

/-! ## §1. Batches. -/

/-- Add batches of records one after another; gives the numbers of all.  A batch that is refused ends
it, and the batches before it stay. -/
def File.addBatches (handle : Handle) : List (List Record) → DiskM Fault (List RecordId × Handle)
  | [] => pure ([], handle)
  | batch :: rest => do
    let (ids, handle) ← File.add handle batch
    let (more, handle) ← File.addBatches handle rest
    return (ids ++ more, handle)

/-- Each record on its own. -/
def singly (records : List Record) : List (List Record) :=
  records.map fun record => [record]

theorem flatten_singly (records : List Record) : (singly records).flatten = records := by
  induction records with
  | nil => rfl
  | cons record records ih => exact congrArg (record :: ·) ih

/-! ## §2. Room for batches. -/

namespace Handle

variable {handle : Handle}

/-- A handle with room for a number of records: they and those that it counts are within the
budget.  There is always room for none. -/
def HasRoom (handle : Handle) (n : Nat) : Prop :=
  n = 0 ∨ (handle.count.toNat + n) * recordCost handle.permutations ≤ handle.capacity.toNat

/-- The handle after a number of records more. -/
def counting (handle : Handle) (n : Nat) : Handle :=
  { handle with count := handle.count + .ofNat n }

@[simp] theorem counting_counting (handle : Handle) (m n : Nat) :
    (handle.counting m).counting n = handle.counting (m + n) := by
  simp only [counting, UInt64.ofNat_add, UInt64.add_assoc]

theorem toNat_cost (handle : Handle) (n : Nat) :
    (handle.cost n).toNat = min (n * recordCost handle.permutations) (UInt64.size - 1) := by
  have hcost : 1 ≤ recordCost handle.permutations := by unfold recordCost; omega
  rw [cost, toNat_satMul, toNat_bytesPerRecord, toNat_clampWord]
  -- a number that is cut off costs more than a word can say anyway
  by_cases hbig : n ≤ UInt64.size - 1
  · rw [Nat.min_eq_left hbig]
  · have hclamped := Nat.mul_le_mul_left (UInt64.size - 1) hcost
    have hwhole := Nat.mul_le_mul (Nat.le_of_not_le hbig) hcost
    rw [Nat.min_eq_right (Nat.le_of_not_le hbig)]
    omega

/-- What a handle finds room for, in plain numbers. -/
theorem checkRoom_eq_ok (hrange : handle.capacity.toNat ≤ maxHeader.toNat) {n : Nat} :
    handle.checkRoom n = .ok () ↔ handle.HasRoom n := by
  have hmax : maxHeader.toNat = 2 ^ 63 - 1 := rfl
  have hsize : UInt64.size = 2 ^ 64 := rfl
  have hcost : 1 ≤ recordCost handle.permutations := by unfold recordCost; omega
  have hcheck : handle.checkRoom n = .ok () ↔ (handle.cost n).toNat ≤ handle.free.toNat := by
    unfold checkRoom
    split
    next hless =>
      rw [UInt64.lt_iff_toNat_lt] at hless
      exact ⟨fun h => absurd h (by simp), fun h => absurd h (by omega)⟩
    next hnot =>
      rw [UInt64.lt_iff_toNat_lt] at hnot
      exact ⟨fun _ => by omega, fun _ => rfl⟩
  have hfree : handle.free.toNat = handle.capacity.toNat
      - min (handle.count.toNat * recordCost handle.permutations) (UInt64.size - 1) := by
    rw [free, toNat_satSub, used, toNat_satMul, toNat_bytesPerRecord]
  rw [hcheck, toNat_cost, hfree, HasRoom, Nat.add_mul]
  rcases Nat.eq_zero_or_pos n with rfl | hpos
  · simp
  · -- a record has a cost, so that there is room only if nothing is cut off
    have hsome := Nat.mul_le_mul hpos hcost
    omega

/-- A batch without room is refused with the numbers of the refusal. -/
theorem checkRoom_eq_error (hrange : handle.capacity.toNat ≤ maxHeader.toNat) {n : Nat}
    (h : ¬ handle.HasRoom n) :
    handle.checkRoom n = .error (.exhausted handle.free (handle.cost n)) := by
  have hnot := mt (checkRoom_eq_ok hrange).mp h
  unfold checkRoom at hnot ⊢
  split
  next => rfl
  next hless => exact absurd (if_neg hless) hnot

/-- Records that fit can be counted. -/
theorem toNat_counting (hrange : handle.capacity.toNat ≤ maxHeader.toNat) {n : Nat}
    (h : handle.HasRoom n) : (handle.counting n).count.toNat = handle.count.toNat + n := by
  show (handle.count + .ofNat n).toNat = _
  rcases h with rfl | hfits
  · simp
  · have htotal := Session.toNat_count (Session.count_le hfits hrange)
    have hcount : handle.count = .ofNat handle.count.toNat := UInt64.ofNat_toNat.symm
    rw [hcount, ← UInt64.ofNat_add, htotal, ← hcount]

/-- Two batches fit together exactly if the second fits behind the first. -/
theorem hasRoom_add (hrange : handle.capacity.toNat ≤ maxHeader.toNat) {m n : Nat} :
    handle.HasRoom (m + n) ↔ handle.HasRoom m ∧ (handle.counting m).HasRoom n := by
  constructor
  · intro h
    have hfirst : handle.HasRoom m := by
      rcases h with hzero | hfits
      · exact .inl (by omega)
      · have hle : (handle.count.toNat + m) * recordCost handle.permutations
            ≤ (handle.count.toNat + (m + n)) * recordCost handle.permutations :=
          Nat.mul_le_mul_right _ (by omega)
        exact .inr (Nat.le_trans hle hfits)
    refine ⟨hfirst, ?_⟩
    rw [HasRoom, toNat_counting hrange hfirst, Nat.add_assoc]
    rcases h with hzero | hfits
    · exact .inl (by omega)
    · exact .inr hfits
  · rintro ⟨hfirst, hsecond⟩
    rw [HasRoom, toNat_counting hrange hfirst, Nat.add_assoc] at hsecond
    rcases hsecond with rfl | hfits
    · exact hfirst
    · exact .inr hfits

end Handle

/-! ## §3. Tables after batches. -/

section Tables

variable {tables : Tables} {permutations : Nat} {key : String}

/-- Of two numbers written to one place of the header the later stays. -/
theorem setHeader_setHeader (tables : Tables) (key : String) (old new : UInt64) :
    (tables.setHeader key old).setHeader key new = tables.setHeader key new := by
  have hheader : (tables.header.insert key old.toInt64).insert key new.toInt64
      = tables.header.insert key new.toInt64 := by
    apply ExtTreeMap.ext_getElem?
    intro other
    simp only [ExtTreeMap.getElem?_insert]
    split <;> rfl
  simp only [Tables.setHeader, hheader]

/-- To write what the header says changes nothing. -/
theorem setHeader_readHeader {value : UInt64} (h : tables.readHeader key = .ok value) :
    tables.setHeader key value = tables := by
  have hstored : tables.header[key]? = some value.toInt64 := by
    unfold Tables.readHeader at h
    split at h
    · exact absurd h (by simp)
    next stored hstored =>
      split at h
      · rw [hstored, ← Except.ok.inj h, Int64.toInt64_toUInt64]
      · exact absurd h (by simp)
  have hheader : tables.header.insert key value.toInt64 = tables.header := by
    apply ExtTreeMap.ext_getElem?
    intro other
    rw [ExtTreeMap.getElem?_insert]
    split
    next heq => rw [← Std.compare_eq_iff_eq.mp heq, hstored]
    next => rfl
  simp only [Tables.setHeader, hheader]

/-- The header does not matter when records are added. -/
theorem appendAll_setHeader (permutations : Nat) (records : List Record) (tables : Tables)
    (key : String) (value : UInt64) :
    (tables.setHeader key value).appendAll permutations records
      = ((tables.appendAll permutations records).1,
        (tables.appendAll permutations records).2.setHeader key value) := by
  induction records generalizing tables with
  | nil => rfl
  | cons record records ih =>
    have hrest := ih (tables.append permutations record).2
    have hfirst : (tables.setHeader key value).append permutations record
        = ((tables.append permutations record).1,
          (tables.append permutations record).2.setHeader key value) := rfl
    simp only [Tables.appendAll, hfirst, hrest]

/-- Records added in two parts are added in order. -/
theorem appendAll_append (permutations : Nat) (records more : List Record) (tables : Tables) :
    tables.appendAll permutations (records ++ more)
      = ((tables.appendAll permutations records).1
          ++ ((tables.appendAll permutations records).2.appendAll permutations more).1,
        ((tables.appendAll permutations records).2.appendAll permutations more).2) := by
  induction records generalizing tables with
  | nil => rfl
  | cons record records ih =>
    simp only [List.cons_append, Tables.appendAll, ih]

end Tables

/-! ## §4. Batches that fit, and batches that do not. -/

section Run

variable {place : Place} {tables : Tables} {disk : Disk} {handle : Handle}

/-- Of two files put at one place the later stays. -/
theorem put_put (disk : Disk) (place : Place) (old new : FileNode) :
    (disk.put place old).put place new = disk.put place new := by
  have hnodes : (disk.nodes.insert place old).insert place new = disk.nodes.insert place new := by
    apply ExtTreeMap.ext_getElem?
    intro other
    simp only [ExtTreeMap.getElem?_insert]
    split <;> rfl
  simp only [Disk.put, hnodes]

/-- To put what is at a place changes nothing. -/
theorem Holds.put_same (h : Holds place tables disk) : disk.put place (indexFile tables) = disk :=
  Disk.put_there h.contents (by simp [indexFile])

/-- The tables after a batch through a handle. -/
def Handle.tablesAfter (handle : Handle) (records : List Record) (tables : Tables) : Tables :=
  (tables.appendAll handle.permutations.toNat records).2.setHeader countKey
    (handle.counting records.length).count

/-- A batch that fits is stored and counted. -/
theorem Holds.run_add_counting (h : Holds place tables disk) (hstore : handle.store = .file place)
    (hrange : handle.capacity.toNat ≤ maxHeader.toNat) {records : List Record}
    (hroom : handle.HasRoom records.length) :
    (File.add handle records).run disk
      = (.ok ((tables.appendAll handle.permutations.toNat records).1,
          handle.counting records.length),
        disk.put place (indexFile (handle.tablesAfter records tables))) :=
  h.run_add_ok hstore ((Handle.checkRoom_eq_ok hrange).mpr hroom)

/-- Two batches leave the tables that the records leave as one batch. -/
theorem tablesAfter_append (handle : Handle) (records more : List Record) (tables : Tables) :
    (handle.counting records.length).tablesAfter more (handle.tablesAfter records tables)
      = handle.tablesAfter (records ++ more) tables := by
  simp only [Handle.tablesAfter, Handle.counting_counting, List.length_append, appendAll_setHeader,
    appendAll_append, setHeader_setHeader]
  rfl

/-- Batches that fit together are stored as one, if the handle counts what the header does. -/
theorem run_addBatches_ok (h : Holds place tables disk) (hstore : handle.store = .file place)
    (hrange : handle.capacity.toNat ≤ maxHeader.toNat)
    (hcurrent : tables.setHeader countKey handle.count = tables) {batches : List (List Record)}
    (hroom : handle.HasRoom batches.flatten.length) :
    (File.addBatches handle batches).run disk
      = (.ok ((tables.appendAll handle.permutations.toNat batches.flatten).1,
          handle.counting batches.flatten.length),
        disk.put place (indexFile (handle.tablesAfter batches.flatten tables))) := by
  -- the invariant is that the header and the handle count alike, batch after batch
  induction batches generalizing tables disk handle with
  | nil =>
    have hnone : handle.counting 0 = handle := by
      show { handle with count := handle.count + 0 } = handle
      rw [UInt64.add_zero]
    show (Except.ok ([], handle), disk)
      = (Except.ok ([], handle.counting 0),
        disk.put place (indexFile (tables.setHeader countKey (handle.counting 0).count)))
    rw [hnone, hcurrent, h.put_same]
  | cons batch batches ih =>
    rw [List.flatten_cons]
    rw [List.flatten_cons, List.length_append] at hroom
    obtain ⟨hfirst, hrest⟩ := (Handle.hasRoom_add hrange).mp hroom
    have hcounts : (handle.tablesAfter batch tables).setHeader countKey
        (handle.counting batch.length).count = handle.tablesAfter batch tables :=
      setHeader_setHeader _ _ _ _
    have hsame : (handle.counting batch.length).store = .file place := hstore
    have hmore := ih (h.put (handle.tablesAfter batch tables)) hsame hrange hcounts hrest
    have hids : ((handle.tablesAfter batch tables).appendAll handle.permutations.toNat
        batches.flatten).1 = ((tables.appendAll handle.permutations.toNat batch).2.appendAll
          handle.permutations.toNat batches.flatten).1 := by
      rw [Handle.tablesAfter, appendAll_setHeader]
    simp only [File.addBatches, DiskM.run_bind, DiskM.run_pure,
      h.run_add_counting hstore hrange hfirst, hmore, put_put, tablesAfter_append, appendAll_append,
      Handle.counting_counting, List.length_append]
    rw [← hids]
    rfl

/-- Of batches that do not fit together, one is refused for lack of room. -/
theorem run_addBatches_error (h : Holds place tables disk) (hstore : handle.store = .file place)
    (hrange : handle.capacity.toNat ≤ maxHeader.toNat) {batches : List (List Record)}
    (hroom : ¬ handle.HasRoom batches.flatten.length) :
    ∃ free required after,
      (File.addBatches handle batches).run disk = (.error (.exhausted free required), after) := by
  induction batches generalizing tables disk handle with
  | nil => exact absurd (.inl rfl) hroom
  | cons batch batches ih =>
    rw [List.flatten_cons, List.length_append, Handle.hasRoom_add hrange] at hroom
    by_cases hfirst : handle.HasRoom batch.length
    · -- the first batch is stored, and the others do not fit behind it
      have hlater : ¬ (handle.counting batch.length).HasRoom batches.flatten.length :=
        fun hrest => hroom ⟨hfirst, hrest⟩
      have hsame : (handle.counting batch.length).store = .file place := hstore
      obtain ⟨free, required, after, hrefused⟩ :=
        ih (h.put (handle.tablesAfter batch tables)) hsame hrange hlater
      refine ⟨free, required, after, ?_⟩
      simp only [File.addBatches, DiskM.run_bind, h.run_add_counting hstore hrange hfirst, hrefused]
    · refine ⟨handle.free, handle.cost batch.length, disk, ?_⟩
      simp only [File.addBatches, DiskM.run_bind,
        Holds.run_add_error disk (Handle.checkRoom_eq_error hrange hfirst)]

end Run

/-! ## §5. All or nothing. -/

namespace Session

variable {place : Place} {options : Options} {s : Session}

/-- A new index has a number of permutations that an index can have. -/
theorem Founded.permutations_valid (h : s.Founded place options) :
    1 ≤ options.permutations.toNat ∧ options.permutations.toNat ≤ maxPermutations := by
  obtain ⟨_, _, _, hnew, hcreate, hstore, -⟩ := h
  exact (validate_eq_ok (create_new hcreate hstore hnew).1).2

/-- Through the one open handle of an index, adding records at once and adding them in batches, one
record at a time or any other, are the same: all ways give the same numbers and leave the same handle
and the same files, or no way stores all records, and then adding them at once changes nothing. -/
theorem add_all_or_nothing (h : s.Founded place options) {calls : List Call}
    (hone : s.OneAtATime calls) {handle : Handle} (hmem : handle ∈ (s.run calls).handles)
    (hstore : handle.store = .file place) (records : List Record) :
    (∃ added after,
        (File.add handle records).run (s.run calls).disk = (.ok added, after)
        ∧ (File.addBatches handle (singly records)).run (s.run calls).disk = (.ok added, after)
        ∧ ∀ batches, batches.flatten = records →
          (File.addBatches handle batches).run (s.run calls).disk = (.ok added, after))
      ∨ ((File.add handle records).run (s.run calls).disk
          = (.error (.exhausted handle.free (handle.cost records.length)), (s.run calls).disk)
        ∧ handle.free.toNat + (stored place s calls).length * recordCost options.permutations
          = handle.capacity.toNat
        ∧ (handle.cost records.length).toNat
          = min (records.length * recordCost options.permutations) (UInt64.size - 1)
        ∧ ∀ batches, batches.flatten = records → ∃ free required after,
          (File.addBatches handle batches).run (s.run calls).disk
            = (.error (.exhausted free required), after)) := by
  obtain ⟨tables, capacity, hbalanced⟩ := balanced_run h.permutations_valid (balanced_founded h) hone
  rw [List.nil_append] at hbalanced
  obtain ⟨path, hhandle⟩ := hbalanced.handles handle hmem hstore
  -- what the handle goes by is what the file says
  have hcount : handle.count.toNat = (stored place s calls).length := by
    rw [hhandle]
    exact toNat_count (count_le hbalanced.budget hbalanced.range)
  have hpermutations : handle.permutations = options.permutations := by rw [hhandle]
  have hcapacity : handle.capacity = capacity := by rw [hhandle]
  have hrange : handle.capacity.toNat ≤ maxHeader.toNat := by
    rw [hcapacity]
    exact hbalanced.range
  have hcurrent : tables.setHeader countKey handle.count = tables := by
    rw [hhandle]
    exact setHeader_readHeader hbalanced.headed.count
  by_cases hroom : handle.HasRoom records.length
  · left
    have hbatches : ∀ batches, batches.flatten = records →
        (File.addBatches handle batches).run (s.run calls).disk
          = (.ok ((tables.appendAll handle.permutations.toNat records).1,
              handle.counting records.length),
            (s.run calls).disk.put place (indexFile (handle.tablesAfter records tables))) := by
      rintro batches rfl
      exact run_addBatches_ok hbalanced.holds hstore hrange hcurrent hroom
    exact ⟨_, _, hbalanced.holds.run_add_counting hstore hrange hroom,
      hbatches _ (flatten_singly records), hbatches⟩
  · right
    refine ⟨Holds.run_add_error _ (Handle.checkRoom_eq_error hrange hroom), ?_, ?_, ?_⟩
    · have hbudget : handle.count.toNat * recordCost handle.permutations
          ≤ handle.capacity.toNat := by
        rw [hcount, hpermutations, hcapacity]
        exact hbalanced.budget
      have hfree := Handle.used_add_free hbudget
      rw [Handle.toNat_used hbudget, hcount, hpermutations] at hfree
      omega
    · rw [Handle.toNat_cost, hpermutations]
    · rintro batches rfl
      exact run_addBatches_error hbalanced.holds hstore hrange hroom

/-- Records that leave room for two more in a small index. -/
def fifteenRecords : List Record := List.replicate 15 ⟨⟨1, 2⟩, 3, 4⟩

/-- Two records, which fit behind the fifteen. -/
def twoRecords : List Record := [⟨⟨1, 2⟩, 3, 4⟩, ⟨⟨1, 3⟩, 3, 5⟩]

theorem handles_fifteen : ((start smallOptions).run [.add 0 fifteenRecords]).handles
    = [⟨"i", .file ["i"], 1024, 1, 15⟩] := by
  rfl

theorem oneAtATime_fifteen : (start smallOptions).OneAtATime [.add 0 fifteenRecords] := by
  refine oneAtATime_cons.mpr ⟨Nat.le_refl 1, oneAtATime_nil ?_⟩
  exact Nat.le_of_eq (congrArg List.length handles_fifteen)

/-- Two records are stored, at once or singly, and three are refused. -/
theorem add_all_or_nothing_two_left :
    (start smallOptions).Founded ["i"] smallOptions
      ∧ (start smallOptions).OneAtATime [.add 0 fifteenRecords]
      ∧ ∃ handle ∈ ((start smallOptions).run [.add 0 fifteenRecords]).handles,
        handle.store = .file ["i"]
        ∧ (∃ added after,
          (File.add handle twoRecords).run ((start smallOptions).run [.add 0 fifteenRecords]).disk
            = (.ok added, after)
          ∧ (File.addBatches handle (singly twoRecords)).run
              ((start smallOptions).run [.add 0 fifteenRecords]).disk = (.ok added, after)
          ∧ added.1 = [16, 17] ∧ added.2.count = 17)
        ∧ (File.add handle (oldRecord :: twoRecords)).run
            ((start smallOptions).run [.add 0 fifteenRecords]).disk
          = (.error (.exhausted 169 171),
            ((start smallOptions).run [.add 0 fifteenRecords]).disk)
        ∧ ∃ free required after,
          (File.addBatches handle (singly (oldRecord :: twoRecords))).run
            ((start smallOptions).run [.add 0 fifteenRecords]).disk
          = (.error (.exhausted free required), after) := by
  have hnew : (start smallOptions).Founded ["i"] smallOptions := founded_start rfl
  have hmem : (⟨"i", .file ["i"], 1024, 1, 15⟩ : Handle)
      ∈ ((start smallOptions).run [.add 0 fifteenRecords]).handles := by
    rw [handles_fifteen]
    exact List.mem_singleton_self _
  have hstores : ((File.add ⟨"i", .file ["i"], 1024, 1, 15⟩ twoRecords).run
      ((start smallOptions).run [.add 0 fifteenRecords]).disk).1
        = .ok ([16, 17], ⟨"i", .file ["i"], 1024, 1, 17⟩) := by
    rfl
  have hrefuses : (File.add ⟨"i", .file ["i"], 1024, 1, 15⟩ (oldRecord :: twoRecords)).run
        ((start smallOptions).run [.add 0 fifteenRecords]).disk
      = (.error (.exhausted 169 171),
        ((start smallOptions).run [.add 0 fifteenRecords]).disk) :=
    Holds.run_add_error _ rfl
  refine ⟨hnew, oneAtATime_fifteen, _, hmem, rfl, ?_, hrefuses, ?_⟩
  · rcases add_all_or_nothing hnew oneAtATime_fifteen hmem rfl twoRecords with
      ⟨added, after, hadded, hsingly, -⟩ | ⟨hrefused, -⟩
    · rw [hadded] at hstores
      obtain rfl := Except.ok.inj hstores
      exact ⟨_, after, hadded, hsingly, rfl, rfl⟩
    · rw [hrefused] at hstores
      exact absurd hstores (by simp)
  · rcases add_all_or_nothing hnew oneAtATime_fifteen hmem rfl (oldRecord :: twoRecords) with
      ⟨added, after, hadded, -⟩ | ⟨-, -, -, hbatches⟩
    · rw [hrefuses] at hadded
      exact absurd (Prod.mk.inj hadded).1 (by simp)
    · exact hbatches _ (flatten_singly _)

/-- To add no records at once to the index that was taken over writes the count of the handle into the
header, where there was another, and to add them singly writes nothing. -/
theorem empty_batch_taken_over :
    takenOver.Begun ["i"] widerOptions ∧ takenOver.OneAtATime []
      ∧ ∀ handle ∈ takenOver.handles,
        (∃ tables, File.tables handle.store takenOver.disk = .ok tables
          ∧ tables.readHeader countKey = .ok 1)
        ∧ (File.addBatches handle (singly [])).run takenOver.disk
          = (.ok ([], handle), takenOver.disk)
        ∧ ∃ after, (File.add handle []).run takenOver.disk = (.ok ([], handle), after)
          ∧ (∃ tables, File.tables handle.store after = .ok tables
            ∧ tables.readHeader countKey = .ok 0)
          ∧ after ≠ takenOver.disk := by
  refine ⟨begun_takenOver, oneAtATime_takenOver, fun handle hmem => ?_⟩
  obtain rfl := eq_of_mem_takenOver hmem
  have hbefore : (oldTables.retitled widerOptions).readHeader countKey = .ok 1 :=
    readHeader_count_retitled _ _
  have hafter : ((oldTables.retitled widerOptions).setHeader countKey 0).readHeader countKey
      = .ok 0 := Tables.readHeader_setHeader _ _ (by decide)
  have hholds := holds_takenOver.put ((oldTables.retitled widerOptions).setHeader countKey 0)
  refine ⟨⟨_, holds_takenOver.tables_eq, hbefore⟩, rfl, _, holds_takenOver.run_add_ok rfl rfl,
    ⟨_, hholds.tables_eq, hafter⟩, fun hsame => ?_⟩
  -- a disk has one file at a place, and a header one count
  have htables := holds_takenOver.tables_eq
  rw [← hsame] at htables
  rw [← Except.ok.inj (hholds.tables_eq.symm.trans htables), hafter] at hbefore
  exact absurd hbefore (by decide)

end Session

end Flowprint.Index
