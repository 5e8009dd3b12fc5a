/-
  Flowprint.Proofs.Index.Serving
  ────────────────────────────────
  Records that are added through a handle with the numbers of the header.

  A handle serves an index if its numbers are those of the header.  A handle that is opened or created
  serves its index, and so does the handle after a batch: opening the index again gives the same
  handle.  All this does not depend on whether the index is in a file.

  Records are added one at a time as long as a reserve of free bytes is left; how many these are is
  known beforehand, since each record costs the same.

  Main statements:

      Serves.run_add       a batch that fits is stored, in a file or not
      Serves.after         the handle after a batch serves the index after it
      fresh_of_create      an index that is created is a new one
      Handle.slots_after   records that are stored take up slots
-/
import Flowprint.Proofs.Index.Batches
import Flowprint.Proofs.Index.Opening

namespace Flowprint.Index

/-! ## §1. A handle on an index. -/

/-- Whether the database of an open index can be changed. -/
def Store.Writable : Store → Prop
  | .alone _ => True
  | .file place => File.hasRoomForJournal place = true

/-- The store of an open index after its tables have changed. -/
def Store.holding (tables : Tables) : Store → Store
  | .alone _ => .alone ⟨applicationMark, currentSchema, some tables⟩
  | .file place => .file place

/-- The disk after the tables of an open index have changed. -/
def Store.change (tables : Tables) (disk : Disk) : Store → Disk
  | .alone _ => disk
  | .file place => disk.put place (indexFile tables)

/-- The handle after a batch. -/
def Handle.after (records : List Record) (tables : Tables) (handle : Handle) : Handle :=
  { handle.counting records.length with
    store := handle.store.holding (handle.tablesAfter records tables) }

/-- A handle serves an index of the current form: its numbers are those of the header. -/
structure Serves (handle : Handle) (tables : Tables) (disk : Disk) : Prop where
  contents : File.database handle.store disk = .ok ⟨applicationMark, currentSchema, some tables⟩
  described : Handle.ofTables handle.path handle.store tables = .ok handle

/-- A number that is read from a header is one that a header can hold. -/
theorem readHeader_le {tables : Tables} {key : String} {value : UInt64}
    (h : tables.readHeader key = .ok value) : value.toNat ≤ maxHeader.toNat := by
  unfold Tables.readHeader at h
  split at h
  · exact absurd h (by simp)
  next stored _ =>
    split at h
    next hsign =>
      obtain rfl := Except.ok.inj h
      have hmax : maxHeader.toNat = 2 ^ 63 - 1 := rfl
      have hzero : (0 : Int64).toInt = 0 := rfl
      have hint : stored.toInt = stored.toUInt64.toBitVec.toInt := rfl
      have hnat : stored.toUInt64.toBitVec.toNat = stored.toUInt64.toNat := rfl
      have hlt : stored.toUInt64.toNat < 2 ^ 64 := stored.toUInt64.toNat_lt
      rw [Int64.le_iff_toInt_le, hzero, hint, BitVec.toInt_eq_toNat_cond] at hsign
      split at hsign <;> omega
    · exact absurd h (by simp)

/-- A number of permutations that is accepted is one that an index can have. -/
theorem checkPermutations_eq_ok {stated : UInt64} {permutations : UInt32}
    (h : Handle.checkPermutations stated = .ok permutations) :
    stated = permutations.toUInt64 ∧ 1 ≤ permutations.toNat
      ∧ permutations.toNat ≤ maxPermutations := by
  unfold Handle.checkPermutations at h
  split at h
  next hvalid =>
    obtain rfl := Except.ok.inj h
    have hmax : maxPermutations = 128 := rfl
    have hnat : stated.toUInt32.toNat = stated.toNat := by
      rw [UInt64.toNat_toUInt32]
      omega
    refine ⟨?_, by omega, by omega⟩
    apply UInt64.toNat_inj.mp
    rw [UInt32.toNat_toUInt64, hnat]
  · exact absurd h (by simp)

theorem Store.holding_holding (store : Store) (old new : Tables) :
    (store.holding old).holding new = store.holding new := by
  cases store with
  | alone database => rfl
  | file place => rfl

theorem Store.change_change (store : Store) (old new : Tables) (disk : Disk) :
    (store.holding old).change new (store.change old disk) = store.change new disk := by
  cases store with
  | alone database => rfl
  | file place => exact put_put disk place _ _

theorem Store.writable_holding {store : Store} (h : store.Writable) (tables : Tables) :
    (store.holding tables).Writable := by
  cases store with
  | alone database => trivial
  | file place => exact h

namespace Handle

theorem tablesAfter_after (handle : Handle) (records more : List Record) (tables : Tables) :
    (handle.after records tables).tablesAfter more (handle.tablesAfter records tables)
      = handle.tablesAfter (records ++ more) tables :=
  tablesAfter_append handle records more tables

/-- Two batches leave the handle that the records leave as one batch. -/
theorem after_append (handle : Handle) (records more : List Record) (tables : Tables) :
    (handle.after records tables).after more (handle.tablesAfter records tables)
      = handle.after (records ++ more) tables := by
  have hcounts := congrArg count (counting_counting handle records.length more.length)
  rw [after, tablesAfter_after]
  simp only [after, Store.holding_holding, List.length_append]
  show Handle.mk _ _ _ _ _ = Handle.mk _ _ _ _ _
  rw [← hcounts]
  rfl

/-- Two batches leave the disk that the records leave as one batch. -/
theorem change_append (handle : Handle) (records more : List Record) (tables : Tables)
    (disk : Disk) :
    (handle.after records tables).store.change
        ((handle.after records tables).tablesAfter more (handle.tablesAfter records tables))
        (handle.store.change (handle.tablesAfter records tables) disk)
      = handle.store.change (handle.tablesAfter (records ++ more) tables) disk := by
  rw [tablesAfter_after]
  exact Store.change_change _ _ _ _

end Handle

namespace Serves

variable {handle : Handle} {tables : Tables} {disk : Disk}

theorem headed (h : Serves handle tables disk) :
    Headed handle.capacity handle.permutations handle.count tables := by
  obtain ⟨capacity, stated, permutations, count, hcapacity, hstated, hcheck, hcount, heq⟩ :=
    ofTables_eq_ok.mp h.described
  obtain ⟨rfl, -, -⟩ := checkPermutations_eq_ok hcheck
  rw [heq]
  exact ⟨hcapacity, hstated, hcount⟩

theorem permutations_valid (h : Serves handle tables disk) :
    1 ≤ handle.permutations.toNat ∧ handle.permutations.toNat ≤ maxPermutations := by
  obtain ⟨capacity, stated, permutations, count, -, -, hcheck, -, heq⟩ :=
    ofTables_eq_ok.mp h.described
  rw [heq]
  exact (checkPermutations_eq_ok hcheck).2

theorem capacity_le (h : Serves handle tables disk) :
    handle.capacity.toNat ≤ maxHeader.toNat :=
  readHeader_le h.headed.capacity

theorem tables_eq (h : Serves handle tables disk) :
    File.tables handle.store disk = .ok tables := by
  rw [File.tables, h.contents]

/-- The file of a handle that serves an index has the index. -/
theorem lookup_eq (h : Serves handle tables disk) {place : Place}
    (hstore : handle.store = .file place) : disk.lookup place = some (indexFile tables) := by
  have hcontents := h.contents
  simp only [hstore, File.database] at hcontents
  split at hcontents
  next node hnode => rw [hnode, marked_databaseOf hcontents rfl, indexFile]
  · exact absurd hcontents (by simp)

/-- The store has the tables that are put there. -/
theorem contents_change (h : Serves handle tables disk) (new : Tables) :
    File.database (handle.store.holding new) (handle.store.change new disk)
      = .ok ⟨applicationMark, currentSchema, some new⟩ := by
  cases hstore : handle.store with
  | alone database => rfl
  | file place =>
    have hbelow : Place.isAncestor place = false :=
      Disk.isAncestor_eq_false (by rw [h.lookup_eq hstore]; simp [indexFile])
    simp only [Store.holding, Store.change, File.database, Disk.lookup_put disk hbelow]
    rfl

/-- No text changes with the tables. -/
theorem readText_change (h : Serves handle tables disk) (new : Tables) (file : String) :
    (handle.store.change new disk).readText file = disk.readText file := by
  cases hstore : handle.store with
  | alone database => rfl
  | file place => exact Disk.readText_put_database _ file (h.lookup_eq hstore)

theorem run_putTables (h : Serves handle tables disk) (hwritable : handle.store.Writable)
    (new : Tables) :
    (File.putTables handle.store new).run disk
      = (.ok (handle.store.holding new), handle.store.change new disk) := by
  simp only [File.putTables, DiskM.run_bind, DiskM.run_get, DiskM.run_lift, h.contents]
  cases hstore : handle.store with
  | alone database => rfl
  | file place =>
    rw [hstore] at hwritable
    exact run_put hwritable _ disk

theorem run_putTables_storage (h : Serves handle tables disk)
    (hwritable : ¬ handle.store.Writable) (new : Tables) :
    (File.putTables handle.store new).run disk = (.error .storage, disk) := by
  simp only [File.putTables, DiskM.run_bind, DiskM.run_get, DiskM.run_lift, h.contents]
  cases hstore : handle.store with
  | alone database => exact absurd (by rw [hstore]; trivial) hwritable
  | file place =>
    rw [hstore] at hwritable
    exact if_neg hwritable

/-- With a batch that fits it only matters whether the tables can be put. -/
theorem run_add_eq (h : Serves handle tables disk) {records : List Record}
    (hroom : handle.HasRoom records.length) :
    (File.add handle records).run disk =
      match (File.putTables handle.store (handle.tablesAfter records tables)).run disk with
      | (.ok store, after) =>
        (.ok ((tables.appendAll handle.permutations.toNat records).1,
          { handle.counting records.length with store := store }), after)
      | (.error fault, after) => (.error fault, after) := by
  have hcheck := (Handle.checkRoom_eq_ok h.capacity_le).mpr hroom
  have hadd : handle.add records tables
      = .ok ((tables.appendAll handle.permutations.toNat records).1,
        handle.counting records.length, handle.tablesAfter records tables) := by
    simp only [Handle.add, hcheck]
    rfl
  have hstore : (handle.counting records.length).store = handle.store := rfl
  simp only [File.add, DiskM.run_bind, DiskM.run_get, DiskM.run_lift, DiskM.run_pure, hcheck,
    h.tables_eq, hadd, hstore]
  rcases (File.putTables handle.store _).run disk with ⟨_ | _, _⟩
  · rfl
  · rfl

/-- A batch that fits is stored and counted, in a file or not. -/
theorem run_add (h : Serves handle tables disk) (hwritable : handle.store.Writable)
    {records : List Record} (hroom : handle.HasRoom records.length) :
    (File.add handle records).run disk
      = (.ok ((tables.appendAll handle.permutations.toNat records).1, handle.after records tables),
        handle.store.change (handle.tablesAfter records tables) disk) := by
  rw [h.run_add_eq hroom, h.run_putTables hwritable]
  rfl

/-- Where nothing can be written a batch is refused even if it fits. -/
theorem run_add_storage (h : Serves handle tables disk) (hwritable : ¬ handle.store.Writable)
    {records : List Record} (hroom : handle.HasRoom records.length) :
    (File.add handle records).run disk = (.error .storage, disk) := by
  rw [h.run_add_eq hroom, h.run_putTables_storage hwritable]

/-- The handle after a batch serves the index after it. -/
theorem after (h : Serves handle tables disk) {records : List Record}
    (hroom : handle.HasRoom records.length) :
    Serves (handle.after records tables) (handle.tablesAfter records tables)
      (handle.store.change (handle.tablesAfter records tables) disk) := by
  refine ⟨h.contents_change _, ?_⟩
  have hcount : (handle.counting records.length).count.toNat ≤ maxHeader.toNat := by
    rw [Handle.toNat_counting h.capacity_le hroom]
    rcases hroom with hzero | hfits
    · have := readHeader_le h.headed.count
      omega
    · exact Session.count_le hfits h.capacity_le
  have hheaded : Headed handle.capacity handle.permutations (handle.counting records.length).count
      (handle.tablesAfter records tables) :=
    (h.headed.appendAll _ records).setCount hcount
  obtain ⟨hmin, hmax⟩ := h.permutations_valid
  exact hheaded.ofTables hmin hmax _ _

/-- The tables that are there already change nothing. -/
theorem change_same (h : Serves handle tables disk) :
    handle.store.holding tables = handle.store ∧ handle.store.change tables disk = disk := by
  cases hstore : handle.store with
  | alone database =>
    have hcontents := h.contents
    rw [hstore] at hcontents
    rw [Except.ok.inj hcontents]
    exact ⟨rfl, rfl⟩
  | file place => exact ⟨rfl, Disk.put_there (h.lookup_eq hstore) (by simp [indexFile])⟩

/-- An empty batch changes nothing. -/
theorem after_nil (h : Serves handle tables disk) :
    handle.tablesAfter [] tables = tables ∧ handle.after [] tables = handle := by
  have hnone : handle.counting 0 = handle := by
    show { handle with count := handle.count + 0 } = handle
    rw [UInt64.add_zero]
  have htables : handle.tablesAfter [] tables = tables := by
    show tables.setHeader countKey (handle.counting 0).count = tables
    rw [hnone]
    exact setHeader_readHeader h.headed.count
  refine ⟨htables, ?_⟩
  rw [Handle.after, htables, h.change_same.1]
  exact hnone

/-- A handle that is opened serves its index, which can be opened again after a batch; that gives the
handle after the batch. -/
theorem of_load {path : String} {disk opened : Disk} {handle : Handle}
    (h : (File.load path).run disk = (.ok handle, opened)) :
    ∃ tables, Serves handle tables opened
      ∧ ∀ records : List Record, handle.HasRoom records.length →
        (File.load path).run (handle.store.change (handle.tablesAfter records tables) opened)
          = (.ok (handle.after records tables),
            handle.store.change (handle.tablesAfter records tables) opened) := by
  obtain ⟨place, old, tables, hleads, hthere, hdescribed, rfl⟩ := load_eq_ok h
  obtain ⟨capacity, _, permutations, count, -, -, -, -, rfl⟩ := ofTables_eq_ok.mp hdescribed
  have hbelow : Place.isAncestor place = false :=
    Disk.isAncestor_eq_false (by rw [hthere]; simp)
  have hopened : (disk.put place (indexFile tables)).lookup place = some (indexFile tables) :=
    Disk.lookup_put disk hbelow _
  have hserves : Serves ⟨path, .file place, capacity, permutations, count⟩ tables
      (disk.put place (indexFile tables)) := by
    refine ⟨?_, hdescribed⟩
    simp only [File.database, hopened]
    rfl
  have hagain : ∀ new, Leads path place
      ((disk.put place (indexFile tables)).put place (indexFile new)) :=
    fun new => (hleads.put_database hthere _).put_database hopened _
  refine ⟨tables, hserves, fun records hroom => ?_⟩
  have hafter := hserves.after hroom
  exact (run_load_current (hagain _) (hafter.lookup_eq rfl)).trans (Prod.ext hafter.described rfl)

end Serves

/-! ## §2. New indexes. -/

/-- A handle on a new index, which can be changed, and counts no records. -/
structure Fresh (handle : Handle) (tables : Tables) (disk : Disk) : Prop where
  serves : Serves handle tables disk
  writable : handle.store.Writable
  filed : Filed handle.permutations.toNat [] tables
  count : handle.count = 0

/-- An index that is created where no database is, or in no file, is a new one. -/
theorem fresh_of_create {path : String} {options : Options} {handle : Handle} {disk after : Disk}
    (hcreate : (File.create path options).run disk = (.ok handle, after))
    (hnew : ∀ place old, handle.store = .file place → disk.lookup place ≠ some (.database old)) :
    Fresh handle (newTables options) after := by
  cases hstore : handle.store with
  | alone database =>
    obtain ⟨hvalid, rfl, rfl⟩ := create_alone hcreate hstore
    obtain ⟨-, hmin, hmax⟩ := validate_eq_ok hvalid
    exact ⟨⟨rfl, (headed_newTables hvalid).ofTables hmin hmax _ _⟩, trivial,
      filed_newTables options, rfl⟩
  | file place =>
    obtain ⟨hvalid, rfl, hholds⟩ := create_new hcreate hstore fun old => hnew place old hstore
    obtain ⟨-, hmin, hmax⟩ := validate_eq_ok hvalid
    exact ⟨⟨hholds.database_eq, (headed_newTables hvalid).ofTables hmin hmax _ _⟩,
      hholds.writable, filed_newTables options, rfl⟩

theorem fresh_start {options : Options} (h : options.validate = .ok ()) :
    Fresh (.ofOptions "i" (.file ["i"]) options) (newTables options)
      (Session.start options).disk := by
  obtain ⟨path, before, handle, hnew, hcreate, hstore, hhandles⟩ := Session.founded_start h
  obtain rfl := (List.singleton_inj.mp hhandles).symm
  refine fresh_of_create hcreate fun place old hplace => ?_
  rw [← Store.file.inj hplace]
  exact hnew old

namespace Fresh

variable {handle : Handle} {tables : Tables} {disk : Disk}

/-- All of a new index is free. -/
theorem free_eq (h : Fresh handle tables disk) : handle.free = handle.capacity := by
  apply UInt64.toNat_inj.mp
  rw [Handle.free, toNat_satSub, Handle.used, toNat_satMul, h.count]
  simp

/-- The records that were stored in a new index, and the tables, which have no others. -/
theorem records_after (h : Fresh handle tables disk) {records : List Record}
    (hroom : handle.HasRoom records.length) :
    File.records (handle.after records tables)
        (handle.store.change (handle.tablesAfter records tables) disk)
      = .ok (numbered records) := by
  have hfiled : Filed handle.permutations.toNat records (handle.tablesAfter records tables) :=
    (h.filed.appendAll records).setHeader _ _
  rw [File.records, (h.serves.after hroom).tables_eq, ← hfiled.toList_records]
  rfl

end Fresh

/-! ## §3. Slots. -/

/-- The number of records of a cost that are stored, one at a time, before less than a reserve is left
of some free bytes. -/
def slots (free reserve cost : Nat) : Nat :=
  if free < reserve then 0 else (free - reserve) / cost + 1

section Slots

variable {free reserve cost n : Nat}

theorem slots_eq_zero (h : free < reserve) : slots free reserve cost = 0 :=
  if_pos h

theorem slots_pos (h : ¬ free < reserve) : 0 < slots free reserve cost := by
  rw [slots, if_neg h]
  exact Nat.succ_pos _

/-- Records that have slots fit into the free bytes. -/
theorem mul_le_of_le_slots (hreserve : cost ≤ reserve) (h : n ≤ slots free reserve cost) :
    n * cost ≤ free := by
  unfold slots at h
  split at h
  · rw [Nat.le_zero.mp h, Nat.zero_mul]
    exact Nat.zero_le free
  · have hmul : n * cost ≤ ((free - reserve) / cost + 1) * cost := Nat.mul_le_mul_right cost h
    have hdiv : (free - reserve) / cost * cost ≤ free - reserve := Nat.div_mul_le_self _ _
    rw [Nat.add_mul, Nat.one_mul] at hmul
    omega

/-- Records that are stored take up as many slots. -/
theorem slots_sub (hcost : 0 < cost) (hreserve : cost ≤ reserve)
    (h : n ≤ slots free reserve cost) :
    slots (free - n * cost) reserve cost = slots free reserve cost - n := by
  by_cases hlow : free < reserve
  · rw [slots_eq_zero hlow] at h ⊢
    rw [slots_eq_zero (by omega), Nat.zero_sub]
  · have hslots : slots free reserve cost = (free - reserve) / cost + 1 := if_neg hlow
    rw [hslots] at h ⊢
    by_cases hlast : n = (free - reserve) / cost + 1
    · -- the last slot is gone: what is left is less than the reserve
      have hless := Nat.lt_mul_div_succ (free - reserve) hcost
      rw [Nat.mul_comm, ← hlast] at hless
      rw [slots_eq_zero (by omega), ← hlast, Nat.sub_self]
    · have hle : n ≤ (free - reserve) / cost := by omega
      have hspent : n * cost ≤ free - reserve := (Nat.le_div_iff_mul_le hcost).mp hle
      have hrest : free - n * cost - reserve = free - reserve - cost * n := by
        rw [Nat.mul_comm cost n]
        omega
      rw [slots, if_neg (by omega), hrest, Nat.sub_mul_div]
      omega

end Slots

namespace Handle

variable {handle : Handle} {reserve n : Nat}

/-- The number of records that are stored, one at a time, before less than a reserve is left. -/
def slots (handle : Handle) (reserve : Nat) : Nat :=
  Index.slots handle.free.toNat reserve (recordCost handle.permutations)

theorem recordCost_pos (permutations : UInt32) : 0 < recordCost permutations := by
  unfold recordCost
  omega

/-- There is room for the records that have slots. -/
theorem hasRoom_of_le_slots (hrange : handle.capacity.toNat ≤ maxHeader.toNat)
    (hreserve : recordCost handle.permutations ≤ reserve) (h : n ≤ handle.slots reserve) :
    handle.HasRoom n := by
  have hmax : maxHeader.toNat = 2 ^ 63 - 1 := rfl
  have hsize : UInt64.size = 2 ^ 64 := rfl
  have hcost := recordCost_pos handle.permutations
  have hfits := mul_le_of_le_slots hreserve h
  rcases Nat.eq_zero_or_pos n with hzero | hpos
  · exact .inl hzero
  · right
    -- bytes are free, so that the bytes used are not cut off
    have hsome := Nat.mul_le_mul hpos (Nat.le_refl (recordCost handle.permutations))
    rw [free, toNat_satSub, used, toNat_satMul, toNat_bytesPerRecord] at hfits
    rw [Nat.add_mul]
    omega

/-- Records that are stored take up as many slots. -/
theorem slots_after (hrange : handle.capacity.toNat ≤ maxHeader.toNat)
    (hreserve : recordCost handle.permutations ≤ reserve) {records : List Record}
    (h : records.length ≤ handle.slots reserve) (tables : Tables) :
    (handle.after records tables).free.toNat
        = handle.free.toNat - records.length * recordCost handle.permutations
      ∧ (handle.after records tables).slots reserve = handle.slots reserve - records.length := by
  have hmax : maxHeader.toNat = 2 ^ 63 - 1 := rfl
  have hsize : UInt64.size = 2 ^ 64 := rfl
  have hroom := hasRoom_of_le_slots hrange hreserve h
  have hcount := toNat_counting hrange hroom
  have hfree : (handle.after records tables).free.toNat
      = handle.free.toNat - records.length * recordCost handle.permutations := by
    show (handle.counting records.length).free.toNat = _
    rw [free, free, toNat_satSub, toNat_satSub, used, used, toNat_satMul, toNat_satMul,
      toNat_bytesPerRecord, toNat_bytesPerRecord, hcount]
    show handle.capacity.toNat - min ((handle.count.toNat + records.length)
      * recordCost handle.permutations) (UInt64.size - 1) = _
    rw [Nat.add_mul]
    omega
  refine ⟨hfree, ?_⟩
  rw [slots, hfree]
  exact slots_sub (recordCost_pos handle.permutations) hreserve h

end Handle

end Flowprint.Index
