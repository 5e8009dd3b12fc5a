/-
  Flowprint.Proofs.Index.Accounts
  ────────────────────────────────
  The numbers of a handle, whatever the header said when it was opened.

  A header may hold any capacity and any count up to the largest number of a header, even a count
  that has nothing to do with the records that are stored.  What is opened goes by these numbers.  The
  sums that it makes of them never wrap, what it writes is again what a header can hold, and so the
  index can be opened again after any operations, with the numbers that the handle has then.

  Main statements:

      exact             every number that a handle computes, as the exact number it stands for
      change_act        what an operation can do: nothing, a batch that fits, or growth
      opened_run        after any operations the index opens with the numbers of its handle
      accounts_kept     no operation wraps a sum or writes a header that cannot be read
-/
import Flowprint.Proofs.Index.Serving

namespace Flowprint.Index

open Std

/-! ## §1. Operations in a row. -/

/-- An operation of an open index that goes by its numbers. -/
inductive Operation where
  /-- Add a batch of records; a record on its own is a batch of one. -/
  | add (records : List Record)
  /-- Add capacity. -/
  | grow (extra : UInt64)
  /-- Ask for the numbers. -/
  | stats

/-- The handle after an operation, if it succeeds. -/
def Operation.act (handle : Handle) : Operation → DiskM Fault Handle
  | .add records => do return (← File.add handle records).2
  | .grow extra => File.grow handle extra
  | .stats => do
    let _ ← DiskM.reading (File.stats handle)
    return handle

/-- A handle and the disk on which its index is. -/
structure Desk where
  handle : Handle
  disk : Disk

namespace Desk

/-- The handle and the disk after an operation.  One that fails leaves the handle as it is. -/
def step (desk : Desk) (operation : Operation) : Desk :=
  match (operation.act desk.handle).run desk.disk with
  | (.ok handle, disk) => ⟨handle, disk⟩
  | (.error _, disk) => { desk with disk := disk }

/-- The handle and the disk after some operations. -/
def run (desk : Desk) (operations : List Operation) : Desk :=
  operations.foldl step desk

end Desk

/-! ## §2. Exact numbers. -/

/-- The numbers that a handle computes are the exact numbers, cut off at the ends of the range and
never wrapped. -/
structure Exact (handle : Handle) : Prop where
  perRecord : handle.bytesPerRecord.toNat = 32 + 25 * handle.permutations.toNat
  used : handle.used.toNat
    = min (handle.count.toNat * handle.bytesPerRecord.toNat) (UInt64.size - 1)
  free : handle.free.toNat = handle.capacity.toNat - handle.used.toNat
  cost : ∀ n, (handle.cost n).toNat = min (n * handle.bytesPerRecord.toNat) (UInt64.size - 1)

theorem exact (handle : Handle) : Exact handle where
  perRecord := Handle.toNat_bytesPerRecord handle
  used := toNat_satMul _ _
  free := toNat_satSub _ _
  cost n := by
    rw [Handle.toNat_cost, Handle.toNat_bytesPerRecord]

namespace Handle

variable {handle : Handle}

/-- What is free is part of the capacity. -/
theorem free_le_capacity (handle : Handle) : handle.free ≤ handle.capacity := by
  have hfree := (exact handle).free
  rw [UInt64.le_iff_toNat_le]
  omega

/-- The handle with capacity added. -/
def grown (handle : Handle) (extra : UInt64) : Handle :=
  { handle with capacity := min (satAdd handle.capacity extra) maxHeader }

theorem toNat_capacity_grown (handle : Handle) (extra : UInt64) :
    (handle.grown extra).capacity.toNat
      = min (handle.capacity.toNat + extra.toNat) maxHeader.toNat :=
  toNat_grown handle.capacity extra

/-- Growth in two steps is growth by the sum, which is cut off at the largest word. -/
theorem grown_grown (handle : Handle) (a b : UInt64) :
    (handle.grown a).grown b = handle.grown (satAdd a b) := by
  have hmax : maxHeader.toNat = 2 ^ 63 - 1 := rfl
  have hsize : UInt64.size = 2 ^ 64 := rfl
  have hcapacity : ((handle.grown a).grown b).capacity
      = (handle.grown (satAdd a b)).capacity := by
    apply UInt64.toNat_inj.mp
    rw [toNat_capacity_grown, toNat_capacity_grown, toNat_capacity_grown, toNat_satAdd]
    omega
  show { handle with capacity := ((handle.grown a).grown b).capacity } = _
  rw [hcapacity]
  rfl

end Handle

/-! ## §3. One operation. -/

/-- The index at a place, which a path leads to, and the handle that its header describes. -/
structure Opened (path : String) (place : Place) (tables : Tables) (desk : Desk) : Prop where
  leads : Leads path place desk.disk
  file : desk.disk.lookup place = some (indexFile tables)
  described : Handle.ofTables path (.file place) tables = .ok desk.handle

/-- What an operation can do to an index and its handle. -/
inductive Change (place : Place) (tables : Tables) (desk : Desk) : Tables → Desk → Prop
  /-- Nothing. -/
  | none : Change place tables desk tables desk
  /-- A batch that fits is stored and counted. -/
  | added {records : List Record} (hroom : desk.handle.HasRoom records.length) :
      Change place tables desk (desk.handle.tablesAfter records tables)
        ⟨desk.handle.counting records.length,
          desk.disk.put place (indexFile (desk.handle.tablesAfter records tables))⟩
  /-- Capacity is added. -/
  | grown (extra : UInt64) :
      Change place tables desk
        (tables.setHeader capacityKey (desk.handle.grown extra).capacity)
        ⟨desk.handle.grown extra, desk.disk.put place
          (indexFile (tables.setHeader capacityKey (desk.handle.grown extra).capacity))⟩

namespace Opened

variable {path : String} {place : Place} {tables : Tables} {desk : Desk}

theorem store (h : Opened path place tables desk) : desk.handle.store = .file place := by
  obtain ⟨_, _, _, _, -, -, -, -, heq⟩ := ofTables_eq_ok.mp h.described
  rw [heq]

theorem path_eq (h : Opened path place tables desk) : desk.handle.path = path := by
  obtain ⟨_, _, _, _, -, -, -, -, heq⟩ := ofTables_eq_ok.mp h.described
  rw [heq]

theorem serves (h : Opened path place tables desk) : Serves desk.handle tables desk.disk := by
  constructor
  · simp only [h.store, File.database, h.file]
    rfl
  · rw [h.store, h.path_eq]
    exact h.described

theorem reopened (h : Opened path place tables desk) :
    (File.load path).run desk.disk = (.ok desk.handle, desk.disk) := by
  rw [run_load_current h.leads h.file, h.described]

/-- Tables with another header that describes another handle are opened as that handle. -/
theorem put (h : Opened path place tables desk) {new : Tables} {handle : Handle}
    (hpath : handle.path = desk.handle.path) (hstore : handle.store = desk.handle.store)
    (hheaded : Headed handle.capacity handle.permutations handle.count new)
    (hsame : handle.permutations = desk.handle.permutations) :
    Opened path place new ⟨handle, desk.disk.put place (indexFile new)⟩ := by
  have hbelow : Place.isAncestor place = false :=
    Disk.isAncestor_eq_false (by rw [h.file]; simp [indexFile])
  obtain ⟨hmin, hmax⟩ := h.serves.permutations_valid
  rw [← hsame] at hmin hmax
  refine ⟨h.leads.put_database h.file _, Disk.lookup_put _ hbelow _, ?_⟩
  rw [hheaded.ofTables hmin hmax, ← h.path_eq, ← h.store, ← hpath, ← hstore]

/-- Where an index is opened from a path that leads to it. -/
theorem of_load {disk opened : Disk} {handle : Handle}
    (h : (File.load path).run disk = (.ok handle, opened)) :
    ∃ place tables, Opened path place tables ⟨handle, opened⟩ := by
  obtain ⟨place, old, tables, hleads, hthere, hdescribed, rfl⟩ := load_eq_ok h
  have hbelow : Place.isAncestor place = false :=
    Disk.isAncestor_eq_false (by rw [hthere]; simp)
  exact ⟨place, tables, hleads.put_database hthere _, Disk.lookup_put disk hbelow _, hdescribed⟩

/-- The outcome of an addition: the batch is stored, or nothing changes. -/
theorem run_add (h : Opened path place tables desk) (records : List Record) :
    (desk.handle.HasRoom records.length
        ∧ (File.add desk.handle records).run desk.disk
          = (.ok ((tables.appendAll desk.handle.permutations.toNat records).1,
              desk.handle.counting records.length),
            desk.disk.put place (indexFile (desk.handle.tablesAfter records tables))))
      ∨ ∃ fault, (File.add desk.handle records).run desk.disk = (.error fault, desk.disk) := by
  by_cases hroom : desk.handle.HasRoom records.length
  · by_cases hwritable : File.hasRoomForJournal place = true
    · have hholds : Holds place tables desk.disk := ⟨h.file, hwritable⟩
      exact .inl ⟨hroom, hholds.run_add_counting h.store h.serves.capacity_le hroom⟩
    · refine .inr ⟨_, h.serves.run_add_storage ?_ hroom⟩
      rw [h.store]
      exact hwritable
  · have hrefused := Handle.checkRoom_eq_error h.serves.capacity_le hroom
    exact .inr ⟨_, Holds.run_add_error desk.disk hrefused⟩

/-- The outcome of growth: the capacity is written, or nothing changes. -/
theorem run_grow (h : Opened path place tables desk) (extra : UInt64) :
    (File.grow desk.handle extra).run desk.disk =
      if File.hasRoomForJournal place then
        (.ok (desk.handle.grown extra), desk.disk.put place
          (indexFile (tables.setHeader capacityKey (desk.handle.grown extra).capacity)))
      else (.error .storage, desk.disk) := by
  split
  next hwritable =>
    have hholds : Holds place tables desk.disk := ⟨h.file, hwritable⟩
    exact hholds.run_grow h.store extra
  next hwritable =>
    have hput : ¬ desk.handle.store.Writable := by
      rw [h.store]
      exact hwritable
    have hstore : (desk.handle.grow extra tables).1.store = desk.handle.store := rfl
    simp only [File.grow, DiskM.run_bind, DiskM.run_get, DiskM.run_lift, h.serves.tables_eq, hstore,
      h.serves.run_putTables_storage hput]

theorem stats_eq (h : Opened path place tables desk) :
    File.stats desk.handle desk.disk = .ok (desk.handle.stats currentSchema tables) := by
  rw [File.stats, h.serves.contents, h.serves.tables_eq]
  rfl

/-- An operation has one of the changes. -/
theorem change_act (h : Opened path place tables desk) (operation : Operation) :
    ∃ tables', Change place tables desk tables' (desk.step operation) := by
  cases operation with
  | add records =>
    rcases h.run_add records with ⟨hroom, hrun⟩ | ⟨fault, hrun⟩
    · refine ⟨desk.handle.tablesAfter records tables, ?_⟩
      simp only [Desk.step, Operation.act, DiskM.run_bind, DiskM.run_pure, hrun]
      exact .added hroom
    · refine ⟨tables, ?_⟩
      simp only [Desk.step, Operation.act, DiskM.run_bind, hrun]
      exact .none
  | grow extra =>
    have hrun := h.run_grow extra
    split at hrun
    · refine ⟨tables.setHeader capacityKey (desk.handle.grown extra).capacity, ?_⟩
      simp only [Desk.step, Operation.act, hrun]
      exact .grown extra
    · refine ⟨tables, ?_⟩
      simp only [Desk.step, Operation.act, hrun]
      exact .none
  | stats =>
    refine ⟨tables, ?_⟩
    simp only [Desk.step, Operation.act, DiskM.run_bind, DiskM.run_reading, DiskM.run_pure,
      h.stats_eq]
    exact .none

end Opened

/-! ## §4. Operations in any number. -/

/-- Numbers of a header that are new are no negative numbers. -/
def Writes (old tables : Tables) : Prop :=
  ∀ (key : String) (value : Int64), tables.header[key]? = some value →
    old.header[key]? = some value ∨ 0 ≤ value

theorem Writes.refl (tables : Tables) : Writes tables tables :=
  fun _ _ h => .inl h

theorem Writes.trans {old between tables : Tables} (h : Writes old between)
    (hnext : Writes between tables) : Writes old tables := by
  intro key value hvalue
  rcases hnext key value hvalue with hkept | hnew
  · exact h key value hkept
  · exact .inr hnew

/-- A number that a header can hold is written as it is. -/
theorem writes_setHeader (tables : Tables) (key : String) {value : UInt64}
    (h : value.toNat ≤ maxHeader.toNat) : Writes tables (tables.setHeader key value) := by
  intro other found hfound
  have hget : (tables.header.insert key value.toInt64)[other]? = some found := hfound
  rw [ExtTreeMap.getElem?_insert] at hget
  split at hget
  · rw [← Option.some.inj hget]
    exact .inr (toInt64_nonneg h)
  · exact .inl hget

section Run

variable {path : String} {place : Place} {tables : Tables} {desk : Desk}

/-- After an operation the index is open with the numbers that its handle has then; the capacity is no
smaller, and what was written is what a header can hold. -/
theorem opened_step (h : Opened path place tables desk) (operation : Operation) :
    ∃ tables', Opened path place tables' (desk.step operation)
      ∧ desk.handle.capacity ≤ (desk.step operation).handle.capacity ∧ Writes tables tables' := by
  have hrange := h.serves.capacity_le
  obtain ⟨tables', hchange⟩ := h.change_act operation
  refine ⟨tables', ?_⟩
  generalize desk.step operation = after at hchange ⊢
  cases hchange with
  | none => exact ⟨h, UInt64.le_refl _, .refl tables⟩
  | @added records hroom =>
    have hcount : (desk.handle.counting records.length).count.toNat ≤ maxHeader.toNat := by
      rw [Handle.toNat_counting hrange hroom]
      rcases hroom with hzero | hfits
      · have hold := readHeader_le h.serves.headed.count
        omega
      · exact Session.count_le hfits hrange
    refine ⟨h.put rfl rfl ((h.serves.headed.appendAll _ records).setCount hcount) rfl,
      UInt64.le_refl _, ?_⟩
    have hsame : Writes tables (tables.appendAll desk.handle.permutations.toNat records).2 := by
      intro key value hvalue
      rw [header_appendAll] at hvalue
      exact .inl hvalue
    exact hsame.trans (writes_setHeader _ _ hcount)
  | grown extra =>
    have hgrown := desk.handle.toNat_capacity_grown extra
    have hcapacity : (desk.handle.grown extra).capacity.toNat ≤ maxHeader.toNat := by omega
    refine ⟨h.put rfl rfl (h.serves.headed.setCapacity hcapacity) rfl, ?_,
      writes_setHeader _ _ hcapacity⟩
    show desk.handle.capacity ≤ (desk.handle.grown extra).capacity
    rw [UInt64.le_iff_toNat_le]
    omega

theorem opened_run (h : Opened path place tables desk) (operations : List Operation) :
    ∃ tables', Opened path place tables' (desk.run operations)
      ∧ desk.handle.capacity ≤ (desk.run operations).handle.capacity ∧ Writes tables tables' := by
  induction operations generalizing tables desk with
  | nil => exact ⟨tables, h, UInt64.le_refl _, .refl tables⟩
  | cons operation operations ih =>
    obtain ⟨between, hstep, hmore, hwrites⟩ := opened_step h operation
    obtain ⟨tables', hrun, hlast, hrest⟩ := ih hstep
    exact ⟨tables', hrun, UInt64.le_trans hmore hlast, hwrites.trans hrest⟩

/-- Growth in two steps leaves what growth by the sum leaves. -/
theorem Opened.run_grow_grow (h : Opened path place tables desk) (a b : UInt64) :
    desk.run [.grow a, .grow b] = desk.run [.grow (satAdd a b)] := by
  have hfirst := h.run_grow a
  have hsum := h.run_grow (satAdd a b)
  show (desk.step (.grow a)).step (.grow b) = desk.step (.grow (satAdd a b))
  split at hfirst
  next hwritable =>
    -- the second step grows what the first has left
    have hstep : desk.step (.grow a) = ⟨desk.handle.grown a, desk.disk.put place
        (indexFile (tables.setHeader capacityKey (desk.handle.grown a).capacity))⟩ := by
      simp only [Desk.step, Operation.act, hfirst]
    have hopened : Opened path place
        (tables.setHeader capacityKey (desk.handle.grown a).capacity) (desk.step (.grow a)) := by
      have hgrown := desk.handle.toNat_capacity_grown a
      rw [hstep]
      exact h.put rfl rfl (h.serves.headed.setCapacity (by omega)) rfl
    have hsecond := hopened.run_grow b
    rw [if_pos hwritable] at hsecond hsum
    rw [hstep] at hsecond ⊢
    simp only [Desk.step, Operation.act, hsecond, hsum, Handle.grown_grown, setHeader_setHeader,
      put_put]
  next hwritable =>
    rw [if_neg hwritable] at hsum
    have hstep : ∀ extra, desk.step (.grow extra) = desk := by
      intro extra
      have hrun := h.run_grow extra
      rw [if_neg hwritable] at hrun
      simp only [Desk.step, Operation.act, hrun]
    rw [hstep, hstep, hstep]

end Run

/-! ## §5. The accounts of a handle. -/

/-- What holds of an open index whatever its numbers are: they are exact, they are those of the header,
and an operation makes of them what it should. -/
structure Accounts (path : String) (desk : Desk) : Prop where
  exact : Exact desk.handle
  free_le : desk.handle.free ≤ desk.handle.capacity
  header : ∃ tables, File.tables desk.handle.store desk.disk = .ok tables
    ∧ Headed desk.handle.capacity desk.handle.permutations desk.handle.count tables
  range : desk.handle.capacity.toNat ≤ maxHeader.toNat ∧ desk.handle.count.toNat ≤ maxHeader.toNat
  reopened : (File.load path).run desk.disk = (.ok desk.handle, desk.disk)
  added : ∀ {records ids handle disk},
    (File.add desk.handle records).run desk.disk = (.ok (ids, handle), disk) →
      handle.count.toNat = desk.handle.count.toNat + records.length
      ∧ handle.capacity = desk.handle.capacity ∧ handle.permutations = desk.handle.permutations
      ∧ (records ≠ [] →
        handle.count.toNat * handle.bytesPerRecord.toNat ≤ handle.capacity.toNat)
  refused : ∀ {records fault disk},
    (File.add desk.handle records).run desk.disk = (.error fault, disk) → disk = desk.disk
  grown : ∀ {extra handle disk},
    (File.grow desk.handle extra).run desk.disk = (.ok handle, disk) →
      handle.capacity.toNat = min (desk.handle.capacity.toNat + extra.toNat) maxHeader.toNat
      ∧ desk.handle.capacity ≤ handle.capacity ∧ handle.count = desk.handle.count
  grownTwice : ∀ a b, desk.run [.grow a, .grow b] = desk.run [.grow (satAdd a b)]
  stats : ∃ stats, File.stats desk.handle desk.disk = .ok stats
    ∧ stats.recordCount = desk.handle.count ∧ stats.capacity = desk.handle.capacity
    ∧ stats.used = desk.handle.used ∧ stats.free = desk.handle.free
    ∧ stats.bytesPerRecord = desk.handle.bytesPerRecord

theorem Opened.accounts {path : String} {place : Place} {tables : Tables} {desk : Desk}
    (h : Opened path place tables desk) : Accounts path desk where
  exact := Index.exact desk.handle
  free_le := desk.handle.free_le_capacity
  header := ⟨tables, h.serves.tables_eq, h.serves.headed⟩
  range := ⟨h.serves.capacity_le, readHeader_le h.serves.headed.count⟩
  reopened := h.reopened
  added := by
    intro records ids handle disk hadded
    rcases h.run_add records with ⟨hroom, hrun⟩ | ⟨fault, hrun⟩
    · rw [hrun] at hadded
      obtain ⟨-, rfl⟩ := Prod.mk.inj (Except.ok.inj (Prod.mk.inj hadded).1)
      have hcount := Handle.toNat_counting h.serves.capacity_le hroom
      refine ⟨hcount, rfl, rfl, fun hsome => ?_⟩
      rw [hcount, Handle.toNat_bytesPerRecord]
      rcases hroom with hnone | hfits
      · exact absurd (List.eq_nil_of_length_eq_zero hnone) hsome
      · exact hfits
    · rw [hrun] at hadded
      exact absurd (Prod.mk.inj hadded).1 (by simp)
  refused := by
    intro records fault disk hrefused
    rcases h.run_add records with ⟨-, hrun⟩ | ⟨_, hrun⟩
    · rw [hrun] at hrefused
      exact absurd (Prod.mk.inj hrefused).1 (by simp)
    · rw [hrun] at hrefused
      exact (Prod.mk.inj hrefused).2.symm
  grown := by
    intro extra handle disk hgrown
    rw [h.run_grow] at hgrown
    split at hgrown
    · obtain rfl := Except.ok.inj (Prod.mk.inj hgrown).1
      have hcapacity := desk.handle.toNat_capacity_grown extra
      have hrange := h.serves.capacity_le
      refine ⟨hcapacity, ?_, rfl⟩
      rw [UInt64.le_iff_toNat_le]
      omega
    · exact absurd (Prod.mk.inj hgrown).1 (by simp)
  grownTwice := h.run_grow_grow
  stats := ⟨_, h.stats_eq, rfl, rfl, rfl, rfl, rfl⟩

/-- Whatever the header of an index says that is opened, after any operations through its handle the
accounts are in order, the capacity has not shrunk, and only numbers that a header can hold were
written to it. -/
theorem accounts_kept {path : String} {disk opened : Disk} {handle : Handle}
    (h : (File.load path).run disk = (.ok handle, opened)) (operations : List Operation) :
    Accounts path (Desk.run ⟨handle, opened⟩ operations)
      ∧ handle.capacity ≤ (Desk.run ⟨handle, opened⟩ operations).handle.capacity
      ∧ ∃ old tables, File.tables handle.store opened = .ok old
        ∧ File.tables handle.store (Desk.run ⟨handle, opened⟩ operations).disk = .ok tables
        ∧ Writes old tables := by
  obtain ⟨place, old, hopened⟩ := Opened.of_load h
  obtain ⟨tables, hrun, hcapacity, hwrites⟩ := opened_run hopened operations
  refine ⟨hrun.accounts, hcapacity, old, tables, hopened.serves.tables_eq, ?_, hwrites⟩
  have hstore : handle.store = (Desk.run ⟨handle, opened⟩ operations).handle.store :=
    hopened.store.trans hrun.store.symm
  rw [hstore]
  exact hrun.serves.tables_eq

/-- The tables of an index that has no records and counts three. -/
def miscounted : Tables := (newTables Session.smallOptions).setHeader countKey 3

/-- Two records, and all the capacity that can be asked for. -/
def twoAndAll : List Operation :=
  [.add Session.twoRecords, .grow 0xffffffffffffffff, .stats]

theorem accounts_kept_miscounted :
    let disk := ({} : Disk).put ["i"] (indexFile miscounted)
    let desk := Desk.run ⟨⟨"i", .file ["i"], 1024, 1, 3⟩, disk⟩ twoAndAll
    (File.load "i").run disk = (.ok ⟨"i", .file ["i"], 1024, 1, 3⟩, disk)
      ∧ desk.handle = ⟨"i", .file ["i"], maxHeader, 1, 5⟩
      ∧ (File.load "i").run desk.disk = (.ok ⟨"i", .file ["i"], maxHeader, 1, 5⟩, desk.disk) := by
  intro disk desk
  have hholds : Holds ["i"] miscounted disk := ⟨Disk.lookup_put _ (by decide) _, by decide⟩
  have hleads : Leads "i" ["i"] disk :=
    hholds.leads (Session.ofPath?_start .write (.inl rfl)) (Session.locate_start _) rfl
  have hvalid : Session.smallOptions.validate = .ok () := rfl
  have hnew : Headed 1024 1 0 (newTables Session.smallOptions) := headed_newTables hvalid
  have hheaded : Headed 1024 1 3 miscounted := hnew.setCount (by decide)
  have hopen : (File.load "i").run disk = (.ok ⟨"i", .file ["i"], 1024, 1, 3⟩, disk) := by
    rw [hholds.run_load hleads, hheaded.ofTables (by decide) (by decide)]
  have hlast : desk.handle = ⟨"i", .file ["i"], maxHeader, 1, 5⟩ := by decide
  refine ⟨hopen, hlast, ?_⟩
  rw [← hlast]
  exact (accounts_kept hopen twoAndAll).1.reopened

end Flowprint.Index
