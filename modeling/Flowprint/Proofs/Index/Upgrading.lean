/-
  Flowprint.Proofs.Index.Upgrading
  ────────────────────────────────
  Index files of the first form.

  The first form had no reliable count in its header; opening counts the records and writes the count.
  `Counted` says what the tables are then.  From outside such a file cannot be told from one that has
  been of the current form with that count all along: any calls give the same answers on both, and
  once one of them has opened the file the two disks are the same.  The simulation needs that no handle
  is open on the file at the beginning, since a handle would go by the numbers of its own.

  Main statements:

      load_outdated       opening a file of the first form brings it to the current one
      step_ahead          a call does to an outdated file what it does to one that was upgraded
      answers_ahead       no calls tell an outdated file from one that was upgraded
      opens_upgraded      what opening does, and that it does it once
-/
import Flowprint.Proofs.Index.Accounts

namespace Flowprint

open Std

/-! ## §1. Actions beside a file. -/

/-- An action does on a disk with something else at a place what it does without. -/
def DiskM.Beside {ε α : Type} (place : Place) (node : FileNode) (action : DiskM ε α) : Prop :=
  ∀ disk, action.run (disk.put place node)
    = ((action.run disk).1, (action.run disk).2.put place node)

namespace DiskM.Beside

variable {ε α β : Type} {place : Place} {node : FileNode}

theorem pure (a : α) : Beside place node (Pure.pure a : DiskM ε α) :=
  fun _ => rfl

theorem lift (outcome : Except ε α) : Beside place node (liftM outcome : DiskM ε α) :=
  fun _ => rfl

/-- What is seen of the disk is the same. -/
theorem get {next : Disk → DiskM ε α} (hnext : ∀ disk, Beside place node (next disk))
    (hsame : ∀ disk, next (disk.put place node) = next disk) :
    Beside place node (MonadState.get >>= next) := by
  intro disk
  simp only [run_bind, run_get, hsame]
  exact hnext disk disk

theorem bind {action : DiskM ε α} {next : α → DiskM ε β} (haction : Beside place node action)
    (hnext : ∀ a disk, (action.run disk).1 = .ok a → Beside place node (next a)) :
    Beside place node (action >>= next) := by
  intro disk
  simp only [run_bind, haction disk]
  rcases hrun : action.run disk with ⟨fault | a, after⟩
  · rfl
  · exact hnext a disk (by rw [hrun]) after

end DiskM.Beside

/-- Two places can be filled in any order. -/
theorem Disk.put_comm (disk : Disk) {place other : Place} (h : other ≠ place)
    (node content : FileNode) :
    (disk.put place node).put other content = (disk.put other content).put place node := by
  have hnodes : (disk.nodes.insert place node).insert other content
      = (disk.nodes.insert other content).insert place node := by
    apply ExtTreeMap.ext_getElem?
    intro third
    simp only [ExtTreeMap.getElem?_insert]
    by_cases hthird : other = third
    · subst hthird
      rw [if_pos Std.ReflCmp.compare_self, if_neg fun heq => h (Std.compare_eq_iff_eq.mp heq).symm,
        if_pos Std.ReflCmp.compare_self]
    · rw [if_neg fun heq => hthird (Std.compare_eq_iff_eq.mp heq),
        if_neg fun heq => hthird (Std.compare_eq_iff_eq.mp heq)]
  simp only [Disk.put, hnodes]

/-- A file that must be there does not depend on the contents of a database. -/
theorem Disk.touch_put_database {disk : Disk} {place : Place} {old : Index.Database}
    (new : Index.Database) (other : Place) (hthere : disk.lookup place = some (.database old)) :
    (disk.put place (.database new)).touch other
      = (disk.touch other).map fun after => after.put place (.database new) := by
  have hbelow : Place.isAncestor place = false :=
    Disk.isAncestor_eq_false (by rw [hthere]; simp)
  have hafter := Disk.lookup_put disk hbelow (.database new)
  by_cases heq : other = place
  · subst heq
    simp only [Disk.touch, hafter, hthere]
    rfl
  · have hsame : (disk.put place (.database new)).lookup other = disk.lookup other :=
      Disk.lookup_put_ne disk (Ne.symm heq) _
    have habove : (disk.put place (.database new)).lookup other.dropLast = some .directory
        ↔ disk.lookup other.dropLast = some .directory := by
      by_cases hdrop : place = other.dropLast
      · rw [← hdrop, hafter, hthere]
        simp
      · rw [Disk.lookup_put_ne disk hdrop]
    simp only [Disk.touch, hsame, habove]
    cases disk.lookup other with
    | none =>
      dsimp only
      split
      · exact congrArg Except.ok (Disk.put_comm disk heq _ _)
      · rfl
    | some content =>
      cases content with
      | directory => rfl
      | file content => rfl
      | database contents => rfl

namespace Index

section Beside

variable {place : Place} {node : FileNode} {store : Store}

theorem database_beside (hstore : store ≠ .file place) (disk : Disk) :
    File.database store (disk.put place node) = File.database store disk := by
  cases store with
  | alone database => rfl
  | file other =>
    have hne : place ≠ other := fun heq => hstore (congrArg Store.file heq.symm)
    simp only [File.database, Disk.lookup_put_ne disk hne]

theorem tables_beside (hstore : store ≠ .file place) (disk : Disk) :
    File.tables store (disk.put place node) = File.tables store disk := by
  simp only [File.tables, database_beside hstore]

theorem put_beside (hstore : store ≠ .file place) (database : Database) :
    DiskM.Beside place node (File.put store database) := by
  intro disk
  cases store with
  | alone old => rfl
  | file other =>
    have hne : other ≠ place := fun heq => hstore (congrArg Store.file heq)
    show (if File.hasRoomForJournal other then _ else _ : Except Fault Store × Disk)
      = ((if File.hasRoomForJournal other then _ else _ : Except Fault Store × Disk).1,
        (if File.hasRoomForJournal other then _ else _ : Except Fault Store × Disk).2.put place node)
    split
    · exact Prod.ext rfl (Disk.put_comm disk hne _ _)
    · rfl

theorem putTables_beside (hstore : store ≠ .file place) (tables : Tables) :
    DiskM.Beside place node (File.putTables store tables) := by
  unfold File.putTables
  refine .get (fun disk => ?_) fun disk => by rw [database_beside hstore]
  exact .bind (.lift _) fun database _ _ => put_beside hstore _

variable {handle : Handle}

/-- Records are added beside a file as they are added without it. -/
theorem add_beside (hstore : handle.store ≠ .file place) (records : List Record) :
    DiskM.Beside place node (File.add handle records) := by
  unfold File.add
  refine .bind (.lift _) fun _ _ _ => ?_
  refine .get (fun disk => ?_) fun disk => by rw [tables_beside hstore]
  refine .bind (.lift _) fun tables _ _ => ?_
  refine .bind (.lift _) fun added _ hadded => ?_
  have hother : added.2.1.store ≠ .file place := by
    rw [Handle.store_of_add hadded]
    exact hstore
  exact .bind (putTables_beside hother _) fun store _ _ => .pure _

/-- Capacity is added beside a file as it is added without it. -/
theorem grow_beside (hstore : handle.store ≠ .file place) (extra : UInt64) :
    DiskM.Beside place node (File.grow handle extra) := by
  unfold File.grow
  refine .get (fun disk => ?_) fun disk => by rw [tables_beside hstore]
  refine .bind (.lift _) fun tables _ _ => ?_
  exact .bind (putTables_beside hstore _) fun store _ _ => .pure _

end Beside

/-! ## §2. Files of the first form. -/

/-- The tables with their records counted in the header. -/
def Tables.counted (tables : Tables) : Tables :=
  tables.setHeader countKey (.ofNat tables.records.size)

/-- The file at a place is an index of the first form with the given tables, and can be changed. -/
structure Outdated (place : Place) (tables : Tables) (disk : Disk) : Prop where
  contents : disk.lookup place = some (.database ⟨applicationMark, oldestSchema, some tables⟩)
  writable : File.hasRoomForJournal place = true

/-- Tables of the current form with the same capacity and permutations, the same records under the
same numbers and the same entries as tables of the first form, and with a header that counts them. -/
structure Counted (old tables : Tables) : Prop where
  records : tables.records = old.records
  entries : tables.entries = old.entries
  lastId : tables.lastId = old.lastId
  header : ∀ key, key ≠ countKey → tables.header[key]? = old.header[key]?
  count : ∃ count, tables.readHeader countKey = .ok count ∧ count.toNat = old.records.size

theorem counted_counted {old : Tables} (h : old.records.size ≤ maxHeader.toNat) :
    Counted old old.counted where
  records := rfl
  entries := rfl
  lastId := rfl
  header := by
    intro key hkey
    show (old.header.insert countKey _)[key]? = _
    rw [ExtTreeMap.getElem?_insert, if_neg fun heq => hkey (Std.compare_eq_iff_eq.mp heq).symm]
  count := by
    have hcount := Session.toNat_count h
    exact ⟨_, Tables.readHeader_setHeader _ _ (toInt64_nonneg (by rw [hcount]; exact h)), hcount⟩

/-- Only one header counts the records. -/
theorem Counted.eq {old tables : Tables} (h : Counted old tables) : tables = old.counted := by
  obtain ⟨count, hread, hcount⟩ := h.count
  have hstored : tables.setHeader countKey count = tables := setHeader_readHeader hread
  have hword : count = .ofNat old.records.size := by
    rw [← hcount, UInt64.ofNat_toNat]
  have hheader : tables.header = old.counted.header := by
    rw [← hstored, hword]
    apply ExtTreeMap.ext_getElem?
    intro key
    show (tables.header.insert countKey _)[key]? = (old.header.insert countKey _)[key]?
    simp only [ExtTreeMap.getElem?_insert]
    split
    · rfl
    next hother => exact h.header key fun heq => hother (by rw [heq]; exact Std.ReflCmp.compare_self)
  cases tables
  exact Tables.mk.injEq .. ▸ ⟨hheader, h.records, h.entries, h.lastId⟩

/-- An index of the first form is opened as what it becomes when its records are counted. -/
theorem openAt_oldest (path : String) (store : Store) (tables : Tables) :
    Database.openAt path store ⟨applicationMark, oldestSchema, some tables⟩
      = (Handle.ofTables path store tables.counted,
        ⟨applicationMark, currentSchema, some tables.counted⟩) := by
  rfl

/-! ## §3. Opening. -/

/-- A path leads to the same database whatever becomes of one. -/
theorem locate_put_database {disk : Disk} {place : Place} {old : Database} (new : Database)
    (hthere : disk.lookup place = some (.database old)) (access : Access) (path : String) :
    File.locate access path (disk.put place (.database new))
      = (File.locate access path disk).map fun located =>
        (located.1, located.2.put place (.database new)) := by
  have hnone : ∀ other, ((disk.put place (.database new)).lookup other).isNone
      = (disk.lookup other).isNone := by
    intro other
    by_cases heq : place = other
    · subst heq
      have hbelow : Place.isAncestor place = false :=
        Disk.isAncestor_eq_false (by rw [hthere]; simp)
      rw [Disk.lookup_put disk hbelow, hthere]
      rfl
    · rw [Disk.lookup_put_ne disk heq]
  unfold File.locate
  rw [Disk.spelled_put_database new hthere]
  split
  · rfl
  · rfl
  · split
    · rfl
    next other _ =>
      rw [hnone, Disk.touch_put_database new other hthere]
      split
      · rfl
      · cases disk.touch other <;> rfl

/-- Open the index in a database that was found, which is put back if it has changed. -/
def File.openFound (path : String) (store : Store) (found : Database) : DiskM Fault Handle :=
  fun disk =>
    if (found.openAt path store).2 = found then ((found.openAt path store).1, disk)
    else
      match File.put store (found.openAt path store).2 disk with
      | (.ok _, disk) => ((found.openAt path store).1, disk)
      | (.error fault, disk) => (.error fault, disk)

/-- An index is opened where its path leads. -/
theorem run_load (path : String) (disk : Disk) :
    (File.load path).run disk =
      if disk.holds path then
        match File.locate .write path disk with
        | .error fault => (.error fault, disk)
        | .ok (store, disk) =>
          match File.database store disk with
          | .error fault => (.error fault, disk)
          | .ok found => File.openFound path store found disk
      else (.error (.missing path), disk) :=
  rfl

section Opening

variable {place : Place} {tables : Tables} {disk : Disk}

/-- An index is opened beside a file as it is opened without it. -/
theorem openFound_beside {store : Store} (hstore : store ≠ .file place) {node : FileNode}
    (path : String) (found : Database) :
    DiskM.Beside place node (File.openFound path store found) := by
  intro disk
  have hput : (File.put store (found.openAt path store).2).run (disk.put place node) = _ :=
    put_beside hstore _ disk
  show File.openFound path store found (disk.put place node)
    = ((File.openFound path store found disk).1,
      (File.openFound path store found disk).2.put place node)
  unfold File.openFound
  split
  · rfl
  · rcases hrun : (File.put store (found.openAt path store).2).run disk with ⟨outcome, after⟩
    rw [hrun] at hput
    have hplain : File.put store (found.openAt path store).2 disk = (outcome, after) := hrun
    have hmoved : File.put store (found.openAt path store).2 (disk.put place node)
        = (outcome, after.put place node) := hput
    rw [hplain, hmoved]
    cases outcome <;> rfl

theorem openFound_elsewhere {store : Store} (hstore : store ≠ .file place) (path : String)
    (found : Database) :
    DiskM.Spares place (File.openFound path store found) fun handle =>
      handle.store ≠ .file place := by
  intro disk
  have hopened : ∀ handle, (found.openAt path store).1 = .ok handle →
      handle.store ≠ .file place := by
    intro handle heq
    rw [store_of_openAt heq]
    exact hstore
  have hput := (put_elsewhere hstore (found.openAt path store).2 disk).1
  show (File.openFound path store found disk).2.lookup place = _
    ∧ ∀ handle, (File.openFound path store found disk).1 = .ok handle → _
  unfold File.openFound
  split
  · exact ⟨rfl, hopened⟩
  · split
    next last after hrun =>
      exact ⟨(congrArg (fun result => Disk.lookup result.2 place) hrun).symm.trans hput, hopened⟩
    next fault after hrun =>
      exact ⟨(congrArg (fun result => Disk.lookup result.2 place) hrun).symm.trans hput,
        fun _ heq => absurd heq (by simp)⟩

/-- An outdated file that is opened is upgraded. -/
theorem Outdated.openFound_eq (h : Outdated place tables disk) (path : String) :
    File.openFound path (.file place) ⟨applicationMark, oldestSchema, some tables⟩ disk
      = (Handle.ofTables path (.file place) tables.counted,
        disk.put place (indexFile tables.counted)) := by
  have hput : File.put (.file place) ⟨applicationMark, currentSchema, some tables.counted⟩ disk
      = (.ok (.file place), disk.put place (indexFile tables.counted)) :=
    run_put h.writable _ disk
  have hforms : currentSchema ≠ oldestSchema := by decide
  have hchanged : (⟨applicationMark, currentSchema, some tables.counted⟩ : Database)
      ≠ ⟨applicationMark, oldestSchema, some tables⟩ :=
    fun heq => hforms (congrArg Database.schemaVersion heq)
  simp only [File.openFound, openAt_oldest, if_neg hchanged, hput]

/-- Opening on a disk with an outdated file and on the disk where it was upgraded: either the file is
opened, which is upgraded then, or it is left alone. -/
inductive Twins (place : Place) (tables : Tables) (disk : Disk) :
    Except Fault Handle × Disk → Except Fault Handle × Disk → Prop
  | opened {outcome : Except Fault Handle × Disk} : Twins place tables disk outcome outcome
  | beside {outcome : Except Fault Handle} {after : Disk}
      (hsame : after.lookup place = disk.lookup place)
      (hother : ∀ handle, outcome = .ok handle → handle.store ≠ .file place) :
      Twins place tables disk (outcome, after)
        (outcome, after.put place (indexFile tables.counted))

theorem Twins.error {fault : Fault} {after : Disk}
    (hsame : after.lookup place = disk.lookup place) :
    Twins place tables disk (.error fault, after)
      (.error fault, after.put place (indexFile tables.counted)) :=
  .beside hsame fun _ heq => absurd heq (by simp)

theorem twins_load (h : Outdated place tables disk) (path : String) :
    Twins place tables disk ((File.load path).run disk)
      ((File.load path).run (disk.put place (indexFile tables.counted))) := by
  have hbelow : Place.isAncestor place = false :=
    Disk.isAncestor_eq_false (by rw [h.contents]; simp)
  have hholds : (disk.put place (indexFile tables.counted)).holds path = disk.holds path :=
    Disk.holds_put_database _ path h.contents
  have hlocates : File.locate .write path (disk.put place (indexFile tables.counted)) = _ :=
    locate_put_database _ h.contents .write path
  rw [run_load, run_load, hholds, hlocates]
  split
  next =>
    cases hlocate : File.locate .write path disk with
    | error fault => exact .error rfl
    | ok located =>
      obtain ⟨store, after⟩ := located
      have hsame : after.lookup place = disk.lookup place :=
        lookup_locate hlocate (by rw [h.contents]; rfl)
      show Twins place tables disk
        (match File.database store after with
          | .error fault => (.error fault, after)
          | .ok found => File.openFound path store found after)
        (match File.database store (after.put place (indexFile tables.counted)) with
          | .error fault => (.error fault, after.put place (indexFile tables.counted))
          | .ok found => File.openFound path store found
            (after.put place (indexFile tables.counted)))
      by_cases hstore : store = .file place
      · -- the path leads to the file
        subst hstore
        have hafter : Outdated place tables after := ⟨hsame.trans h.contents, h.writable⟩
        have hupgraded : Holds place tables.counted (after.put place (indexFile tables.counted)) :=
          ⟨Disk.lookup_put after hbelow _, h.writable⟩
        have hold : File.database (.file place) after
            = .ok ⟨applicationMark, oldestSchema, some tables⟩ := by
          simp only [File.database, hafter.contents]
          rfl
        have hopened : File.openFound path (.file place)
              ⟨applicationMark, currentSchema, some tables.counted⟩
              (after.put place (indexFile tables.counted))
            = (Handle.ofTables path (.file place) tables.counted,
              after.put place (indexFile tables.counted)) := by
          simp only [File.openFound, openAt_eq, if_true]
        rw [hold, hupgraded.database_eq]
        dsimp only
        rw [hafter.openFound_eq, hopened]
        exact .opened
      · rw [database_beside hstore]
        cases hfound : File.database store after with
        | error fault => exact .error hsame
        | ok found =>
          obtain ⟨hspared, hother⟩ := openFound_elsewhere hstore path found after
          have hbeside : File.openFound path store found
              (after.put place (indexFile tables.counted)) = _ :=
            openFound_beside hstore path found after
          dsimp only
          rw [hbeside]
          exact .beside (hspared.trans hsame) hother
  next => exact .error rfl

theorem Outdated.run_load (h : Outdated place tables disk) {path : String}
    (hleads : Leads path place disk) :
    (File.load path).run disk = (Handle.ofTables path (.file place) tables.counted,
      disk.put place (indexFile tables.counted)) := by
  have hold : File.database (.file place) disk
      = .ok ⟨applicationMark, oldestSchema, some tables⟩ := by
    simp only [File.database, h.contents]
    rfl
  simp only [Index.run_load, hleads.holds, hleads.locate, hold, h.openFound_eq, if_true]

/-- What has been upgraded is opened as it is. -/
theorem Outdated.run_load_counted (h : Outdated place tables disk) {path : String}
    (hleads : Leads path place disk) :
    (File.load path).run (disk.put place (indexFile tables.counted))
      = (Handle.ofTables path (.file place) tables.counted,
        disk.put place (indexFile tables.counted)) := by
  have hbelow : Place.isAncestor place = false :=
    Disk.isAncestor_eq_false (by rw [h.contents]; simp)
  exact run_load_current (hleads.put_database h.contents _) (Disk.lookup_put disk hbelow _)

end Opening

/-! ## §4. Outdated files and upgraded ones. -/

/-- What a call gives. -/
inductive Answer where
  | stored (outcome : Except Fault (List RecordId))
  | grown (outcome : Except Fault UInt64)
  | ranked (outcome : Except Fault (List Hit))
  | opened (outcome : Except Fault Handle)
  /-- There is no such handle, or nothing to give. -/
  | nothing

namespace Session

/-- What a call gives.  Growth gives the new capacity. -/
def answer (s : Session) : Call → Answer
  | .add slot records =>
    match s.handles[slot]? with
    | none => .nothing
    | some handle => .stored (((File.add handle records).run s.disk).1.map Prod.fst)
  | .grow slot extra =>
    match s.handles[slot]? with
    | none => .nothing
    | some handle => .grown (((File.grow handle extra).run s.disk).1.map Handle.capacity)
  | .query slot hash n =>
    match s.handles[slot]? with
    | none => .nothing
    | some handle => .ranked (File.query handle hash n s.disk)
  | .load path => .opened ((File.load path).run s.disk).1
  | .close _ => .nothing

/-- What some calls give. -/
def answers (s : Session) : List Call → List Answer
  | [] => []
  | call :: rest => s.answer call :: answers (s.step call) rest

/-- Two sessions that differ in a file on which no handle is open: it is outdated in the one, and
upgraded in the other. -/
structure Ahead (place : Place) (tables : Tables) (s ahead : Session) : Prop where
  outdated : Outdated place tables s.disk
  disk : ahead.disk = s.disk.put place (indexFile tables.counted)
  handles : ahead.handles = s.handles
  elsewhere : ∀ handle ∈ s.handles, handle.store ≠ .file place

section Ahead

variable {place : Place} {tables : Tables} {s ahead : Session}

/-- An operation of a handle on another file keeps the file outdated in the one session and upgraded
in the other. -/
theorem Ahead.update (h : Ahead place tables s ahead) (slot : Nat)
    {outcome : Except Fault Handle} {after : Disk}
    (hsame : after.lookup place = s.disk.lookup place)
    (hother : ∀ handle, outcome = .ok handle → handle.store ≠ .file place) :
    Ahead place tables (s.update slot outcome after)
      (ahead.update slot outcome (after.put place (indexFile tables.counted))) := by
  have houtdated : Outdated place tables after :=
    ⟨hsame.trans h.outdated.contents, h.outdated.writable⟩
  cases outcome with
  | error fault => exact ⟨houtdated, rfl, h.handles, h.elsewhere⟩
  | ok new =>
    refine ⟨houtdated, rfl, congrArg (·.set slot new) h.handles, fun handle hmem => ?_⟩
    rcases List.mem_or_eq_of_mem_set hmem with hold | rfl
    · exact h.elsewhere handle hold
    · exact hother _ rfl

theorem ahead_add (h : Ahead place tables s ahead) (slot : Nat) (records : List Record) :
    s.answer (.add slot records) = ahead.answer (.add slot records)
      ∧ Ahead place tables (s.step (.add slot records)) (ahead.step (.add slot records)) := by
  simp only [answer, step, h.handles]
  cases hslot : s.handles[slot]? with
  | none => exact ⟨rfl, h⟩
  | some handle =>
    have hstore := h.elsewhere handle (List.mem_of_getElem? hslot)
    obtain ⟨hsame, hother⟩ := add_elsewhere hstore records s.disk
    have hbeside : (File.add handle records).run (s.disk.put place (indexFile tables.counted)) = _ :=
      add_beside hstore records s.disk
    rw [← h.disk] at hbeside
    simp only [hbeside]
    generalize (File.add handle records).run s.disk = result at hsame hother ⊢
    refine ⟨trivial, h.update slot hsame fun after hafter => ?_⟩
    obtain ⟨added, hadded, rfl⟩ := map_eq_ok hafter
    exact hother added hadded

theorem ahead_grow (h : Ahead place tables s ahead) (slot : Nat) (extra : UInt64) :
    s.answer (.grow slot extra) = ahead.answer (.grow slot extra)
      ∧ Ahead place tables (s.step (.grow slot extra)) (ahead.step (.grow slot extra)) := by
  simp only [answer, step, h.handles]
  cases hslot : s.handles[slot]? with
  | none => exact ⟨rfl, h⟩
  | some handle =>
    have hstore := h.elsewhere handle (List.mem_of_getElem? hslot)
    obtain ⟨hsame, hother⟩ := grow_elsewhere hstore extra s.disk
    have hbeside : (File.grow handle extra).run (s.disk.put place (indexFile tables.counted)) = _ :=
      grow_beside hstore extra s.disk
    rw [← h.disk] at hbeside
    simp only [hbeside]
    exact ⟨trivial, h.update slot hsame hother⟩

theorem ahead_query (h : Ahead place tables s ahead) (slot : Nat) (hash : SimHash) (n : Nat) :
    s.answer (.query slot hash n) = ahead.answer (.query slot hash n) := by
  simp only [answer, h.handles]
  cases hslot : s.handles[slot]? with
  | none => rfl
  | some handle =>
    have hstore := h.elsewhere handle (List.mem_of_getElem? hslot)
    simp only [File.query, h.disk, tables_beside hstore]

/-- Opening opens the file in both sessions, which are the same then, or in none. -/
theorem ahead_load (h : Ahead place tables s ahead) (path : String) :
    s.answer (.load path) = ahead.answer (.load path)
      ∧ (s.step (.load path) = ahead.step (.load path)
        ∨ Ahead place tables (s.step (.load path)) (ahead.step (.load path))) := by
  have htwins := twins_load h.outdated path
  rw [← h.disk] at htwins
  simp only [answer, step, h.handles]
  generalize (File.load path).run s.disk = left, (File.load path).run ahead.disk = right at htwins ⊢
  cases htwins with
  | opened =>
    refine ⟨rfl, .inl ?_⟩
    rcases left with ⟨fault | handle, after⟩
    · rfl
    · rfl
  | @beside outcome after hsame hother =>
    have houtdated : Outdated place tables after :=
      ⟨hsame.trans h.outdated.contents, h.outdated.writable⟩
    refine ⟨rfl, .inr ?_⟩
    cases outcome with
    | error fault => exact ⟨houtdated, rfl, rfl, h.elsewhere⟩
    | ok opened =>
      refine ⟨houtdated, rfl, rfl, fun handle hmem => ?_⟩
      rcases List.mem_append.mp hmem with hold | hnew
      · exact h.elsewhere handle hold
      · rw [List.mem_singleton.mp hnew]
        exact hother opened rfl

/-- A call gives the same on an outdated file as on one that was upgraded, and leaves the same, or
leaves the one file outdated and the other upgraded. -/
theorem step_ahead (h : Ahead place tables s ahead) (call : Call) :
    s.answer call = ahead.answer call
      ∧ (s.step call = ahead.step call ∨ Ahead place tables (s.step call) (ahead.step call)) := by
  cases call with
  | add slot records =>
    obtain ⟨hanswer, hstep⟩ := ahead_add h slot records
    exact ⟨hanswer, .inr hstep⟩
  | grow slot extra =>
    obtain ⟨hanswer, hstep⟩ := ahead_grow h slot extra
    exact ⟨hanswer, .inr hstep⟩
  | query slot hash n => exact ⟨ahead_query h slot hash n, .inr h⟩
  | load path => exact ahead_load h path
  | close slot =>
    refine ⟨rfl, .inr ⟨h.outdated, h.disk, congrArg (·.eraseIdx slot) h.handles, ?_⟩⟩
    exact fun handle hmem => h.elsewhere handle (List.mem_of_mem_eraseIdx hmem)

/-- No calls tell an outdated file from one that was upgraded. -/
theorem run_ahead (h : Ahead place tables s ahead) (calls : List Call) :
    s.answers calls = ahead.answers calls
      ∧ (s.run calls = ahead.run calls ∨ Ahead place tables (s.run calls) (ahead.run calls)) := by
  induction calls generalizing s ahead with
  | nil => exact ⟨rfl, .inr h⟩
  | cons call calls ih =>
    obtain ⟨hanswer, hsame | hahead⟩ := step_ahead h call
    · -- from here on the sessions are one
      refine ⟨?_, .inl ?_⟩
      · rw [answers, answers, hanswer, hsame]
      · show (s.step call).run calls = (ahead.step call).run calls
        rw [hsame]
    · obtain ⟨hanswers, hrun⟩ := ih hahead
      refine ⟨?_, hrun⟩
      rw [answers, answers, hanswer, hanswers]

end Ahead

/-- Nothing tells one session from another: calls give the same, and handles see the same; and once a
path has been opened the sessions are one. -/
structure Alike (path : String) (s other : Session) : Prop where
  answers : ∀ calls, s.answers calls = other.answers calls
  handles : ∀ calls, (s.run calls).handles = (other.run calls).handles
  contents : ∀ calls, ∀ handle ∈ (s.run calls).handles,
    File.database handle.store (s.run calls).disk = File.database handle.store (other.run calls).disk
  opened : ∀ calls, s.run (.load path :: calls) = other.run (.load path :: calls)

theorem Ahead.alike {path : String} {place : Place} {tables : Tables} {s ahead : Session}
    (h : Ahead place tables s ahead) (hleads : Leads path place s.disk) : Alike path s ahead where
  answers calls := (run_ahead h calls).1
  handles calls := by
    rcases (run_ahead h calls).2 with hsame | hahead
    · rw [hsame]
    · exact hahead.handles.symm
  contents calls handle hmem := by
    rcases (run_ahead h calls).2 with hsame | hahead
    · rw [hsame]
    · rw [hahead.disk, database_beside (hahead.elsewhere handle hmem)]
  opened calls := by
    have hload := h.outdated.run_load hleads
    have hagain := h.outdated.run_load_counted hleads
    have hstep : s.step (.load path) = ahead.step (.load path) := by
      simp only [step, h.disk, h.handles, hload, hagain]
    show (s.step (.load path)).run calls = (ahead.step (.load path)).run calls
    rw [hstep]

end Session

/-! ## §5. What opening does. -/

/-- Opening an index of the first form with a header that makes sense upgrades it.  Nothing can tell
then, or could before, that the file has not been of the current form with the right count all along.
Opening an index of the current form changes nothing, and so it makes no difference whether an index
is opened once or twice. -/
theorem opens_upgraded {path : String} {place : Place} {tables : Tables} {disk : Disk}
    {capacity : UInt64} {permutations : UInt32} (h : Outdated place tables disk)
    (hleads : Leads path place disk) (hcapacity : tables.readHeader capacityKey = .ok capacity)
    (hpermutations : tables.readHeader permutationsKey = .ok permutations.toUInt64)
    (hmin : 1 ≤ permutations.toNat) (hmax : permutations.toNat ≤ maxPermutations)
    -- a file cannot have more rows than a header can count
    (hrows : tables.records.size ≤ maxHeader.toNat) :
    (∃ upgraded, Counted tables upgraded
        ∧ (File.load path).run disk
          = (.ok ⟨path, .file place, capacity, permutations, .ofNat tables.records.size⟩,
            disk.put place (indexFile upgraded)))
      ∧ (∀ right handles, Counted tables right → (∀ handle ∈ handles, handle.store ≠ .file place) →
          Session.Alike path ⟨disk, handles⟩ ⟨disk.put place (indexFile right), handles⟩)
      ∧ (∀ {path place tables disk}, Leads path place disk →
          disk.lookup place = some (indexFile tables) →
          (File.load path).run disk = (Handle.ofTables path (.file place) tables, disk))
      ∧ ∀ {path disk handle opened}, (File.load path).run disk = (.ok handle, opened) →
          (File.load path).run opened = (.ok handle, opened) := by
  have hcounted := counted_counted hrows
  have hheaded : Headed capacity permutations (.ofNat tables.records.size) tables.counted := by
    refine ⟨?_, ?_, ?_⟩
    · exact (readHeader_setHeader_ne tables (by decide) _).trans hcapacity
    · exact (readHeader_setHeader_ne tables (by decide) _).trans hpermutations
    · have hcount := Session.toNat_count hrows
      exact Tables.readHeader_setHeader tables _ (toInt64_nonneg (by rw [hcount]; exact hrows))
  refine ⟨⟨tables.counted, hcounted, ?_⟩, fun right handles hright helsewhere => ?_,
    run_load_current, fun hload => ?_⟩
  · rw [h.run_load hleads, hheaded.ofTables hmin hmax]
  · rw [hright.eq]
    exact Session.Ahead.alike ⟨h, rfl, rfl, helsewhere⟩ hleads
  · obtain ⟨place, tables, hopened⟩ := Opened.of_load hload
    exact hopened.reopened

/-- Tables of the first form with two records and a header that counts fewer than none. -/
def negativeCount : Tables :=
  let tables := ((newTables Session.smallOptions).appendAll 1 Session.twoRecords).2
  { tables with header := tables.header.insert countKey (-3) }

theorem opens_upgraded_negative :
    let old : FileNode := .database ⟨applicationMark, oldestSchema, some negativeCount⟩
    let disk := ({} : Disk).put ["i"] old
    negativeCount.readHeader countKey = .error (.corruptHeader (.negative countKey (-3)))
      ∧ ((File.load "i").run disk).1 = .ok ⟨"i", .file ["i"], 1024, 1, 2⟩
      ∧ Session.Alike "i" ⟨disk, []⟩
        ⟨disk.put ["i"] (indexFile negativeCount.counted), []⟩ := by
  intro old disk
  have hthere : disk.lookup ["i"] = some old := Disk.lookup_put _ (by decide) _
  have houtdated : Outdated ["i"] negativeCount disk := ⟨hthere, by decide⟩
  have hleads : Leads "i" ["i"] disk := by
    have htouch : disk.touch ["i"] = .ok disk := by simp only [Disk.touch, hthere, old]
    have hspelled : disk.spelled "i" = .ok ["i"] := rfl
    constructor
    · simp only [Disk.holds, Disk.node, Session.locate_start, hthere]
    · simp only [File.locate, Session.ofPath?_start .write (.inl rfl), hspelled, htouch, hthere]
      rfl
  have hrows : negativeCount.records.size ≤ maxHeader.toNat := by decide
  have hcapacity : negativeCount.readHeader capacityKey = .ok 1024 := rfl
  have hpermutations : negativeCount.readHeader permutationsKey = .ok (1 : UInt32).toUInt64 := rfl
  obtain ⟨⟨upgraded, -, hload⟩, halike, -⟩ :=
    opens_upgraded houtdated hleads hcapacity hpermutations (by decide) (by decide) hrows
  refine ⟨rfl, ?_, halike _ [] (counted_counted hrows) fun _ hmem => absurd hmem (by simp)⟩
  rw [hload]
  rfl

end Index

end Flowprint
