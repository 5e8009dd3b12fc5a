/-
  Flowprint.Proofs.Index.Operation
  ────────────────────────────────
  What the operations on indexes in files do to the file at one place.

  `Holds` says that the file at a place is an index with given tables.  On such a file every operation
  through a handle on it is a change of the tables, and every operation through a handle on another
  file leaves it alone.  Creating an index where no database is makes such a file.

  Main statements:

      Holds.run_add_ok, Holds.run_grow   operations change the tables of their file
      Holds.run_load                     opening gives the handle that the header describes
      add_elsewhere, grow_elsewhere      other files are left alone
      Holds.load                         opening any path leaves the file alone
      create_new                         a new index has its options in its header, and no records
-/
import Flowprint.Index.File
import Flowprint.Proofs.Disk
import Flowprint.Proofs.Index.Filing

namespace Flowprint.Index

/-! ## §1. Index files. -/

/-- An index file of the current form. -/
def indexFile (tables : Tables) : FileNode :=
  .database ⟨applicationMark, currentSchema, some tables⟩

/-- The file at a place is an index of the current form with the given tables, and can be changed. -/
structure Holds (place : Place) (tables : Tables) (disk : Disk) : Prop where
  contents : disk.lookup place = some (indexFile tables)
  writable : File.hasRoomForJournal place = true

/-- A path leads to the file at a place. -/
structure Leads (path : String) (place : Place) (disk : Disk) : Prop where
  holds : disk.holds path = true
  locate : File.locate .write path disk = .ok (.file place, disk)

/-- The count of a handle after a batch. -/
def Handle.countAfter (handle : Handle) (records : List Record) : UInt64 :=
  handle.count + .ofNat records.length

/-- An index of the current form is opened as it is. -/
theorem openAt_eq (path : String) (store : Store) (tables : Tables) :
    Database.openAt path store ⟨applicationMark, currentSchema, some tables⟩
      = (Handle.ofTables path store tables, ⟨applicationMark, currentSchema, some tables⟩) := by
  rfl

/-- A database is put where there is room for a journal beside it. -/
theorem run_put {place : Place} (hroom : File.hasRoomForJournal place = true) (database : Database)
    (disk : Disk) : (File.put (.file place) database).run disk
      = (.ok (.file place), disk.put place (.database database)) :=
  if_pos hroom

/-! ## §2. Operations through a handle on the file. -/

namespace Holds

variable {place : Place} {tables : Tables} {disk : Disk}

theorem isAncestor (h : Holds place tables disk) : Place.isAncestor place = false :=
  Disk.isAncestor_eq_false (by rw [h.contents]; simp [indexFile])

/-- A file that is there need not be created. -/
theorem touch_eq (h : Holds place tables disk) : disk.touch place = .ok disk := by
  simp only [Disk.touch, h.contents, indexFile]

theorem database_eq (h : Holds place tables disk) :
    File.database (.file place) disk = .ok ⟨applicationMark, currentSchema, some tables⟩ := by
  simp only [File.database, h.contents]
  rfl

theorem tables_eq (h : Holds place tables disk) : File.tables (.file place) disk = .ok tables := by
  unfold File.tables
  rw [h.database_eq]

/-- New tables put in the place of the old ones are there. -/
theorem put (h : Holds place tables disk) (new : Tables) :
    Holds place new (disk.put place (indexFile new)) :=
  ⟨Disk.lookup_put disk h.isAncestor _, h.writable⟩

theorem run_putTables (h : Holds place tables disk) (new : Tables) :
    (File.putTables (.file place) new).run disk
      = (.ok (.file place), disk.put place (indexFile new)) := by
  simp only [File.putTables, DiskM.run_bind, DiskM.run_get, DiskM.run_lift, h.database_eq]
  exact run_put h.writable _ disk

/-- A batch for which there is room is stored and counted. -/
theorem run_add_ok (h : Holds place tables disk) {handle : Handle}
    (hstore : handle.store = .file place) {records : List Record}
    (hroom : handle.checkRoom records.length = .ok ()) :
    (File.add handle records).run disk
      = (.ok ((tables.appendAll handle.permutations.toNat records).1,
          { handle with count := handle.countAfter records }),
        disk.put place (indexFile ((tables.appendAll handle.permutations.toNat records).2.setHeader
          countKey (handle.countAfter records)))) := by
  have hadd : handle.add records tables
      = .ok ((tables.appendAll handle.permutations.toNat records).1,
        { handle with count := handle.countAfter records },
        (tables.appendAll handle.permutations.toNat records).2.setHeader countKey
          (handle.countAfter records)) := by
    simp only [Handle.add, hroom, Handle.countAfter]
  simp only [File.add, DiskM.run_bind, DiskM.run_get, DiskM.run_lift, DiskM.run_pure, hroom, hstore,
    h.tables_eq, hadd, h.run_putTables]

/-- A batch for which there is no room changes nothing. -/
theorem run_add_error {handle : Handle} {records : List Record} {fault : Fault} (disk : Disk)
    (hroom : handle.checkRoom records.length = .error fault) :
    (File.add handle records).run disk = (.error fault, disk) := by
  simp only [File.add, DiskM.run_bind, DiskM.run_lift, hroom]

theorem run_grow (h : Holds place tables disk) {handle : Handle}
    (hstore : handle.store = .file place) (extra : UInt64) :
    (File.grow handle extra).run disk
      = (.ok (handle.grow extra tables).1,
        disk.put place (indexFile (handle.grow extra tables).2)) := by
  have hsame : (handle.grow extra tables).1.store = .file place := hstore
  simp only [File.grow, DiskM.run_bind, DiskM.run_get, DiskM.run_lift, DiskM.run_pure, hstore, hsame,
    h.tables_eq, h.run_putTables]
  rw [← hsame]

theorem run_load (h : Holds place tables disk) {path : String} (hpath : Leads path place disk) :
    (File.load path).run disk = (Handle.ofTables path (.file place) tables, disk) := by
  show File.load path disk = _
  simp only [File.load, hpath.holds, hpath.locate, h.database_eq, openAt_eq, if_true]

end Holds

/-! ## §3. Operations through other handles. -/

section Frame

variable {place : Place}

/-- A database that is put elsewhere leaves the file alone and stays elsewhere. -/
theorem put_elsewhere {store : Store} (hstore : store ≠ .file place) (database : Database) :
    DiskM.Spares place (File.put store database) fun after => after ≠ .file place := by
  intro disk
  -- either the database stays in no file, or its file is another one
  cases store with
  | alone old => exact ⟨rfl, fun after heq => Except.ok.inj heq ▸ by simp⟩
  | file other =>
    have hne : other ≠ place := fun heq => hstore (congrArg Store.file heq)
    show (if File.hasRoomForJournal other then _ else _ : Except Fault Store × Disk).2.lookup _ = _
      ∧ ∀ after, (if File.hasRoomForJournal other then _ else _ : Except Fault Store × Disk).1
        = .ok after → _
    split
    · exact ⟨Disk.lookup_put_ne disk hne _, fun after heq => Except.ok.inj heq ▸ hstore⟩
    · exact ⟨rfl, fun after heq => absurd heq (by simp)⟩

theorem putTables_elsewhere {store : Store} (hstore : store ≠ .file place) (tables : Tables) :
    DiskM.Spares place (File.putTables store tables) fun after => after ≠ .file place := by
  unfold File.putTables
  refine .bind .get fun disk _ => ?_
  refine .bind (.lift fun _ _ => trivial) fun database _ => ?_
  exact put_elsewhere hstore _

/-- Adding records does not move a handle. -/
theorem Handle.store_of_add {handle : Handle} {records : List Record} {tables : Tables}
    {added : List RecordId × Handle × Tables} (h : handle.add records tables = .ok added) :
    added.2.1.store = handle.store := by
  unfold Handle.add at h
  split at h
  · exact absurd h (by simp)
  · rw [← Except.ok.inj h]

/-- Records that are added elsewhere leave the file alone, and the handle stays elsewhere. -/
theorem add_elsewhere {handle : Handle} (hstore : handle.store ≠ .file place)
    (records : List Record) :
    DiskM.Spares place (File.add handle records) fun added => added.2.store ≠ .file place := by
  -- step by step, as the action is written; only the step that puts the tables writes
  unfold File.add
  refine .bind (.lift fun _ _ => trivial) fun _ _ => ?_
  refine .bind .get fun disk _ => ?_
  refine .bind (.lift fun _ _ => trivial) fun tables _ => ?_
  refine .bind (.lift fun added => Handle.store_of_add) fun added hsame => ?_
  refine .bind (putTables_elsewhere (by rw [hsame]; exact hstore) _) fun store hother => ?_
  exact .pure hother

/-- Growth elsewhere leaves the file alone, and the handle stays elsewhere. -/
theorem grow_elsewhere {handle : Handle} (hstore : handle.store ≠ .file place) (extra : UInt64) :
    DiskM.Spares place (File.grow handle extra) fun after => after.store ≠ .file place := by
  unfold File.grow
  refine .bind .get fun disk _ => ?_
  refine .bind (.lift fun _ _ => trivial) fun tables _ => ?_
  refine .bind (putTables_elsewhere hstore _) fun store hother => ?_
  exact .pure hother

end Frame

/-! ## §4. Opening and creating. -/

section Opening

/-- An outcome that is no failure has none before it. -/
theorem bind_eq_ok {ε α β : Type} {outcome : Except ε α} {next : α → Except ε β} {b : β}
    (h : outcome >>= next = .ok b) : ∃ a, outcome = .ok a ∧ next a = .ok b := by
  cases outcome with
  | error fault => exact absurd h (by simp [bind, Except.bind])
  | ok a => exact ⟨a, rfl, h⟩

theorem map_eq_ok {ε α β : Type} {outcome : Except ε α} {f : α → β} {b : β}
    (h : outcome.map f = .ok b) : ∃ a, outcome = .ok a ∧ f a = b := by
  cases outcome with
  | error fault => exact absurd h (by simp [Except.map])
  | ok a => exact ⟨a, rfl, Except.ok.inj h⟩

variable {place : Place} {tables : Tables} {disk : Disk}

/-- What it takes to go to a database: it is in no file, or its file is made sure to be there. -/
theorem locate_eq_ok {access : Access} {path : String} {store : Store} {after : Disk}
    (h : File.locate access path disk = .ok (store, after)) :
    (store = .alone {} ∧ after = disk)
      ∨ ∃ place, store = .file place ∧ disk.touch place = .ok after := by
  unfold File.locate at h
  split at h
  · exact absurd h (by simp)
  · obtain ⟨rfl, rfl⟩ := Prod.mk.inj (Except.ok.inj h)
    exact .inl ⟨rfl, rfl⟩
  · split at h
    · exact absurd h (by simp)
    next other _ =>
      split at h
      · exact absurd h (by simp)
      · split at h
        · exact absurd h (by simp)
        next touched htouch =>
          obtain ⟨rfl, rfl⟩ := Prod.mk.inj (Except.ok.inj h)
          exact .inr ⟨other, rfl, htouch⟩

/-- Going to a database leaves the files that are there alone. -/
theorem lookup_locate {access : Access} {path : String} {store : Store} {after : Disk}
    (hlocate : File.locate access path disk = .ok (store, after))
    (hthere : (disk.lookup place).isSome) : after.lookup place = disk.lookup place := by
  rcases locate_eq_ok hlocate with ⟨-, rfl⟩ | ⟨other, -, htouch⟩
  · rfl
  · rcases Disk.touch_eq_ok htouch with ⟨rfl, -⟩ | ⟨hnone, rfl⟩
    · rfl
    · -- a file that is created is not the one that is there
      have hne : other ≠ place := by
        intro heq
        obtain rfl := heq
        rw [hnone] at hthere
        exact absurd hthere (by simp)
      exact Disk.lookup_put_ne disk hne _

/-- What it takes for a header to describe a handle. -/
theorem ofTables_eq_ok {path : String} {store : Store} {tables : Tables} {handle : Handle} :
    Handle.ofTables path store tables = .ok handle ↔
      ∃ capacity stated permutations count, tables.readHeader capacityKey = .ok capacity
        ∧ tables.readHeader permutationsKey = .ok stated
        ∧ Handle.checkPermutations stated = .ok permutations
        ∧ tables.readHeader countKey = .ok count
        ∧ handle = ⟨path, store, capacity, permutations, count⟩ := by
  unfold Handle.ofTables
  constructor
  · intro h
    obtain ⟨capacity, hcapacity, h⟩ := bind_eq_ok h
    obtain ⟨stated, hstated, h⟩ := bind_eq_ok h
    obtain ⟨permutations, hcheck, h⟩ := bind_eq_ok h
    obtain ⟨count, hcount, h⟩ := bind_eq_ok h
    exact ⟨capacity, stated, permutations, count, hcapacity, hstated, hcheck, hcount,
      (Except.ok.inj h).symm⟩
  · intro hex
    obtain ⟨capacity, stated, permutations, count, hcapacity, hstated, hcheck, hcount, rfl⟩ := hex
    rw [hcapacity, hstated, hcount]
    show (Handle.checkPermutations stated >>= _) = _
    rw [hcheck]
    rfl

theorem store_of_openAt {path : String} {store : Store} {database : Database} {handle : Handle}
    (h : (database.openAt path store).1 = .ok handle) : handle.store = store := by
  unfold Database.openAt at h
  split at h
  · exact absurd h (by simp)
  · split at h
    · exact absurd h (by simp)
    · split at h
      · exact absurd h (by simp)
      · obtain ⟨_, _, _, _, _, _, _, _, rfl⟩ := ofTables_eq_ok.mp h
        rfl

/-- An outcome of opening leaves the file at a place alone, and a handle on it is the one that its
header describes. -/
structure Respects (place : Place) (tables : Tables) (path : String) (disk : Disk)
    (outcome : Except Fault Handle × Disk) : Prop where
  same : outcome.2.lookup place = disk.lookup place
  described : ∀ handle, outcome.1 = .ok handle → handle.store = .file place →
    Handle.ofTables path (.file place) tables = .ok handle

theorem Respects.error {path : String} {fault : Fault} {after : Disk}
    (hsame : after.lookup place = disk.lookup place) :
    Respects place tables path disk (.error fault, after) :=
  ⟨hsame, fun _ heq => absurd heq (by simp)⟩

/-- A handle on another database does not matter. -/
theorem Respects.elsewhere {path : String} {store : Store} {found : Database} {after : Disk}
    (hstore : store ≠ .file place) (hsame : after.lookup place = disk.lookup place) :
    Respects place tables path disk ((found.openAt path store).1, after) :=
  ⟨hsame, fun _ heq hat => absurd ((store_of_openAt heq).symm.trans hat) hstore⟩

/-- Opening any path leaves an index of the current form alone, and a handle on it is the one that
its header describes. -/
theorem Holds.load (h : Holds place tables disk) (path : String) :
    Respects place tables path disk ((File.load path).run disk) := by
  show Respects place tables path disk (File.load path disk)
  unfold File.load
  split
  next =>
    cases hlocate : File.locate .write path disk with
    | error fault => exact .error rfl
    | ok located =>
      obtain ⟨store, after⟩ := located
      have hsame : after.lookup place = disk.lookup place :=
        lookup_locate hlocate (by rw [h.contents]; rfl)
      dsimp only
      by_cases hstore : store = .file place
      · -- the index is of the current form, so that its tables stay as they are
        subst hstore
        have hafter : Holds place tables after := ⟨hsame.trans h.contents, h.writable⟩
        simp only [hafter.database_eq, openAt_eq, if_true]
        exact ⟨hsame, fun _ heq _ => heq⟩
      · cases hfound : File.database store after with
        | error fault => exact .error hsame
        | ok found =>
          obtain ⟨hput, -⟩ := put_elsewhere hstore (found.openAt path store).2 after
          dsimp only
          split
          · exact .elsewhere hstore hsame
          · split
            next last hrun =>
              have hlast := congrArg (fun result => Disk.lookup result.2 place) hrun
              exact .elsewhere hstore ((hlast.symm.trans hput).trans hsame)
            next last hrun =>
              have hlast := congrArg (fun result => Disk.lookup result.2 place) hrun
              exact .error ((hlast.symm.trans hput).trans hsame)
  next => exact .error rfl

/-- Where no database is, going to a place to create one finds an empty one. -/
theorem database_of_locate {path : String} {after : Disk} {database : Database}
    (hlocate : File.locate .create path disk = .ok (.file place, after))
    (hnew : ∀ old, disk.lookup place ≠ some (.database old))
    (hfound : File.database (.file place) after = .ok database) :
    database = {} ∧ Place.isAncestor place = false := by
  rcases locate_eq_ok hlocate with ⟨halone, -⟩ | ⟨other, hstore, htouch⟩
  · exact absurd halone (by simp)
  · obtain rfl := Store.file.inj hstore
    unfold File.database at hfound
    rcases Disk.touch_eq_ok htouch with ⟨rfl, node, hnode, hdirectory⟩ | ⟨hnone, rfl⟩
    · simp only [hnode] at hfound
      cases node with
      | directory => exact absurd rfl hdirectory
      | database old => exact absurd hnode (hnew old)
      | file content =>
        -- a file of a byte at most counts as empty, a longer one is refused
        change (if content.length ≤ 1 then Except.ok ({} : Database) else .error Fault.storage) = _
          at hfound
        split at hfound
        · exact ⟨(Except.ok.inj hfound).symm, Disk.isAncestor_eq_false (by rw [hnode]; simp)⟩
        · exact absurd hfound (by simp)
    · have hbelow : Place.isAncestor place = false :=
        Disk.isAncestor_eq_false (by rw [hnone]; simp)
      simp only [Disk.lookup_put disk hbelow] at hfound
      exact ⟨(Except.ok.inj hfound).symm, hbelow⟩

/-- What it takes to make a new index of the database that is there. -/
theorem found_eq_ok {path : String} {options : Options} {store : Store} {handle : Handle}
    {before after : Disk}
    (h : (File.found path options store).run before = (.ok handle, after)) :
    ∃ database begun, File.database store before = .ok database
      ∧ database.founded options.capacity options.permutations = .ok begun
      ∧ (File.put store begun).run before = (.ok handle.store, after)
      ∧ handle = .ofOptions path handle.store options := by
  simp only [File.found, DiskM.run_bind, DiskM.run_get, DiskM.run_lift, DiskM.run_pure] at h
  cases hfound : File.database store before with
  | error fault =>
    rw [hfound] at h
    exact absurd (Prod.mk.inj h).1 (by simp)
  | ok database =>
    rw [hfound] at h
    cases hbegun : database.founded options.capacity options.permutations with
    | error fault =>
      simp only [hbegun] at h
      exact absurd (Prod.mk.inj h).1 (by simp)
    | ok begun =>
      simp only [hbegun] at h
      rcases hput : (File.put store begun).run before with ⟨fault | last, disk⟩
      · rw [hput] at h
        exact absurd (Prod.mk.inj h).1 (by simp)
      · rw [hput] at h
        obtain ⟨hhandle, rfl⟩ := Prod.mk.inj h
        obtain rfl := Except.ok.inj hhandle
        exact ⟨database, begun, rfl, hbegun, hput, rfl⟩

/-- What it takes to create an index: options in range, a path that leads to nothing, and a database to
make it of. -/
theorem create_eq_ok {path : String} {options : Options} {handle : Handle} {after : Disk} :
    (File.create path options).run disk = (.ok handle, after)
      ↔ options.validate = .ok () ∧ disk.holds path = false ∧ ∃ store located,
        File.locate .create path disk = .ok (store, located)
          ∧ (File.found path options store).run located = (.ok handle, after) := by
  constructor
  · intro h
    have hrun : File.create path options disk = (.ok handle, after) := h
    unfold File.create at hrun
    split at hrun
    · exact absurd (Prod.mk.inj hrun).1 (by simp)
    next hvalid =>
      split at hrun
      · exact absurd (Prod.mk.inj hrun).1 (by simp)
      next hholds =>
        split at hrun
        · exact absurd (Prod.mk.inj hrun).1 (by simp)
        next store located hlocate =>
          exact ⟨hvalid, Bool.eq_false_iff.mpr hholds, store, located, hlocate, hrun⟩
  · rintro ⟨hvalid, hnothing, store, located, hlocate, hmade⟩
    show File.create path options disk = _
    simp only [File.create, hvalid, hnothing, hlocate, Bool.false_eq_true, if_false]
    exact hmade

/-- An index that is created where no database is has its options in its header, and no records. -/
theorem create_new {path : String} {options : Options} {handle : Handle} {after : Disk}
    (hcreate : (File.create path options).run disk = (.ok handle, after))
    (hstore : handle.store = .file place)
    (hnew : ∀ old, disk.lookup place ≠ some (.database old)) :
    options.validate = .ok () ∧ handle = .ofOptions path (.file place) options
      ∧ Holds place (newTables options) after := by
  obtain ⟨hvalid, -, store, located, hlocate, hmade⟩ := create_eq_ok.mp hcreate
  obtain ⟨database, begun, hfound, hbegun, hput, hhandle⟩ := found_eq_ok hmade
  -- the store that was located is the one that the handle is on
  have hsame : store = .file place := Decidable.byContradiction fun hother =>
    (put_elsewhere hother begun located).2 _ (by rw [hput]) hstore
  subst hsame
  obtain ⟨rfl, hbelow⟩ := database_of_locate hlocate hnew hfound
  rw [Database.founded_empty] at hbegun
  obtain rfl := Except.ok.inj hbegun
  rw [hstore] at hput hhandle
  have hplaced : (if File.hasRoomForJournal place
      then (Except.ok (Store.file place), located.put place (indexFile (newTables options)))
      else (Except.error Fault.storage, located)) = (Except.ok (Store.file place), after) :=
    hput
  split at hplaced
  next hroom =>
    obtain ⟨-, rfl⟩ := Prod.mk.inj hplaced
    exact ⟨hvalid, hhandle, Disk.lookup_put located hbelow _, hroom⟩
  next => exact absurd (Prod.mk.inj hplaced).1 (by simp)

/-- An index that is created in no file is a new one. -/
theorem create_alone {path : String} {options : Options} {handle : Handle} {database : Database}
    {after : Disk} (hcreate : (File.create path options).run disk = (.ok handle, after))
    (hstore : handle.store = .alone database) :
    options.validate = .ok () ∧ handle = .ofOptions path (.alone database) options
      ∧ database = .fresh options.capacity options.permutations := by
  obtain ⟨hvalid, -, store, located, hlocate, hmade⟩ := create_eq_ok.mp hcreate
  obtain ⟨found, begun, hfound, hbegun, hput, hhandle⟩ := found_eq_ok hmade
  rw [hstore] at hput hhandle
  refine ⟨hvalid, hhandle, ?_⟩
  rcases locate_eq_ok hlocate with ⟨rfl, -⟩ | ⟨place, rfl, -⟩
  · -- there was nothing in the store, and the new database stays in none
    obtain rfl := Except.ok.inj hfound
    rw [Database.founded_empty] at hbegun
    rw [Except.ok.inj hbegun]
    exact (Store.alone.inj (Except.ok.inj (Prod.mk.inj hput).1)).symm
  · have hplaced : (if File.hasRoomForJournal place
        then (Except.ok (Store.file place), located.put place (.database begun))
        else (Except.error Fault.storage, located)) = (Except.ok (Store.alone database), after) :=
      hput
    split at hplaced
    · exact absurd (Prod.mk.inj hplaced).1 (by simp)
    · exact absurd (Prod.mk.inj hplaced).1 (by simp)

/-- An index is created where nothing is, if the path names a file in a directory that is there. -/
theorem create_ok {path : String} {options : Options} (hvalid : options.validate = .ok ())
    (hnothing : disk.holds path = false)
    (hlocator : Locator.ofPath? .create path = some (.file path true))
    (hspelled : disk.spelled path = .ok place) (hnone : disk.lookup place = none)
    (habove : disk.lookup place.dropLast = some .directory)
    (hroom : File.hasRoomForJournal place = true) :
    (File.create path options).run disk
      = (.ok (.ofOptions path (.file place) options),
        (disk.put place (.file [])).put place (indexFile (newTables options))) := by
  have hlocate : File.locate .create path disk = .ok (.file place, disk.put place (.file [])) := by
    have htouch : disk.touch place = .ok (disk.put place (.file [])) := by
      simp only [Disk.touch, hnone, habove, if_true]
    simp only [File.locate, hlocator, hspelled, htouch, Bool.not_true, Bool.and_false,
      Bool.false_eq_true, if_false]
  have hbelow : Place.isAncestor place = false :=
    Disk.isAncestor_eq_false (by rw [hnone]; simp)
  have hempty : File.database (.file place) (disk.put place (.file [])) = .ok {} := by
    simp only [File.database, Disk.lookup_put disk hbelow]
    rfl
  have hfound : (File.found path options (.file place)).run (disk.put place (.file []))
      = (.ok (.ofOptions path (.file place) options),
        (disk.put place (.file [])).put place (indexFile (newTables options))) := by
    simp only [File.found, DiskM.run_bind, DiskM.run_get, DiskM.run_lift, DiskM.run_pure, hempty,
      Database.founded_empty, run_put hroom]
    rfl
  exact create_eq_ok.mpr ⟨hvalid, hnothing, _, _, hlocate, hfound⟩

/-- A path that names the file leads to it. -/
theorem Holds.leads (h : Holds place tables disk) {path : String}
    (hlocator : Locator.ofPath? .write path = some (.file path false))
    (hlocate : disk.locate path = .ok place) (hspelled : disk.spelled path = .ok place) :
    Leads path place disk := by
  have hsome : (disk.lookup place).isNone = false := by rw [h.contents]; rfl
  constructor
  · simp only [Disk.holds, Disk.node, hlocate, h.contents]
  · simp only [File.locate, hlocator, hspelled, h.touch_eq, hsome, Bool.false_and, Bool.false_eq_true,
      if_false]

end Opening

end Flowprint.Index
