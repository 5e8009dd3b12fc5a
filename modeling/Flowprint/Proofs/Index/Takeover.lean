/-
  Flowprint.Proofs.Index.Takeover
  ────────────────────────────────
  Creating an index where one is already.

  Before an index is created it is asked whether its path leads to anything.  The database is then
  looked for where the path spells it to be, which need not be where the path leads: a slash behind the
  name of a file, or a step up from a directory that is not there, leads nowhere, and the spelling drops
  it.  So an index that is there can be taken over.  It keeps its records, entries and count, gets the
  new options into its header, and the handle counts no records.

  Main statements:

      Holds.create_over     what is left of an index that is taken over
      Holds.create_cases    an index is taken over, or left alone
      Holds.create_slash    a slash behind its path is enough to take an index over
      nothing_of_create     an index is not taken over through a path that leads to it
      locate_in_directory   a path leads to the file that it names in a directory
-/
import Flowprint.Proofs.Index.Backing
import Flowprint.Proofs.Index.Operation
import Flowprint.Proofs.Place

namespace Flowprint.Index

/-! ## §1. Tables with other options. -/

/-- The tables with the options of a new index in their header; all else is as it was. -/
def Tables.retitled (options : Options) (tables : Tables) : Tables :=
  (tables.setHeader capacityKey options.capacity).setHeader permutationsKey
    options.permutations.toUInt64

/-- An index of the current form gets other options when it is made a new one. -/
theorem founded_current (options : Options) (tables : Tables) :
    Database.founded options.capacity options.permutations
        ⟨applicationMark, currentSchema, some tables⟩
      = .ok ⟨applicationMark, currentSchema, some (tables.retitled options)⟩ := by
  rfl

theorem Backed.retitled {tables : Tables} (h : Backed tables) (options : Options) :
    Backed (tables.retitled options) :=
  (h.setHeader _ _).setHeader _ _

theorem Filed.retitled {permutations : Nat} {stored : List Record} {tables : Tables}
    (h : Filed permutations stored tables) (options : Options) :
    Filed permutations stored (tables.retitled options) :=
  (h.setHeader _ _).setHeader _ _

/-- The count of the records is no option. -/
theorem readHeader_count_retitled (options : Options) (tables : Tables) :
    (tables.retitled options).readHeader countKey = tables.readHeader countKey :=
  (readHeader_setHeader_ne _ (by decide) _).trans (readHeader_setHeader_ne _ (by decide) _)

/-! ## §2. What becomes of an index that is there. -/

section Takeover

variable {place : Place} {tables : Tables} {disk : Disk} {path : String} {options : Options}

/-- A new index elsewhere leaves the file alone, and its handle is elsewhere. -/
theorem found_elsewhere {store : Store} (hstore : store ≠ .file place) (path : String)
    (options : Options) :
    DiskM.Spares place (File.found path options store) fun handle => handle.store ≠ .file place := by
  unfold File.found
  refine .bind .get fun disk _ => ?_
  refine .bind (.lift fun _ _ => trivial) fun database _ => ?_
  refine .bind (.lift fun _ _ => trivial) fun begun _ => ?_
  refine .bind (put_elsewhere hstore begun) fun after hother => ?_
  exact .pure hother

/-- An index that is there is made a new one: its records and entries stay, and so does its count,
but its handle counts none. -/
theorem Holds.run_found (h : Holds place tables disk) (path : String) (options : Options) :
    (File.found path options (.file place)).run disk
      = (.ok (.ofOptions path (.file place) options),
        disk.put place (indexFile (tables.retitled options))) := by
  simp only [File.found, DiskM.run_bind, DiskM.run_get, DiskM.run_lift, DiskM.run_pure,
    h.database_eq, founded_current, run_put h.writable]
  rfl

/-- An index is taken over through a path that leads to nothing and spells its place. -/
theorem Holds.create_over (h : Holds place tables disk) (hvalid : options.validate = .ok ())
    (hnothing : disk.holds path = false)
    (hlocate : File.locate .create path disk = .ok (.file place, disk)) :
    (File.create path options).run disk
      = (.ok (.ofOptions path (.file place) options),
        disk.put place (indexFile (tables.retitled options))) :=
  create_eq_ok.mpr ⟨hvalid, hnothing, _, _, hlocate, h.run_found path options⟩

/-- Creating an index, at any path and with any outcome, leaves an index that is there alone, or takes
it over. -/
theorem Holds.create_cases (h : Holds place tables disk) (path : String) (options : Options) :
    (((File.create path options).run disk).2.lookup place = disk.lookup place
        ∧ ∀ handle, ((File.create path options).run disk).1 = .ok handle →
          handle.store ≠ .file place)
      ∨ options.validate = .ok () ∧ (File.create path options).run disk
        = (.ok (.ofOptions path (.file place) options),
          disk.put place (indexFile (tables.retitled options))) := by
  show ((File.create path options disk).2.lookup place = disk.lookup place
        ∧ ∀ handle, (File.create path options disk).1 = .ok handle → handle.store ≠ .file place)
      ∨ options.validate = .ok () ∧ File.create path options disk = _
  -- a failure in front of the first write changes nothing
  have hfails : ∀ fault : Fault, disk.lookup place = disk.lookup place
      ∧ ∀ handle : Handle, Except.error fault = Except.ok handle → handle.store ≠ .file place :=
    fun _ => ⟨rfl, fun _ heq => absurd heq (by simp)⟩
  unfold File.create
  split
  next fault _ => exact .inl (hfails fault)
  next hvalid =>
    split
    next => exact .inl (hfails _)
    next =>
      split
      next fault _ => exact .inl (hfails fault)
      next store located hlocate =>
        by_cases hstore : store = .file place
        · -- the file is there, so that going to it does not create it
          subst hstore
          obtain rfl : located = disk := by
            rcases locate_eq_ok hlocate with ⟨halone, -⟩ | ⟨other, hother, htouch⟩
            · exact absurd halone (by simp)
            · obtain rfl := Store.file.inj hother
              rcases Disk.touch_eq_ok htouch with ⟨hsame, -⟩ | ⟨hnone, -⟩
              · exact hsame
              · exact absurd (hnone.symm.trans h.contents) (by simp)
          exact .inr ⟨hvalid, h.run_found path options⟩
        · obtain ⟨hsame, hgives⟩ := found_elsewhere hstore path options located
          have hlocated : located.lookup place = disk.lookup place :=
            lookup_locate hlocate (by rw [h.contents]; rfl)
          exact .inl ⟨hsame.trans hlocated, hgives⟩

/-! ## §3. Paths that lead nowhere and spell a place. -/

/-- A step that leads on is spelled the same. -/
theorem spellStep_of_step {directory next : Place} {name : String}
    (h : disk.step directory name = .ok next) : disk.spellStep directory name = .ok next := by
  obtain ⟨-, -, rfl⟩ := Disk.step_eq_ok.mp h
  unfold Disk.spellStep
  split
  · rfl
  · rw [h]

/-- A path that leads to a place spells it. -/
theorem foldlM_spellStep_of_step {names : List String} {directory last : Place}
    (h : names.foldlM disk.step directory = .ok last) :
    names.foldlM disk.spellStep directory = .ok last := by
  induction names generalizing directory with
  | nil => exact h
  | cons name names ih =>
    obtain ⟨next, hstep, hrest⟩ := Disk.foldlM_step_cons.mp h
    rw [List.foldlM_cons, spellStep_of_step hstep]
    exact ih hrest

/-- With a slash behind it a path spells the place to which it leads without. -/
theorem spelled_slash (h : disk.locate path = .ok place) :
    disk.spelled (path ++ "/") = .ok place := by
  obtain ⟨-, hsome, -, hsteps⟩ := Disk.locate_eq_ok.mp h
  rw [Disk.spelled, Place.steps_slash hsome, List.foldlM_append, foldlM_spellStep_of_step hsteps]
  rfl

/-- With a slash behind it the path of a file leads nowhere: there is no step from a file. -/
theorem holds_slash (h : disk.locate path = .ok place)
    (hfile : disk.lookup place ≠ some .directory) : disk.holds (path ++ "/") = false := by
  obtain ⟨-, hsome, -, hsteps⟩ := Disk.locate_eq_ok.mp h
  have hnone : ∀ last, disk.locate (path ++ "/") ≠ .ok last := by
    intro last hlocate
    obtain ⟨-, -, -, hlonger⟩ := Disk.locate_eq_ok.mp hlocate
    rw [Place.steps_slash hsome] at hlonger
    obtain ⟨other, hother, hstep⟩ := Disk.foldlM_step_concat.mp hlonger
    obtain rfl := Except.ok.inj (hsteps.symm.trans hother)
    exact hfile (Disk.step_eq_ok.mp hstep).1
  unfold Disk.holds Disk.node
  cases hlocate : disk.locate (path ++ "/") with
  | error fault => rfl
  | ok last => exact absurd hlocate (hnone last)

/-- An index is taken over through its path with a slash behind it. -/
theorem Holds.create_slash (h : Holds place tables disk) (hvalid : options.validate = .ok ())
    (hlocate : disk.locate path = .ok place)
    (hlocator : Locator.ofPath? .create (path ++ "/") = some (.file (path ++ "/") true)) :
    (File.create (path ++ "/") options).run disk
      = (.ok (.ofOptions (path ++ "/") (.file place) options),
        disk.put place (indexFile (tables.retitled options))) := by
  refine h.create_over hvalid (holds_slash hlocate (by rw [h.contents]; simp [indexFile])) ?_
  simp only [File.locate, hlocator, spelled_slash hlocate, h.touch_eq, Bool.not_true, Bool.and_false,
    Bool.false_eq_true, if_false]

/-! ## §4. Paths that lead to the place that they spell. -/

/-- Where a path leads to is nothing before an index is created through it. -/
theorem nothing_of_create {handle : Handle} {after : Disk}
    (hcreate : (File.create path options).run disk = (.ok handle, after))
    (hlocate : disk.locate path = .ok place) : disk.lookup place = none := by
  obtain ⟨-, hnothing, -⟩ := create_eq_ok.mp hcreate
  simp only [Disk.holds, Disk.node, hlocate] at hnothing
  cases hnode : disk.lookup place with
  | none => rfl
  | some node =>
    -- the path would lead to something, and the index would not be created
    rw [hnode] at hnothing
    exact absurd hnothing (by simp)

/-- A path leads to the file that its last step names, whether it is there or not, if the steps before
lead to a directory. -/
theorem locate_in_directory {front : List String} {name : String} {directory : Place}
    (hchars : path.contains '\x00' = false) (hsome : path ≠ "")
    (hlength : Text.utf8Length path.toList ≤ Place.maxPathBytes)
    (hsteps : Place.steps path = front ++ [name])
    (hfront : front.foldlM disk.step [] = .ok directory)
    (hdirectory : disk.lookup directory = some .directory)
    (hname : Place.isTooLong name = false) :
    disk.locate path = .ok (Place.step directory name) := by
  refine Disk.locate_eq_ok.mpr ⟨hchars, hsome, hlength, ?_⟩
  rw [hsteps]
  exact Disk.foldlM_step_concat.mpr
    ⟨directory, hfront, Disk.step_eq_ok.mpr ⟨hdirectory, hname, rfl⟩⟩

end Takeover

end Flowprint.Index
