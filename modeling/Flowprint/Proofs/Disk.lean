/-
  Flowprint.Proofs.Disk
  ────────────────────────────────
  Actions on a disk, run step by step.

  An action is a function from a disk to an outcome and a disk.  The lemmas give the run of each way
  to build an action, so that an action written in steps is read off as nested cases.  `Spares` says
  that an action leaves a place alone; it follows the same steps.

  Main statements:

      DiskM.run_bind      a failing step ends an action, and its disk stays
      DiskM.Spares.bind   steps that leave a place alone make an action that does
      Disk.touch_eq_ok    a file that must be there was there, or is created
      Disk.locate_keeps   a path leads to the same place as long as no directory goes away
      Disk.node_write     a path leads to what was written at it
      Disk.node_rename    a file that is moved is found where it was moved to
      Disk.readText_put_database   no text changes with a database
-/
import Flowprint.Disk

namespace Flowprint

open Std

namespace DiskM

variable {ε α β : Type}

theorem run_pure (a : α) (disk : Disk) : (pure a : DiskM ε α).run disk = (.ok a, disk) := rfl

theorem run_get (disk : Disk) : (get : DiskM ε Disk).run disk = (.ok disk, disk) := rfl

theorem run_set (new disk : Disk) : (set new : DiskM ε PUnit).run disk = (.ok (), new) := rfl

/-- What may fail without a look at the disk leaves the disk alone. -/
theorem run_lift (outcome : Except ε α) (disk : Disk) :
    (liftM outcome : DiskM ε α).run disk = (outcome, disk) := rfl

/-- What is read leaves the disk alone. -/
theorem run_reading (read : Disk → Except ε α) (disk : Disk) :
    (DiskM.reading read).run disk = (read disk, disk) := rfl

theorem run_bind (action : DiskM ε α) (next : α → DiskM ε β) (disk : Disk) :
    (action >>= next).run disk =
      match action.run disk with
      | (.ok a, disk) => (next a).run disk
      | (.error fault, disk) => (.error fault, disk) := by
  show (match action disk with
    | (outcome, disk) => ExceptT.bindCont next outcome disk) = _
  show _ = match action disk with
    | (.ok a, disk) => (next a).run disk
    | (.error fault, disk) => (.error fault, disk)
  rcases action disk with ⟨_ | _, _⟩ <;> rfl

/-- An action leaves what is at a place as it is, and what it gives has a property. -/
def Spares (place : Place) (action : DiskM ε α) (gives : α → Prop) : Prop :=
  ∀ disk, (action.run disk).2.lookup place = disk.lookup place
    ∧ ∀ a, (action.run disk).1 = .ok a → gives a

namespace Spares

variable {place : Place}

theorem pure {a : α} {gives : α → Prop} (h : gives a) :
    Spares place (Pure.pure a : DiskM ε α) gives :=
  fun _ => ⟨rfl, fun _ heq => Except.ok.inj heq ▸ h⟩

theorem get : Spares place (MonadState.get : DiskM ε Disk) fun _ => True :=
  fun _ => ⟨rfl, fun _ _ => trivial⟩

theorem lift {outcome : Except ε α} {gives : α → Prop} (h : ∀ a, outcome = .ok a → gives a) :
    Spares place (liftM outcome : DiskM ε α) gives :=
  fun _ => ⟨rfl, h⟩

theorem bind {action : DiskM ε α} {next : α → DiskM ε β} {gives : α → Prop} {result : β → Prop}
    (haction : Spares place action gives)
    (hnext : ∀ a, gives a → Spares place (next a) result) :
    Spares place (action >>= next) result := by
  intro disk
  obtain ⟨hplace, hgives⟩ := haction disk
  rw [run_bind]
  rcases hrun : action.run disk with ⟨fault | a, after⟩
  · rw [hrun] at hplace
    exact ⟨hplace, fun b heq => absurd heq (by simp)⟩
  · rw [hrun] at hplace hgives
    obtain ⟨hlast, hfinally⟩ := hnext a (hgives a rfl) after
    exact ⟨hlast.trans hplace, hfinally⟩

end Spares

end DiskM

namespace Disk

variable {disk after : Disk} {place : Place}

/-- Where no directory is, is no place above the working directory. -/
theorem isAncestor_eq_false (h : disk.lookup place ≠ some .directory) :
    Place.isAncestor place = false := by
  cases hup : Place.isAncestor place with
  | false => rfl
  | true => exact absurd (by rw [lookup, if_pos hup]) h

/-- To put what is at a place changes nothing. -/
theorem put_there {node : FileNode} (h : disk.lookup place = some node)
    (hfile : node ≠ .directory) : disk.put place node = disk := by
  have hbelow : Place.isAncestor place = false :=
    isAncestor_eq_false (by rw [h]; simpa using hfile)
  rw [lookup, hbelow] at h
  have hnodes : disk.nodes.insert place node = disk.nodes := by
    apply ExtTreeMap.ext_getElem?
    intro other
    rw [ExtTreeMap.getElem?_insert]
    split
    next heq => rw [← Std.compare_eq_iff_eq.mp heq]; exact h.symm
    next => rfl
  rw [put, hnodes]

/-- What it takes to make sure that a file is there: it was there, or it is created. -/
theorem touch_eq_ok (h : disk.touch place = .ok after) :
    (after = disk ∧ ∃ node, disk.lookup place = some node ∧ node ≠ .directory)
      ∨ disk.lookup place = none ∧ after = disk.put place (.file []) := by
  unfold touch at h
  split at h
  · exact absurd h (by simp)
  next node hdirectory hnode =>
    exact .inl ⟨(Except.ok.inj h).symm, node, hnode, fun heq => hdirectory heq⟩
  next hnone =>
    split at h
    · exact .inr ⟨hnone, (Except.ok.inj h).symm⟩
    · exact absurd h (by simp)

/-! ### Paths -/

/-- Every directory of a disk is a directory of another. -/
def KeepsDirectories (disk after : Disk) : Prop :=
  ∀ place, disk.lookup place = some .directory → after.lookup place = some .directory

/-- What it takes for a step: it leaves a directory, and its name is not too long. -/
theorem step_eq_ok {next : Place} {name : String} : disk.step place name = .ok next ↔
    disk.lookup place = some .directory ∧ Place.isTooLong name = false
      ∧ next = Place.step place name := by
  unfold step
  constructor
  · intro h
    split at h
    · exact absurd h (by simp)
    next hdirectory =>
      split at h
      · exact absurd h (by simp)
      next hlong => exact ⟨hdirectory, Bool.eq_false_iff.mpr hlong, (Except.ok.inj h).symm⟩
    · exact absurd h (by simp)
  · rintro ⟨hdirectory, hlong, rfl⟩
    rw [hdirectory]
    exact if_neg (Bool.eq_false_iff.mp hlong)

/-- Steps stay as long as no directory goes away. -/
theorem step_keeps (h : disk.KeepsDirectories after) {next : Place} {name : String}
    (hstep : disk.step place name = .ok next) : after.step place name = .ok next := by
  obtain ⟨hdirectory, hlong, hnext⟩ := step_eq_ok.mp hstep
  exact step_eq_ok.mpr ⟨h place hdirectory, hlong, hnext⟩

/-- What it takes for a row of steps: each leads on. -/
theorem foldlM_step_cons {names : List String} {name : String} {start last : Place} :
    (name :: names).foldlM disk.step start = .ok last ↔
      ∃ next, disk.step start name = .ok next ∧ names.foldlM disk.step next = .ok last := by
  rw [List.foldlM_cons]
  cases disk.step start name with
  | error fault => simp [bind, Except.bind]
  | ok next => simp [bind, Except.bind]

theorem foldlM_step_concat {names : List String} {name : String} {start last : Place} :
    (names ++ [name]).foldlM disk.step start = .ok last ↔
      ∃ next, names.foldlM disk.step start = .ok next ∧ disk.step next name = .ok last := by
  induction names generalizing start with
  | nil =>
    rw [List.nil_append, foldlM_step_cons]
    simp [pure, Except.pure]
  | cons first names ih =>
    rw [List.cons_append, foldlM_step_cons]
    simp only [ih, foldlM_step_cons]
    constructor
    · rintro ⟨next, hfirst, directory, hnames, hlast⟩
      exact ⟨directory, ⟨next, hfirst, hnames⟩, hlast⟩
    · rintro ⟨directory, ⟨next, hfirst, hnames⟩, hlast⟩
      exact ⟨next, hfirst, directory, hnames, hlast⟩

theorem foldlM_step_keeps (h : disk.KeepsDirectories after) {names : List String}
    {start last : Place} (hsteps : names.foldlM disk.step start = .ok last) :
    names.foldlM after.step start = .ok last := by
  induction names generalizing start with
  | nil => exact hsteps
  | cons name names ih =>
    obtain ⟨next, hstep, hrest⟩ := foldlM_step_cons.mp hsteps
    exact foldlM_step_cons.mpr ⟨next, step_keeps h hstep, ih hrest⟩

/-- What it takes for a path to lead to a place. -/
theorem locate_eq_ok {path : String} :
    disk.locate path = .ok place ↔ path.contains '\x00' = false ∧ path ≠ ""
      ∧ Text.utf8Length path.toList ≤ Place.maxPathBytes
      ∧ (Place.steps path).foldlM disk.step [] = .ok place := by
  unfold locate
  rw [ne_eq, ← String.isEmpty_iff]
  constructor
  · intro h
    split at h
    · exact absurd h (by simp)
    · split at h
      · exact absurd h (by simp)
      · split at h
        · exact absurd h (by simp)
        next hzero hsome hlong =>
          exact ⟨Bool.eq_false_iff.mpr hzero, hsome, Nat.le_of_not_lt hlong, h⟩
  · rintro ⟨hzero, hsome, hlong, hsteps⟩
    rw [hzero, if_neg Bool.false_ne_true, if_neg hsome, if_neg (Nat.not_lt.mpr hlong)]
    exact hsteps

/-- A path leads to the same place as long as no directory goes away. -/
theorem locate_keeps (h : disk.KeepsDirectories after) {path : String}
    (hlocate : disk.locate path = .ok place) : after.locate path = .ok place := by
  obtain ⟨hzero, hsome, hlong, hsteps⟩ := locate_eq_ok.mp hlocate
  exact locate_eq_ok.mpr ⟨hzero, hsome, hlong, foldlM_step_keeps h hsteps⟩

theorem keepsDirectories_put (hplace : disk.lookup place ≠ some .directory) (node : FileNode) :
    disk.KeepsDirectories (disk.put place node) := by
  intro other hother
  have hne : place ≠ other := by
    rintro rfl
    exact hplace hother
  rw [lookup_put_ne disk hne, hother]

theorem locate_put {path : String} {last : Place} (hplace : disk.lookup place ≠ some .directory)
    (node : FileNode) (h : disk.locate path = .ok last) :
    (disk.put place node).locate path = .ok last :=
  locate_keeps (keepsDirectories_put hplace node) h

/-! ### Files -/

/-- What it takes to write a file: its path leads to a place where no directory is. -/
theorem write_eq_ok {path : String} {node : FileNode} : disk.write path node = .ok after ↔
    ∃ place, disk.locate path = .ok place ∧ disk.lookup place ≠ some .directory
      ∧ after = disk.put place node := by
  unfold write
  constructor
  · intro h
    split at h
    · exact absurd h (by simp)
    next place hlocate =>
      split at h
      · exact absurd h (by simp)
      next hplace => exact ⟨place, hlocate, hplace, (Except.ok.inj h).symm⟩
  · rintro ⟨place, hlocate, hplace, rfl⟩
    rw [hlocate]
    exact if_neg hplace

/-- A path leads to what was written at it. -/
theorem node_write {path : String} {node : FileNode} (h : disk.write path node = .ok after) :
    after.node path = .ok node := by
  obtain ⟨place, hlocate, hplace, rfl⟩ := write_eq_ok.mp h
  rw [Disk.node, locate_put hplace node hlocate]
  dsimp only
  rw [lookup_put disk (isAncestor_eq_false hplace)]

/-- A file that is moved is found where it was moved to. -/
theorem node_rename {source target : String} {node : FileNode} (hnode : disk.node source = .ok node)
    (h : disk.rename source target = .ok after) : after.node target = .ok node := by
  unfold rename at h
  rw [hnode] at h
  split at h
  next heq =>
    obtain rfl := Except.ok.inj heq
    exact node_write h
  · exact absurd h (by simp)
  · exact absurd h (by simp)

/-- The disk without what is at a place. -/
def remove (disk : Disk) (place : Place) : Disk :=
  ⟨disk.nodes.erase place⟩

theorem lookup_remove (h : Place.isAncestor place = false) :
    (disk.remove place).lookup place = none := by
  simp [lookup, remove, h]

theorem lookup_remove_ne {other : Place} (h : place ≠ other) :
    (disk.remove place).lookup other = disk.lookup other := by
  simp [lookup, remove, ExtTreeMap.getElem?_erase, h]

/-- A path without a place leads nowhere, one with a place to what is there. -/
theorem node_of_locate {path : String} (h : disk.locate path = .ok place) :
    disk.node path = match disk.lookup place with
      | none => .error .notFound
      | some node => .ok node := by
  cases hlookup : disk.lookup place with
  | none => simp only [node, h, hlookup]
  | some found => simp only [node, h, hlookup]

/-! ### Databases -/

/-- A database is no text. -/
theorem readText_database {path : String} {contents : Index.Database}
    (h : disk.node path = .ok (.database contents)) : disk.readText path = .error .notText := by
  -- the mark of a database file begins no text
  have hnone : Text.ofBytes? (Index.Storage.encode contents) = none := Text.ofBytes?_ones _
  simp only [readText, readBytes, h, hnone]

/-! A database that changes leaves everything that is no database alone. -/

section PutDatabase

variable {old : Index.Database} (new : Index.Database)

theorem step_put_database (hthere : disk.lookup place = some (.database old)) :
    (disk.put place (.database new)).step = disk.step := by
  have hbelow : Place.isAncestor place = false := isAncestor_eq_false (by rw [hthere]; simp)
  funext other name
  unfold step
  by_cases heq : place = other
  · rw [← heq, lookup_put disk hbelow, hthere]
  · rw [lookup_put_ne disk heq]

/-- No path leads elsewhere. -/
theorem locate_put_database (hthere : disk.lookup place = some (.database old)) :
    (disk.put place (.database new)).locate = disk.locate := by
  funext path
  rw [locate, step_put_database new hthere]
  rfl

theorem spelled_put_database (hthere : disk.lookup place = some (.database old)) :
    (disk.put place (.database new)).spelled = disk.spelled := by
  have hspell : (disk.put place (.database new)).spellStep = disk.spellStep := by
    funext other name
    rw [spellStep, step_put_database new hthere]
    rfl
  funext path
  rw [spelled, hspell]
  rfl

/-- What a path leads to changes only if it is the database. -/
theorem node_put_database (path : String) (hthere : disk.lookup place = some (.database old)) :
    (disk.put place (.database new)).node path = disk.node path
      ∨ disk.node path = .ok (.database old)
        ∧ (disk.put place (.database new)).node path = .ok (.database new) := by
  cases hlocate : disk.locate path with
  | error fault =>
    left
    rw [node, node, locate_put_database new hthere, hlocate]
  | ok other =>
    have hafter : (disk.put place (.database new)).locate path = .ok other := by
      rw [locate_put_database new hthere, hlocate]
    rw [node_of_locate hlocate, node_of_locate hafter]
    by_cases heq : place = other
    · right
      subst heq
      rw [hthere, lookup_put disk (isAncestor_eq_false (by rw [hthere]; simp))]
      exact ⟨rfl, rfl⟩
    · left
      rw [lookup_put_ne disk heq]

theorem holds_put_database (path : String) (hthere : disk.lookup place = some (.database old)) :
    (disk.put place (.database new)).holds path = disk.holds path := by
  unfold holds
  rcases node_put_database new path hthere with hsame | ⟨hold, hnew⟩
  · rw [hsame]
  · rw [hold, hnew]

/-- No text changes with a database. -/
theorem readText_put_database (path : String) (hthere : disk.lookup place = some (.database old)) :
    (disk.put place (.database new)).readText path = disk.readText path := by
  rcases node_put_database new path hthere with hsame | ⟨hold, hnew⟩
  · rw [readText, readText, readBytes, readBytes, hsame]
  · rw [readText_database hold, readText_database hnew]

end PutDatabase

end Disk

end Flowprint
