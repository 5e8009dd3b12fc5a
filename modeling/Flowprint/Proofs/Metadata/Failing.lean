/-
  Flowprint.Proofs.Metadata.Failing
  ────────────────────────────────
  Saves that fail.

  Until the file beside is moved over it, the file of a store is only read.  So it stays as it is,
  whatever a save fails at, and all that can be left behind is the file beside.  The store itself takes
  over what is in its file as soon as that is read, before anything is written: a save that fails later
  leaves it with entries that are not its own, and the next one writes them.

  Main statements:

      leftover_replaceFileOn    what a failed replacement leaves behind
      override_eq_self_iff      when there is nothing to take over
      failed_save               what a failed save leaves of the file and of the store
      retry_restores            what the next save makes of it
-/
import Flowprint.Metadata.Device
import Flowprint.Proofs.Metadata.Replacing
import Flowprint.Proofs.Metadata.Saving

namespace Flowprint.MetadataStore

open Std

/-! ## §1. The file. -/

section Files

variable {path text : String} {disk after : Disk}

theorem leftover_leaveBeside (trouble : Trouble) (path : String) (content : List UInt8)
    (disk : Disk) : Leftover path disk (leaveBeside trouble path content disk).2 := by
  unfold leaveBeside
  split
  · exact .nothing
  next after hwrite =>
    obtain ⟨place, hbeside, hplace, rfl⟩ := Disk.write_eq_ok.mp hwrite
    exact .beside hbeside hplace

/-- Whatever a replacement fails at, at most something beside the file is left behind. -/
theorem leftover_replaceFileOn {trouble : Option Trouble} {fault : SaveFault}
    (h : replaceFileOn trouble path text disk = (.error fault, after)) :
    Leftover path disk after := by
  unfold replaceFileOn at h
  split at h
  next => exact (Prod.mk.inj h).2 ▸ .nothing
  next => exact (Prod.mk.inj h).2 ▸ leftover_leaveBeside _ _ _ _
  next => exact (Prod.mk.inj h).2 ▸ leftover_leaveBeside _ _ _ _
  next =>
    -- the device works, so the disk refused
    rcases hreplace : replaceFile path text disk with ⟨cause | _, left⟩
    · rw [hreplace] at h
      exact (Prod.mk.inj h).2 ▸ leftover_replaceFile hreplace
    · rw [hreplace] at h
      exact absurd (Prod.mk.inj h).1 (by simp [Except.mapError])

end Files

/-! ## §2. The store. -/

/-- There is nothing to take over if every key is there already. -/
theorem override_eq_self_iff {found entries : Annotations} :
    override found entries = entries ↔ ∀ key, key ∈ found → key ∈ entries := by
  constructor
  · intro hsame key hkey
    rw [ExtTreeMap.mem_iff_isSome_getElem?] at hkey ⊢
    rw [← hsame, getElem?_override, Option.isSome_or, hkey, Bool.or_true]
  · intro hthere
    refine ExtTreeMap.ext_getElem? fun {key} => ?_
    rw [getElem?_override]
    cases hown : entries[key]? with
    | some metadata => rfl
    | none =>
      have hnot : key ∉ found := fun hkey =>
        absurd (ExtTreeMap.mem_iff_isSome_getElem?.mp (hthere key hkey)) (by simp [hown])
      rw [ExtTreeMap.getElem?_eq_none hnot]
      rfl

section Failing

variable {trouble : Option Trouble} {store saved : MetadataStore} {disk after : Disk}
  {fault : SaveFault}

/-- What it takes for a save to fail: the file cannot be read, or it is read and cannot be
replaced. -/
theorem saveOn_eq_error (h : store.saveOn trouble disk = (.error fault, saved, after)) :
    (readFileOn trouble store.path disk = .error fault ∧ saved = store ∧ after = disk)
      ∨ ∃ found, readFileOn trouble store.path disk = .ok found
        ∧ saved = { store with entries := override found store.entries }
        ∧ replaceFileOn trouble store.path (Annotations.render saved.entries) disk
          = (.error fault, after) := by
  unfold saveOn at h
  split at h
  next cause hread =>
    obtain ⟨hfault, hrest⟩ := Prod.mk.inj h
    obtain ⟨rfl, rfl⟩ := Prod.mk.inj hrest
    exact .inl ⟨hread.trans (congrArg _ (Except.error.inj hfault)), rfl, rfl⟩
  next found hread =>
    obtain ⟨houtcome, hrest⟩ := Prod.mk.inj h
    obtain ⟨rfl, hafter⟩ := Prod.mk.inj hrest
    exact .inr ⟨found, hread, rfl, Prod.ext houtcome hafter⟩

/-- A save that fails, by whatever trouble, leaves the file as it was, and all else on the disk but the
file beside.  If it fails because the file cannot be read, the store is as it was, too.  If it fails
later, the store has taken over what was read, and is as it was only if it had all those keys. -/
theorem failed_save (h : store.saveOn trouble disk = (.error fault, saved, after)) :
    after.node store.path = disk.node store.path
      ∧ (∀ place, disk.locate (beside store.path) ≠ .ok place →
        after.lookup place = disk.lookup place)
      ∧ (readFileOn trouble store.path disk = .error fault ∧ saved = store ∧ after = disk
        ∨ ∃ found, readFileOn trouble store.path disk = .ok found
          ∧ saved.path = store.path
          ∧ (∀ key, saved.get? key = (store.get? key).or found[key]?)
          ∧ (saved = store ↔ ∀ key, key ∈ found → key ∈ store.entries)) := by
  rcases saveOn_eq_error h with ⟨hread, rfl, rfl⟩ | ⟨found, hread, rfl, hreplace⟩
  · exact ⟨rfl, fun _ _ => rfl, .inl ⟨hread, rfl, rfl⟩⟩
  · have hleft : Leftover store.path disk after := leftover_replaceFileOn hreplace
    refine ⟨hleft.node_eq, fun _ hother => hleft.lookup_eq hother, .inr ⟨found, hread, rfl, ?_, ?_⟩⟩
    · exact getElem?_override found store.entries
    · rw [← override_eq_self_iff]
      exact ⟨fun hsame => congrArg entries hsame, fun hsame => by rw [hsame]⟩

/-- The file of others, with a directory where the file beside would be. -/
def blocked : Disk :=
  shared.put ["m.tmp"] .directory

theorem readFile_blocked : readFile "m" blocked = .ok others := by
  have hnode : blocked.node "m" = shared.node "m" := by
    rw [Disk.node, Disk.node, locate_m, locate_m]
    rfl
  rw [← readFile_shared, readFile, readFile, Disk.readText, Disk.readText, Disk.readBytes,
    Disk.readBytes, hnode]

/-- A store without entries, for a file that can be read and not replaced, has the entries of others
after a save that failed. -/
theorem failed_save_takes_over :
    (⟨"m", ∅⟩ : MetadataStore).save blocked = (.error (.file .isDirectory), ⟨"m", others⟩, blocked)
      ∧ others ≠ ∅ := by
  have hwrite : ∀ text, blocked.writeText (beside "m") text = .error .isDirectory := by
    intro text
    rw [Disk.writeText, Disk.write, locate_beside_m]
    rfl
  constructor
  · rw [save, readFile_blocked]
    dsimp only
    rw [replaceFile, hwrite]
    rfl
  · exact fun hnone => absurd (congrArg ExtTreeMap.size hnone) (by decide)

/-- The device takes three bytes of the text, and the store had none of the entries. -/
theorem failed_save_cut_short :
    ∃ saved after, (⟨"m", ∅⟩ : MetadataStore).saveOn (some (.writing 3)) shared
        = (.error (.device (.writing 3)), saved, after)
      ∧ after.node "m" = shared.node "m"
      ∧ saved.get? ⟨2, 16⟩ = some ⟨"other  name", "raw!", true⟩
      ∧ saved ≠ ⟨"m", ∅⟩ := by
  have hread : readFileOn (some (.writing 3)) "m" shared = .ok others := by
    show (readFile "m" shared).mapError SaveFault.fault = _
    rw [readFile_shared]
    rfl
  obtain ⟨after, hreplace⟩ : ∃ after,
      replaceFileOn (some (.writing 3)) "m" (Annotations.render (override others ∅)) shared
        = (.error (.device (.writing 3)), after) := by
    rw [replaceFileOn, leaveBeside, Disk.write, locate_beside_m]
    exact ⟨_, rfl⟩
  have hsave : (⟨"m", ∅⟩ : MetadataStore).saveOn (some (.writing 3)) shared
      = (.error (.device (.writing 3)), ⟨"m", override others ∅⟩, after) := by
    rw [saveOn, hread]
    dsimp only
    rw [hreplace]
  obtain ⟨hfile, -, ⟨hunread, -⟩ | ⟨found, hfound, -, hkeys, hsame⟩⟩ := failed_save hsave
  · exact absurd (hread.symm.trans hunread) (by simp)
  · obtain rfl := Except.ok.inj (hread.symm.trans hfound)
    refine ⟨_, after, hsave, hfile, hkeys _, fun heq => ?_⟩
    have hnone := hsame.mp heq ⟨2, 16⟩ (by decide)
    exact absurd hnone (by simp)

/-- The next save that succeeds writes back what the failed one had read, whatever others have written
in the meantime. -/
theorem retry_restores {found : Annotations} {later last : Disk} {kept : MetadataStore}
    (h : store.saveOn trouble disk = (.error fault, saved, after))
    (hread : readFileOn trouble store.path disk = .ok found)
    (hretry : saved.save later = (.ok (), kept, last)) {key : FunctionKey}
    (hkey : key ∈ found) (hnew : key ∉ store.entries) :
    kept.get? key = found[key]?
      ∧ last.readText store.path = .ok (Annotations.render kept.entries) := by
  rcases saveOn_eq_error h with ⟨hunread, -, -⟩ | ⟨found', hread', rfl, -⟩
  · exact absurd (hread.symm.trans hunread) (by simp)
  · obtain rfl := Except.ok.inj (hread.symm.trans hread')
    obtain ⟨found', -, rfl, hreplace⟩ := save_eq_ok hretry
    refine ⟨?_, readText_replaceFile hreplace⟩
    have hpulled : (override found store.entries)[key]? = found[key]? := by
      rw [getElem?_override, ExtTreeMap.getElem?_eq_none hnew, Option.none_or]
    show (override found' (override found store.entries))[key]? = _
    rw [getElem?_override, hpulled,
      Option.or_of_isSome (ExtTreeMap.mem_iff_isSome_getElem?.mp hkey)]

end Failing

end Flowprint.MetadataStore
