/-
  Flowprint.Proofs.Metadata.Replacing
  ────────────────────────────────
  A file that is replaced by way of the file beside it.

  The text is first written beside the file and then moved over it.  The two are never at one place,
  so that the file is as it was until it is moved over.  `Replaced` says what can happen: the file
  beside cannot be written, or it is written but cannot be moved, or the file is replaced.

  Main statements:

      locate_beside          a file and the file beside it are at two places
      replaced_replaceFile   what can happen when a file is replaced
      leftover_replaceFile   what a file that is not replaced leaves behind
      node_replaceFile       a file that is not replaced is as it was
      replaceFile_ok_iff     when a file is replaced
      replaceFile_again      a file that was replaced can be replaced again
-/
import Flowprint.Metadata.Store
import Flowprint.Proofs.Disk
import Flowprint.Proofs.Place

namespace Flowprint.MetadataStore

/-! ## §1. The file beside a file. -/

section Beside

variable {disk after : Disk} {path : String} {place : Place}

/-- Where the file beside can be, the file can be, at another place. -/
theorem locate_beside (hpath : path ≠ "") (h : disk.locate (beside path) = .ok place) :
    ∃ own, disk.locate path = .ok own ∧ own ≠ place := by
  obtain ⟨hzero, -, hlong, hsteps⟩ := Disk.locate_eq_ok.mp h
  obtain ⟨front, name, hshort, hbeside⟩ :=
    Place.steps_append path (show '/' ∉ ".tmp".toList by decide)
  rw [beside, hbeside, Disk.foldlM_step_concat] at hsteps
  -- both paths lead through one directory, and only their last steps differ
  obtain ⟨directory, hfront, hlast⟩ := hsteps
  obtain ⟨hdirectory, hname, rfl⟩ := Disk.step_eq_ok.mp hlast
  have hshorter : Place.isTooLong name = false := by
    unfold Place.isTooLong at hname ⊢
    rw [String.toList_append, Text.utf8Length_append, decide_eq_false_iff_not] at hname
    rw [decide_eq_false_iff_not]
    omega
  refine ⟨Place.step directory name, Disk.locate_eq_ok.mpr ⟨?_, hpath, ?_, ?_⟩, ?_⟩
  · rw [beside, String.contains_char_eq, String.toList_append, decide_eq_false_iff_not] at hzero
    rw [String.contains_char_eq, decide_eq_false_iff_not]
    exact fun hmem => hzero (List.mem_append_left _ hmem)
  · rw [beside, String.toList_append, Text.utf8Length_append] at hlong
    omega
  · rw [hshort]
    exact Disk.foldlM_step_concat.mpr
      ⟨directory, hfront, Disk.step_eq_ok.mpr ⟨hdirectory, hshorter, rfl⟩⟩
  · have hlonger : ∀ other : String, other.length < 4 → name ++ ".tmp" ≠ other := by
      rintro other hless rfl
      rw [String.length_append, show ".tmp".length = 4 from rfl] at hless
      omega
    have hconcat : Place.step directory (name ++ ".tmp") = directory ++ [name ++ ".tmp"] := by
      unfold Place.step
      rw [if_neg (not_or.mpr ⟨hlonger "" (by decide), hlonger "." (by decide)⟩),
        if_neg (hlonger ".." (by decide))]
    rw [hconcat]
    apply Place.step_ne_concat
    rw [String.length_append, show ".tmp".length = 4 from rfl]
    omega

/-- A path that is empty leads nowhere. -/
theorem node_empty (disk : Disk) : disk.node "" = .error .notFound := by
  have hzero : "".contains '\x00' = false := by simp
  rw [Disk.node, Disk.locate, hzero]
  rfl

/-- What is written to the file beside a file leaves the file as it was. -/
theorem node_put_beside (h : disk.locate (beside path) = .ok place)
    (hplace : disk.lookup place ≠ some .directory) (node : FileNode) :
    (disk.put place node).node path = disk.node path := by
  by_cases hpath : path = ""
  · rw [hpath, node_empty, node_empty]
  · obtain ⟨own, hown, hne⟩ := locate_beside hpath h
    rw [Disk.node_of_locate (Disk.locate_put hplace node hown), Disk.node_of_locate hown,
      Disk.lookup_put_ne disk hne.symm]

/-- What a failed replacement of a file can leave behind: nothing, or something beside it. -/
inductive Leftover (path : String) (disk : Disk) : Disk → Prop
  | nothing : Leftover path disk disk
  | beside {place : Place} {node : FileNode} (hbeside : disk.locate (beside path) = .ok place)
      (hplace : disk.lookup place ≠ some .directory) : Leftover path disk (disk.put place node)

/-- What is left behind does not touch the file. -/
theorem Leftover.node_eq (h : Leftover path disk after) : after.node path = disk.node path := by
  cases h with
  | nothing => rfl
  | beside hbeside hplace => exact node_put_beside hbeside hplace _

/-- Nor does it touch anything but the file beside. -/
theorem Leftover.lookup_eq (h : Leftover path disk after) {other : Place}
    (hother : disk.locate (MetadataStore.beside path) ≠ .ok other) :
    after.lookup other = disk.lookup other := by
  cases h with
  | nothing => rfl
  | beside hbeside hplace =>
    refine Disk.lookup_put_ne disk ?_ _
    rintro rfl
    exact hother hbeside

end Beside

/-! ## §2. What can happen. -/

/-- A file of text. -/
def textNode (text : String) : FileNode :=
  .file (Text.bytesOf text)

/-- What can happen when a text is put into a file by way of the file beside it. -/
inductive Replaced (disk : Disk) (path text : String) : Except FileFault Unit × Disk → Prop
  /-- The file beside cannot be written. -/
  | refused {fault : FileFault} (h : disk.writeText (beside path) text = .error fault) :
      Replaced disk path text (.error fault, disk)
  /-- The file beside is written and stays there, since it cannot be moved. -/
  | stuck {fault : FileFault} {place : Place} (hbeside : disk.locate (beside path) = .ok place)
      (hplace : disk.lookup place ≠ some .directory)
      (hpath : path = "" ∨ disk.node path = .ok .directory) :
      Replaced disk path text (.error fault, disk.put place (textNode text))
  /-- The file beside is written and moved over the file. -/
  | done {place own : Place} (hbeside : disk.locate (beside path) = .ok place)
      (hplace : disk.lookup place ≠ some .directory) (hpath : path ≠ "")
      (hown : disk.locate path = .ok own) (hne : own ≠ place)
      (hfile : disk.lookup own ≠ some .directory) :
      Replaced disk path text
        (.ok (), ((disk.put place (textNode text)).remove place).put own (textNode text))

section Replacing

variable {disk : Disk} {path text : String}

/-- No directory goes away while the file beside comes and goes. -/
theorem keepsDirectories_between {place : Place} (hplace : disk.lookup place ≠ some .directory)
    (text : String) :
    disk.KeepsDirectories ((disk.put place (textNode text)).remove place) := by
  intro other hother
  have hne : place ≠ other := by
    rintro rfl
    exact hplace hother
  rw [Disk.lookup_remove_ne hne, Disk.lookup_put_ne disk hne, hother]

/-- The file is where it was, and what it was, while the file beside it comes and goes. -/
theorem locate_between {place : Place} (hpath : path ≠ "")
    (hbeside : disk.locate (beside path) = .ok place)
    (hplace : disk.lookup place ≠ some .directory) (text : String) :
    ∃ own, own ≠ place ∧ disk.locate path = .ok own
      ∧ ((disk.put place (textNode text)).remove place).locate path = .ok own
      ∧ ((disk.put place (textNode text)).remove place).lookup own = disk.lookup own := by
  obtain ⟨own, hown, hne⟩ := locate_beside hpath hbeside
  refine ⟨own, hne, hown, Disk.locate_keeps (keepsDirectories_between hplace text) hown, ?_⟩
  rw [Disk.lookup_remove_ne hne.symm, Disk.lookup_put_ne disk hne.symm]

/-- What is left to do once the file beside is written. -/
theorem rename_beside {place : Place} (hbeside : disk.locate (beside path) = .ok place)
    (hplace : disk.lookup place ≠ some .directory) (text : String) :
    (disk.put place (textNode text)).rename (beside path) path
      = ((disk.put place (textNode text)).remove place).write path (textNode text) := by
  have hnode : (disk.put place (textNode text)).node (beside path) = .ok (textNode text) :=
    Disk.node_write (Disk.write_eq_ok.mpr ⟨place, hbeside, hplace, rfl⟩)
  rw [Disk.rename, Disk.locate_put hplace _ hbeside, hnode]
  rfl

/-- A file is replaced in one of three ways. -/
theorem replaced_replaceFile (path text : String) (disk : Disk) :
    Replaced disk path text (replaceFile path text disk) := by
  unfold replaceFile
  split
  next fault hwrite => exact .refused hwrite
  next written hwrite =>
    obtain ⟨place, hbeside, hplace, rfl⟩ := Disk.write_eq_ok.mp hwrite
    have hmove := rename_beside hbeside hplace text
    rw [textNode] at hmove
    rw [hmove]
    split
    next fault hmoved =>
      refine .stuck hbeside hplace ?_
      by_cases hpath : path = ""
      · exact .inl hpath
      · right
        obtain ⟨own, -, hown, hlocate, hsame⟩ := locate_between hpath hbeside hplace text
        -- the path still leads to the file, so that a directory is in the way
        have hdirectory : disk.lookup own = some .directory := by
          refine Decidable.byContradiction fun hfile => ?_
          rw [← hsame] at hfile
          have hwritten : ((disk.put place (textNode text)).remove place).write path
              (textNode text) = .ok _ := Disk.write_eq_ok.mpr ⟨own, hlocate, hfile, rfl⟩
          exact absurd (hmoved.symm.trans hwritten) (by simp)
        rw [Disk.node_of_locate hown, hdirectory]
    next moved hmoved =>
      obtain ⟨own, hlocate, hfile, rfl⟩ := Disk.write_eq_ok.mp hmoved
      have hpath : path ≠ "" := (Disk.locate_eq_ok.mp hlocate).2.1
      obtain ⟨own', hne, hown, hlocate', hsame⟩ := locate_between hpath hbeside hplace text
      obtain rfl := Except.ok.inj (hlocate'.symm.trans hlocate)
      exact .done hbeside hplace hpath hown hne (by rw [← hsame]; exact hfile)

/-- A file that is not replaced leaves at most something beside it. -/
theorem leftover_replaceFile {fault : FileFault}
    (h : replaceFile path text disk = (.error fault, after)) : Leftover path disk after := by
  have hcases := replaced_replaceFile path text disk
  rw [h] at hcases
  cases hcases with
  | refused hwrite => exact .nothing
  | stuck hbeside hplace hpath => exact .beside hbeside hplace

/-- When a file is replaced: the file beside can be written, and neither has the file no path nor is
it a directory. -/
theorem replaceFile_ok_iff : (∃ after, replaceFile path text disk = (.ok (), after)) ↔
    path ≠ "" ∧ disk.node path ≠ .ok .directory
      ∧ ∃ place, disk.locate (beside path) = .ok place
        ∧ disk.lookup place ≠ some .directory := by
  have hcases := replaced_replaceFile path text disk
  constructor
  · rintro ⟨after, hreplace⟩
    rw [hreplace] at hcases
    cases hcases with
    | @done place own hbeside hplace hpath hown hne hfile =>
      refine ⟨hpath, ?_, place, hbeside, hplace⟩
      rw [Disk.node_of_locate hown]
      intro hdirectory
      split at hdirectory
      · exact absurd hdirectory (by simp)
      next node hnode => exact hfile (by rw [hnode, Except.ok.inj hdirectory])
  · rintro ⟨hpath, hfile, place, hbeside, hplace⟩
    generalize replaceFile path text disk = result at hcases ⊢
    cases hcases with
    | refused hwrite =>
      have hwritten : disk.writeText (beside path) text = .ok _ :=
        Disk.write_eq_ok.mpr ⟨place, hbeside, hplace, rfl⟩
      exact absurd (hwrite.symm.trans hwritten) (by simp)
    | stuck hbeside hplace hstuck =>
      rcases hstuck with hempty | hdirectory
      · exact absurd hempty hpath
      · exact absurd hdirectory hfile
    | done hbeside hplace _ hown hne _ => exact ⟨_, rfl⟩

/-- A file that was replaced can be replaced again, for nothing is left beside it. -/
theorem replaceFile_again {after : Disk} (h : replaceFile path text disk = (.ok (), after))
    (next : String) : ∃ last, replaceFile path next after = (.ok (), last) := by
  have hcases := replaced_replaceFile path text disk
  rw [h] at hcases
  cases hcases with
  | @done place own hbeside hplace hpath hown hne hfile =>
    have hgone : ((disk.put place (textNode text)).remove place).lookup place = none :=
      Disk.lookup_remove (Disk.isAncestor_eq_false hplace)
    have hkeep := keepsDirectories_between hplace text
    obtain ⟨own', -, hown', hlocate, hsame⟩ := locate_between hpath hbeside hplace text
    obtain rfl := Except.ok.inj (hown.symm.trans hown')
    rw [← hsame] at hfile
    generalize (disk.put place (textNode text)).remove place = middle at *
    refine replaceFile_ok_iff.mpr ⟨hpath, ?_, ?_⟩
    · rw [Disk.node_write (Disk.write_eq_ok.mpr ⟨own, hlocate, hfile, rfl⟩)]
      simp [textNode]
    · have hfree : (middle.put own (textNode text)).lookup place ≠ some .directory := by
        rw [Disk.lookup_put_ne middle hne, hgone]
        simp
      have hthere : (middle.put own (textNode text)).locate (beside path) = .ok place :=
        Disk.locate_put hfile _ (Disk.locate_keeps hkeep hbeside)
      exact ⟨place, hthere, hfree⟩

end Replacing

end Flowprint.MetadataStore
