/-
  Flowprint.Proofs.Metadata.Saving
  ────────────────────────────────
  Stores that share a file.

  A file name in a store is a single line, for `insert` refuses any other and none other can be
  read.  So what a store writes is read back as it stands, and a saved store is the store of its
  file.

  Main statements:

      readText_replaceFile     a file that is replaced holds the text it was given
      oneLine_used             the file names in a store are single lines
      save_merges              saving keeps what others wrote, but for the entries of the store
-/
import Flowprint.Metadata.Store
import Flowprint.Proofs.Disk
import Flowprint.Proofs.Metadata.Lines

namespace Flowprint.MetadataStore

open Std

/-! ## §1. The file of a store. -/

theorem readText_of_node {disk : Disk} {path text : String}
    (h : disk.node path = .ok (.file (Text.bytesOf text))) : disk.readText path = .ok text := by
  rw [Disk.readText, Disk.readBytes, h]
  dsimp only
  rw [Text.ofBytes?_bytesOf]

/-- A file that is replaced holds the text it was given. -/
theorem readText_replaceFile {disk after : Disk} {path text : String}
    (h : replaceFile path text disk = (.ok (), after)) : after.readText path = .ok text := by
  unfold replaceFile at h
  split at h
  · exact absurd h (by simp)
  next written hwrite =>
    split at h
    · exact absurd h (by simp)
    next moved hmove =>
      obtain rfl := (Prod.mk.inj h).2
      exact readText_of_node (Disk.node_rename (Disk.node_write hwrite) hmove)

/-- What it takes to read the file of a store: it holds entries, or there is none. -/
theorem readFile_eq_ok {disk : Disk} {path : String} {found : Annotations}
    (h : readFile path disk = .ok found) :
    (∃ text, disk.readText path = .ok text ∧ Annotations.parse text = .ok found)
      ∨ disk.readText path = .error .notFound ∧ found = ∅ := by
  unfold readFile at h
  split at h
  next text htext => exact .inl ⟨text, htext, h⟩
  next hnone => exact .inr ⟨hnone, (Except.ok.inj h).symm⟩
  · exact absurd h (by simp)

theorem oneLine_readFile {disk : Disk} {path : String} {found : Annotations}
    (h : readFile path disk = .ok found) : found.OneLine := by
  rcases readFile_eq_ok h with ⟨text, -, hparse⟩ | ⟨-, rfl⟩
  · exact Annotations.oneLine_of_parse hparse
  · exact Annotations.oneLine_empty

/-! ## §2. Stores in use. -/

theorem getElem?_override (old new : Annotations) (key : FunctionKey) :
    (override old new)[key]? = new[key]?.or old[key]? := by
  rw [← Annotations.getElem?_insertMany_toList, ExtTreeMap.insertMany_list_eq_foldl]
  rfl

theorem oneLine_override {old new : Annotations} (hold : old.OneLine) (hnew : new.OneLine) :
    (override old new).OneLine := by
  intro key metadata h
  rw [getElem?_override, Option.or_eq_some_iff] at h
  rcases h with h | ⟨-, h⟩
  · exact hnew key metadata h
  · exact hold key metadata h

/-- What a save makes of a store, whether it succeeds or not. -/
theorem save_store {store saved : MetadataStore} {disk after : Disk}
    {outcome : Except Metadata.Fault Unit} (h : store.save disk = (outcome, saved, after)) :
    saved = store ∨ ∃ found, readFile store.path disk = .ok found
      ∧ saved = { store with entries := override found store.entries } := by
  unfold save at h
  split at h
  next => exact .inl (Prod.mk.inj (Prod.mk.inj h).2).1.symm
  next found hfound =>
    dsimp only at h
    split at h
    · exact .inr ⟨found, hfound, (Prod.mk.inj (Prod.mk.inj h).2).1.symm⟩
    · exact .inr ⟨found, hfound, (Prod.mk.inj (Prod.mk.inj h).2).1.symm⟩

/-- What it takes to save a store: its file is read and replaced. -/
theorem save_eq_ok {store saved : MetadataStore} {disk after : Disk}
    (h : store.save disk = (.ok (), saved, after)) :
    ∃ found, readFile store.path disk = .ok found
      ∧ saved = { store with entries := override found store.entries }
      ∧ replaceFile store.path (Annotations.render saved.entries) disk = (.ok (), after) := by
  unfold save at h
  split at h
  · exact absurd h (by simp)
  next found hfound =>
    dsimp only at h
    split at h
    next written hreplace =>
      obtain ⟨rfl, rfl⟩ := Prod.mk.inj (Prod.mk.inj h).2
      exact ⟨found, hfound, rfl, hreplace⟩
    · exact absurd h (by simp)

/-- Stores as they come about: without entries or from a file, with entries that were accepted, and
after saves, failed ones included. -/
inductive Used : MetadataStore → Prop
  | fresh (path : String) : Used ⟨path, ∅⟩
  | load {path : String} {disk : Disk} {store : MetadataStore} (h : load path disk = .ok store) :
    Used store
  | insert {store next : MetadataStore} {key : FunctionKey} {metadata : Metadata} (h : Used store)
    (hinsert : store.insert key metadata = .ok next) : Used next
  | save {store saved : MetadataStore} {disk after : Disk} {outcome : Except Metadata.Fault Unit}
    (h : Used store) (hsave : store.save disk = (outcome, saved, after)) : Used saved

/-- What it takes to insert an entry. -/
theorem insert_eq_ok {store next : MetadataStore} {key : FunctionKey} {metadata : Metadata}
    (h : store.insert key metadata = .ok next) :
    breaks metadata.fileName = false
      ∧ next = { store with entries := store.entries.insert key metadata } := by
  unfold insert at h
  split at h
  · exact absurd h (by simp)
  next hbreaks => exact ⟨Bool.eq_false_iff.mpr hbreaks, (Except.ok.inj h).symm⟩

theorem not_mem_of_breaks {s : String} (h : breaks s = false) : '\n' ∉ s.toList := by
  intro hmem
  rw [breaks, List.any_eq_false] at h
  exact h _ hmem rfl

/-- The file names in a store are single lines. -/
theorem oneLine_used {store : MetadataStore} (h : Used store) : store.entries.OneLine := by
  induction h with
  | fresh path => exact Annotations.oneLine_empty
  | load hload =>
    unfold MetadataStore.load at hload
    split at hload
    next entries hread =>
      obtain rfl := Except.ok.inj hload
      exact oneLine_readFile hread
    · exact absurd hload (by simp)
  | insert _ hinsert ih =>
    obtain ⟨hbreaks, rfl⟩ := insert_eq_ok hinsert
    exact Annotations.oneLine_insert ih (not_mem_of_breaks hbreaks)
  | save _ hsave ih =>
    rcases save_store hsave with rfl | ⟨found, hread, rfl⟩
    · exact ih
    · exact oneLine_override (oneLine_readFile hread) ih

/-! ## §3. Saving. -/

/-- Saving keeps what others wrote, but for the entries of the store, and a saved store is the store
of its file. -/
theorem save_merges {store saved : MetadataStore} {disk after : Disk} (h : Used store)
    (hsave : store.save disk = (.ok (), saved, after)) :
    ∃ found, readFile store.path disk = .ok found
      ∧ load store.path after = .ok saved
      ∧ (∀ key, saved.get? key = (store.get? key).or found[key]?)
      ∧ ∀ key, key ∈ found → key ∈ saved.entries := by
  obtain ⟨found, hread, hsaved, hreplace⟩ := save_eq_ok hsave
  have hkeys : ∀ key, saved.get? key = (store.get? key).or found[key]? := by
    intro key
    rw [hsaved]
    exact getElem?_override found store.entries key
  refine ⟨found, hread, ?_, hkeys, ?_⟩
  · have hone := oneLine_used (h.save hsave)
    rw [load, readFile, readText_replaceFile hreplace]
    dsimp only
    rw [Annotations.parse_render hone, hsaved]
  · intro key hkey
    have hget : saved.entries[key]? = (store.entries[key]?).or found[key]? := hkeys key
    rw [ExtTreeMap.mem_iff_isSome_getElem?] at hkey ⊢
    rw [hget, Option.isSome_or, hkey, Bool.or_true]

/-- A file that others wrote, with blanks in a file name and a function name that is not encoded. -/
def othersText : String :=
  "2 other  name 10 raw! true\r\n"

/-- What it says. -/
def others : Annotations :=
  (∅ : Annotations).insert ⟨2, 16⟩ ⟨"other  name", "raw!", true⟩

/-- A directory with the file of others. -/
def shared : Disk :=
  Disk.put {} ["m"] (.file (Text.bytesOf othersText))

/-- A store for that file, with a file name like the fields behind it and a function name of two
lines. -/
def awkward : MetadataStore :=
  ⟨"m", (∅ : Annotations).insert ⟨0xffffffffffffffff, 0⟩ ⟨" 1 Zm9v true", "a\nb", false⟩⟩

theorem used_awkward : Used awkward := by
  have hinsert : (⟨"m", ∅⟩ : MetadataStore).insert ⟨0xffffffffffffffff, 0⟩
      ⟨" 1 Zm9v true", "a\nb", false⟩ = .ok awkward := rfl
  exact .insert (.fresh "m") hinsert

theorem locate_m (disk : Disk) : disk.locate "m" = .ok ["m"] := by
  rw [Disk.locate, show "m".contains '\x00' = false by simp]
  rfl

theorem locate_beside_m (disk : Disk) : disk.locate (beside "m") = .ok ["m.tmp"] := by
  rw [Disk.locate, beside, show ("m" ++ ".tmp").contains '\x00' = false by simp]
  rfl

theorem readFile_shared : readFile "m" shared = .ok others := by
  have hnode : shared.node "m" = .ok (.file (Text.bytesOf othersText)) := by
    rw [Disk.node, locate_m]
    rfl
  rw [readFile, readText_of_node hnode]
  rfl

theorem replaceFile_shared (text : String) :
    ∃ after, replaceFile "m" text shared = (.ok (), after) := by
  have hwrite : shared.writeText (beside "m") text
      = .ok (shared.put ["m.tmp"] (.file (Text.bytesOf text))) := by
    rw [Disk.writeText, Disk.write, locate_beside_m]
    rfl
  rw [replaceFile, hwrite]
  dsimp only
  rw [Disk.rename, locate_beside_m, Disk.node_write hwrite]
  dsimp only
  rw [Disk.write, locate_m]
  exact ⟨_, rfl⟩

theorem save_merges_awkward :
    ∃ saved after, Used awkward ∧ awkward.save shared = (.ok (), saved, after)
      ∧ load "m" after = .ok saved
      ∧ saved.get? ⟨0xffffffffffffffff, 0⟩ = some ⟨" 1 Zm9v true", "a\nb", false⟩
      ∧ saved.get? ⟨2, 16⟩ = some ⟨"other  name", "raw!", true⟩ := by
  obtain ⟨after, hreplace⟩ :=
    replaceFile_shared (Annotations.render (override others awkward.entries))
  have hsave : awkward.save shared
      = (.ok (), { awkward with entries := override others awkward.entries }, after) := by
    rw [save, show awkward.path = "m" from rfl, readFile_shared]
    dsimp only
    rw [hreplace]
    rfl
  obtain ⟨found, hread, hload, hkeys, -⟩ := save_merges used_awkward hsave
  obtain rfl := Except.ok.inj (readFile_shared.symm.trans hread)
  exact ⟨_, after, used_awkward, hsave, hload, hkeys _, hkeys _⟩

end Flowprint.MetadataStore
