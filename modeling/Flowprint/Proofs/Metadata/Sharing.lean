/-
  Flowprint.Proofs.Metadata.Sharing
  ────────────────────────────────
  Any number of stores with one file, that are loaded, given entries and saved in any order.

  A store does not tell what it was given from what it has read.  What it holds for a function is what
  it was last given for it, or else what it first read in its file, when it was loaded or when it was
  saved.  A save puts all of it over what is in the file.  So a save also takes back what another store
  has written, if this store had read the entry before.

  Main statements:

      held_step          what an act leaves in a store
      held_run           what a store holds after any acts
      save_changes       what a save changes in the file
      save_reverts       a save that takes back what another store has written
-/
import Flowprint.Proofs.Metadata.Replacing
import Flowprint.Proofs.Metadata.Saving

namespace Flowprint.MetadataStore

open Std

/-! ## §1. What a save leaves in the file. -/

/-- The file of a store that was saved holds what the store holds. -/
theorem readFile_of_save {store saved : MetadataStore} {disk after : Disk} (h : Used store)
    (hsave : store.save disk = (.ok (), saved, after)) :
    readFile store.path after = .ok saved.entries := by
  have hone : saved.entries.OneLine := oneLine_used (h.save hsave)
  obtain ⟨found, -, -, hreplace⟩ := save_eq_ok hsave
  rw [readFile, readText_replaceFile hreplace]
  dsimp only
  rw [Annotations.parse_render hone]

/-- What is in a file about a function, if it can be read. -/
def onFile (path : String) (disk : Disk) (key : FunctionKey) : Option Metadata :=
  match readFile path disk with
  | .error _ => none
  | .ok entries => entries[key]?

/-- What a save leaves in a store, whether it succeeds or not: what the store held, or else what is in
the file. -/
theorem getElem?_save {store saved : MetadataStore} {disk after : Disk}
    {outcome : Except Metadata.Fault Unit} (h : store.save disk = (outcome, saved, after))
    (key : FunctionKey) :
    saved.entries[key]? = (store.entries[key]?).or (onFile store.path disk key) := by
  unfold onFile
  unfold save at h
  cases hread : readFile store.path disk with
  | error fault =>
    rw [hread] at h
    obtain ⟨rfl, rfl⟩ := Prod.mk.inj (Prod.mk.inj h).2
    rw [Option.or_none]
  | ok found =>
    rw [hread] at h
    dsimp only at h ⊢
    -- the store takes over the file before it is written, so that this also holds of a failing save
    have hsaved : saved = { store with entries := override found store.entries } := by
      split at h
      · exact (Prod.mk.inj (Prod.mk.inj h).2).1.symm
      · exact (Prod.mk.inj (Prod.mk.inj h).2).1.symm
    rw [hsaved, getElem?_override]

theorem path_of_load {path : String} {disk : Disk} {store : MetadataStore}
    (h : load path disk = .ok store) : store.path = path := by
  unfold load at h
  split at h
  · rw [← Except.ok.inj h]
  · exact absurd h (by simp)

/-! ## §2. Acts. -/

/-- A disk with the stores that have come about. -/
structure Sharing where
  disk : Disk
  stores : List MetadataStore := []

/-- Something that is done with one of the stores, or with a new one. -/
inductive Act where
  /-- A new store without entries. -/
  | create
  /-- A new store from the file. -/
  | load
  /-- The store at a slot is given an entry. -/
  | insert (slot : Nat) (key : FunctionKey) (metadata : Metadata)
  /-- The store at a slot is saved. -/
  | save (slot : Nat)

namespace Sharing

/-- What an act does.  One that fails may still leave its mark on the store. -/
def step (path : String) (s : Sharing) : Act → Sharing
  | .create => { s with stores := s.stores ++ [⟨path, ∅⟩] }
  | .load =>
    match MetadataStore.load path s.disk with
    | .error _ => s
    | .ok store => { s with stores := s.stores ++ [store] }
  | .insert slot key metadata =>
    match s.stores[slot]? with
    | none => s
    | some store =>
      match store.insert key metadata with
      | .error _ => s
      | .ok store => { s with stores := s.stores.set slot store }
  | .save slot =>
    match s.stores[slot]? with
    | none => s
    | some store =>
      match store.save s.disk with
      | (_, store, disk) => ⟨disk, s.stores.set slot store⟩

/-- What acts do, one after the other. -/
def run (path : String) (s : Sharing) (acts : List Act) : Sharing :=
  acts.foldl (step path) s

/-- What the store at a slot holds for a function. -/
def held (s : Sharing) (slot : Nat) (key : FunctionKey) : Option Metadata :=
  s.stores[slot]?.bind fun store => store.entries[key]?

/-- What an act gives the store at a slot for a function, if it is accepted. -/
def given (slot : Nat) (key : FunctionKey) (s : Sharing) : Act → Option Metadata
  | .insert slot' key' metadata =>
    if slot' = slot ∧ key' = key ∧ slot < s.stores.length ∧ breaks metadata.fileName = false then
      some metadata
    else none
  | _ => none

/-- What the store at a slot reads in the file about a function with an act. -/
def readBy (path : String) (slot : Nat) (key : FunctionKey) (s : Sharing) : Act → Option Metadata
  | .load => if slot = s.stores.length then onFile path s.disk key else none
  | .save slot' => if slot' = slot ∧ slot < s.stores.length then onFile path s.disk key else none
  | _ => none

/-- What the store at a slot was last given for a function. -/
def lastGiven (path : String) (slot : Nat) (key : FunctionKey) (s : Sharing) :
    List Act → Option Metadata
  | [] => none
  | act :: rest => (lastGiven path slot key (s.step path act) rest).or (given slot key s act)

/-- What the store at a slot first read about a function. -/
def firstRead (path : String) (slot : Nat) (key : FunctionKey) (s : Sharing) :
    List Act → Option Metadata
  | [] => none
  | act :: rest => (readBy path slot key s act).or (firstRead path slot key (s.step path act) rest)

/-! ## §3. What stores hold. -/

/-- Stores with one file that have come about by acts. -/
def Bound (path : String) (s : Sharing) : Prop :=
  ∀ store ∈ s.stores, store.path = path ∧ Used store

section Held

variable {path : String} {s : Sharing}

theorem held_of_slot {slot : Nat} {store : MetadataStore} (h : s.stores[slot]? = some store)
    (key : FunctionKey) : s.held slot key = store.entries[key]? := by
  unfold held
  rw [h]
  rfl

theorem held_of_none {slot : Nat} (h : s.stores[slot]? = none) (key : FunctionKey) :
    s.held slot key = none := by
  unfold held
  rw [h]
  rfl

/-- A new store is at the slot behind the others. -/
theorem held_append (disk : Disk) (store : MetadataStore) (slot : Nat) (key : FunctionKey) :
    held ⟨disk, s.stores ++ [store]⟩ slot key
      = if slot = s.stores.length then store.entries[key]? else s.held slot key := by
  unfold held
  dsimp only
  by_cases hnew : slot = s.stores.length
  · rw [if_pos hnew, hnew, List.getElem?_concat_length]
    rfl
  · rw [if_neg hnew]
    by_cases hold : slot < s.stores.length
    · rw [List.getElem?_append_left hold]
    · have hbehind : s.stores.length + 1 ≤ slot := by omega
      rw [List.getElem?_eq_none (by simpa using hbehind),
        List.getElem?_eq_none (Nat.le_of_not_lt hold)]

/-- A store that changes is at its slot. -/
theorem held_set (disk : Disk) (store : MetadataStore) {slot' : Nat} (h : slot' < s.stores.length)
    (slot : Nat) (key : FunctionKey) :
    held ⟨disk, s.stores.set slot' store⟩ slot key
      = if slot' = slot then store.entries[key]? else s.held slot key := by
  unfold held
  dsimp only
  rw [List.getElem?_set]
  by_cases hsame : slot' = slot
  · rw [if_pos hsame, if_pos hsame, if_pos h]
    rfl
  · rw [if_neg hsame, if_neg hsame]

theorem slot_lt {slot : Nat} {store : MetadataStore} (h : s.stores[slot]? = some store) :
    slot < s.stores.length :=
  (List.getElem?_eq_some_iff.mp h).1

theorem held_create (slot : Nat) (key : FunctionKey) :
    (s.step path .create).held slot key = s.held slot key := by
  unfold step
  rw [held_append]
  by_cases hnew : slot = s.stores.length
  · rw [if_pos hnew, held_of_none (List.getElem?_eq_none (Nat.le_of_eq hnew.symm))]
    rfl
  · rw [if_neg hnew]

theorem held_load (slot : Nat) (key : FunctionKey) :
    (s.step path .load).held slot key
      = (s.held slot key).or (readBy path slot key s .load) := by
  unfold step readBy onFile MetadataStore.load
  cases readFile path s.disk with
  | error fault => simp
  | ok entries =>
    dsimp only
    rw [held_append]
    by_cases hnew : slot = s.stores.length
    · rw [if_pos hnew, if_pos hnew,
        held_of_none (List.getElem?_eq_none (Nat.le_of_eq hnew.symm)), Option.none_or]
    · rw [if_neg hnew, if_neg hnew, Option.or_none]

theorem held_insert (slot' : Nat) (key' : FunctionKey) (metadata : Metadata) (slot : Nat)
    (key : FunctionKey) :
    (s.step path (.insert slot' key' metadata)).held slot key
      = (given slot key s (.insert slot' key' metadata)).or (s.held slot key) := by
  cases hslot : s.stores[slot']? with
  | none =>
    have hout : ¬ slot' < s.stores.length := by simpa using hslot
    have hnot : given slot key s (.insert slot' key' metadata) = none := by
      refine if_neg ?_
      rintro ⟨rfl, -, hin, -⟩
      exact hout hin
    simp only [step, hslot, hnot, Option.none_or]
  | some store =>
    have hin := slot_lt hslot
    unfold given
    cases hbreaks : breaks metadata.fileName with
    | true => simp [step, hslot, hbreaks, insert_breaks store key' hbreaks]
    | false =>
      simp only [step, hslot, MetadataStore.insert, hbreaks, Bool.false_eq_true, if_false]
      rw [held_set _ _ hin]
      by_cases hsame : slot' = slot
      · subst hsame
        rw [if_pos rfl, ExtTreeMap.getElem?_insert, held_of_slot hslot]
        by_cases hkey : key' = key
        · rw [if_pos (by simpa using hkey), if_pos ⟨rfl, hkey, hin, trivial⟩, Option.some_or]
        · rw [if_neg (by simpa using hkey), if_neg (fun h => hkey h.2.1), Option.none_or]
      · rw [if_neg hsame, if_neg (fun h => hsame h.1), Option.none_or]

theorem held_save (hbound : s.Bound path) (slot' slot : Nat) (key : FunctionKey) :
    (s.step path (.save slot')).held slot key
      = (s.held slot key).or (readBy path slot key s (.save slot')) := by
  cases hslot : s.stores[slot']? with
  | none =>
    have hout : ¬ slot' < s.stores.length := by simpa using hslot
    have hnot : readBy path slot key s (.save slot') = none := by
      refine if_neg ?_
      rintro ⟨rfl, hin⟩
      exact hout hin
    simp only [step, hslot, hnot, Option.or_none]
  | some store =>
    have hin := slot_lt hslot
    obtain ⟨hpath, -⟩ := hbound store (List.mem_of_getElem? hslot)
    rcases hsave : store.save s.disk with ⟨outcome, saved, after⟩
    simp only [step, readBy, hslot, hsave]
    rw [held_set _ _ hin]
    by_cases hsame : slot' = slot
    · subst hsame
      rw [if_pos rfl, if_pos ⟨rfl, hin⟩, held_of_slot hslot, getElem?_save hsave, hpath]
    · rw [if_neg hsame, if_neg (fun h => hsame h.1), Option.or_none]

/-- What an act leaves in a store: what it gives, or else what the store held, or else what the store
reads with it. -/
theorem held_step (hbound : s.Bound path) (act : Act) (slot : Nat) (key : FunctionKey) :
    (s.step path act).held slot key
      = (given slot key s act).or ((s.held slot key).or (readBy path slot key s act)) := by
  cases act with
  | create => simp only [held_create, given, readBy, Option.none_or, Option.or_none]
  | load => simp only [held_load, given, Option.none_or]
  | insert slot' key' metadata => simp only [held_insert, readBy, Option.or_none]
  | save slot' => simp only [held_save hbound, given, Option.none_or]

/-- Acts bring about stores with the one file. -/
theorem bound_step (hbound : s.Bound path) (act : Act) : (s.step path act).Bound path := by
  unfold step
  cases act with
  | create =>
    intro store hmem
    rcases List.mem_append.mp hmem with hold | hnew
    · exact hbound store hold
    · rw [List.mem_singleton.mp hnew]
      exact ⟨rfl, .fresh path⟩
  | load =>
    dsimp only
    split
    next => exact hbound
    next loaded hload =>
      intro store hmem
      rcases List.mem_append.mp hmem with hold | hnew
      · exact hbound store hold
      · rw [List.mem_singleton.mp hnew]
        exact ⟨path_of_load hload, .load hload⟩
  | insert slot key metadata =>
    dsimp only
    split
    next => exact hbound
    next before hslot =>
      obtain ⟨hpath, hused⟩ := hbound before (List.mem_of_getElem? hslot)
      split
      next => exact hbound
      next next hinsert =>
        intro store hmem
        rcases List.mem_or_eq_of_mem_set hmem with hold | rfl
        · exact hbound store hold
        · refine ⟨?_, hused.insert hinsert⟩
          rw [(insert_eq_ok hinsert).2]
          exact hpath
  | save slot =>
    dsimp only
    split
    next => exact hbound
    next before hslot =>
      obtain ⟨hpath, hused⟩ := hbound before (List.mem_of_getElem? hslot)
      rcases hsave : before.save s.disk with ⟨outcome, saved, after⟩
      intro store hmem
      rcases List.mem_or_eq_of_mem_set hmem with hold | rfl
      · exact hbound store hold
      · refine ⟨?_, hused.save hsave⟩
        rcases save_store hsave with rfl | ⟨found, -, rfl⟩
        · exact hpath
        · exact hpath

/-- What a store holds after any acts: what it was last given, or else what it held before, or else
what it first read. -/
theorem held_run (hbound : s.Bound path) (acts : List Act) (slot : Nat) (key : FunctionKey) :
    (s.run path acts).held slot key
      = (lastGiven path slot key s acts).or
          ((s.held slot key).or (firstRead path slot key s acts)) := by
  induction acts generalizing s with
  | nil => simp [run, lastGiven, firstRead]
  | cons act acts ih =>
    show ((s.step path act).run path acts).held slot key = _
    rw [ih (bound_step hbound act), held_step hbound act]
    simp only [lastGiven, firstRead, Option.or_assoc]

theorem bound_run (hbound : s.Bound path) (acts : List Act) : (s.run path acts).Bound path := by
  induction acts generalizing s with
  | nil => exact hbound
  | cons act acts ih => exact ih (bound_step hbound act)

/-- Before anything is done there are no stores. -/
theorem bound_start (path : String) (disk : Disk) : Bound path ⟨disk, []⟩ := by
  intro store hmem
  exact absurd hmem List.not_mem_nil

end Held

/-! ## §4. What a save changes. -/

/-- A save changes the file only where its store was given an entry, or had read another one than the
file has now; then the entry that was read first is back.  No entry goes away. -/
theorem save_changes {path : String} {disk : Disk} {acts : List Act} {slot : Nat}
    {store saved : MetadataStore} {after : Disk}
    (hslot : (run path ⟨disk, []⟩ acts).stores[slot]? = some store)
    (hsave : store.save (run path ⟨disk, []⟩ acts).disk = (.ok (), saved, after)) :
    ∃ found entries : Annotations, readFile path (run path ⟨disk, []⟩ acts).disk = .ok found
      ∧ readFile path after = .ok entries
      ∧ (∀ key, entries[key]? = ((lastGiven path slot key ⟨disk, []⟩ acts).or
          (firstRead path slot key ⟨disk, []⟩ acts)).or found[key]?)
      ∧ (∀ key, entries[key]? ≠ found[key]? →
          (lastGiven path slot key ⟨disk, []⟩ acts).isSome
            ∨ ∃ metadata, firstRead path slot key ⟨disk, []⟩ acts = some metadata
              ∧ found[key]? ≠ some metadata ∧ entries[key]? = some metadata)
      ∧ ∀ key, key ∈ found → key ∈ entries := by
  have hbound := bound_run (bound_start path disk) acts
  obtain ⟨rfl, hused⟩ := hbound store (List.mem_of_getElem? hslot)
  obtain ⟨found, hread, hsaved, -⟩ := save_eq_ok hsave
  have hheld : ∀ key : FunctionKey, store.entries[key]?
      = (lastGiven store.path slot key ⟨disk, []⟩ acts).or
        (firstRead store.path slot key ⟨disk, []⟩ acts) := by
    intro key
    rw [← held_of_slot hslot, held_run (bound_start store.path disk) acts]
    rfl
  have hentries : ∀ key : FunctionKey,
      saved.entries[key]? = (store.entries[key]?).or found[key]? := by
    intro key
    rw [hsaved]
    exact getElem?_override found store.entries key
  refine ⟨found, saved.entries, hread, readFile_of_save hused hsave, ?_, ?_, ?_⟩
  · intro key
    rw [hentries, hheld]
  · intro key hchanged
    rw [hentries, hheld] at hchanged ⊢
    cases hgiven : lastGiven store.path slot key ⟨disk, []⟩ acts with
    | some metadata => exact .inl rfl
    | none =>
      right
      rw [hgiven] at hchanged
      cases hfirst : firstRead store.path slot key ⟨disk, []⟩ acts with
      | none =>
        rw [hfirst] at hchanged
        exact absurd rfl hchanged
      | some metadata =>
        rw [hfirst] at hchanged
        exact ⟨metadata, rfl, fun hsame => hchanged hsame.symm, rfl⟩
  · intro key hkey
    rw [ExtTreeMap.mem_iff_isSome_getElem?] at hkey ⊢
    rw [hentries, Option.isSome_or, hkey, Bool.or_true]

/-- Two stores of the file of others.  The second amends the entry that both have read and adds
another one. -/
def amending : List Act :=
  [.load, .load, .insert 1 ⟨2, 16⟩ ⟨"other  name", "amended", true⟩,
    .insert 1 ⟨3, 32⟩ ⟨"other  name", "added", false⟩, .save 1]

/-- The entries of the second store. -/
def amended : Annotations :=
  (others.insert ⟨2, 16⟩ ⟨"other  name", "amended", true⟩).insert ⟨3, 32⟩
    ⟨"other  name", "added", false⟩

theorem load_shared : MetadataStore.load "m" shared = .ok ⟨"m", others⟩ := by
  rw [MetadataStore.load, readFile_shared]

theorem step_load_shared (stores : List MetadataStore) :
    step "m" ⟨shared, stores⟩ .load = ⟨shared, stores ++ [⟨"m", others⟩]⟩ := by
  simp only [step, load_shared]

/-- The first store can be saved after the second one. -/
theorem run_amending : ∃ before after, run "m" ⟨shared, []⟩ amending = before
    ∧ before.stores[0]? = some ⟨"m", others⟩
    ∧ readFile "m" before.disk = .ok (override others amended)
    ∧ (⟨"m", others⟩ : MetadataStore).save before.disk
      = (.ok (), ⟨"m", override (override others amended) others⟩, after) := by
  obtain ⟨written, hreplace⟩ :=
    replaceFile_shared (Annotations.render (override others amended))
  obtain ⟨after, hagain⟩ := replaceFile_again hreplace
    (Annotations.render (override (override others amended) others))
  have hsave : (⟨"m", amended⟩ : MetadataStore).save shared
      = (.ok (), ⟨"m", override others amended⟩, written) := by
    simp only [MetadataStore.save, readFile_shared, hreplace]
  have hfirst : (⟨"m", others⟩ : MetadataStore).insert ⟨2, 16⟩ ⟨"other  name", "amended", true⟩
      = .ok ⟨"m", others.insert ⟨2, 16⟩ ⟨"other  name", "amended", true⟩⟩ := rfl
  have hsecond : MetadataStore.insert
      ⟨"m", others.insert ⟨2, 16⟩ ⟨"other  name", "amended", true⟩⟩ ⟨3, 32⟩
      ⟨"other  name", "added", false⟩ = .ok ⟨"m", amended⟩ := rfl
  have hread := readFile_of_save (((Used.load load_shared).insert hfirst).insert hsecond) hsave
  refine ⟨⟨written, [⟨"m", others⟩, ⟨"m", override others amended⟩]⟩, after, ?_, rfl, hread, ?_⟩
  · have hinserts : [.insert 1 ⟨2, 16⟩ ⟨"other  name", "amended", true⟩,
        .insert 1 ⟨3, 32⟩ ⟨"other  name", "added", false⟩].foldl (step "m")
        ⟨shared, [⟨"m", others⟩, ⟨"m", others⟩]⟩ = ⟨shared, [⟨"m", others⟩, ⟨"m", amended⟩]⟩ := rfl
    simp only [run, amending, List.foldl_cons, List.foldl_nil, step_load_shared, List.nil_append,
      List.singleton_append] at hinserts ⊢
    rw [hinserts]
    simp only [step, List.getElem?_cons_succ, List.getElem?_cons_zero, hsave]
    rfl
  · simp only [MetadataStore.save, hread, hagain]

/-- A save that takes back what another store has written: it changes an entry that its store was
never given. -/
theorem save_reverts : ∃ before saved after found entries,
    run "m" ⟨shared, []⟩ amending = before
      ∧ before.stores[0]? = some ⟨"m", others⟩
      ∧ (⟨"m", others⟩ : MetadataStore).save before.disk = (.ok (), saved, after)
      ∧ lastGiven "m" 0 ⟨2, 16⟩ ⟨shared, []⟩ amending = none
      ∧ readFile "m" before.disk = .ok found ∧ readFile "m" after = .ok entries
      ∧ found[(⟨2, 16⟩ : FunctionKey)]? = some ⟨"other  name", "amended", true⟩
      ∧ entries[(⟨2, 16⟩ : FunctionKey)]? = some ⟨"other  name", "raw!", true⟩ := by
  obtain ⟨before, after, hrun, hslot, hread, hsave⟩ := run_amending
  refine ⟨before, _, after, _, _, hrun, hslot, hsave, by simp [amending, lastGiven, given], hread,
    readFile_of_save (.load load_shared) hsave, ?_, ?_⟩
  · rw [getElem?_override]
    rfl
  · rw [getElem?_override]
    rfl

/-- What the other store has added stays, for the first store has not read it before. -/
theorem save_changes_amending : ∃ before saved after found entries,
    run "m" ⟨shared, []⟩ amending = before
      ∧ before.stores[0]? = some ⟨"m", others⟩
      ∧ (⟨"m", others⟩ : MetadataStore).save before.disk = (.ok (), saved, after)
      ∧ readFile "m" before.disk = .ok found ∧ readFile "m" after = .ok entries
      ∧ entries[(⟨3, 32⟩ : FunctionKey)]? = some ⟨"other  name", "added", false⟩ := by
  obtain ⟨before, after, hrun, hslot, hread, hsave⟩ := run_amending
  subst hrun
  obtain ⟨found, entries, hfound, hentries, hvalue, -, -⟩ := save_changes hslot hsave
  refine ⟨_, _, after, found, entries, rfl, hslot, hsave, hfound, hentries, ?_⟩
  obtain rfl := Except.ok.inj (hread.symm.trans hfound)
  have hgiven : lastGiven "m" 0 ⟨3, 32⟩ ⟨shared, []⟩ amending = none := by
    simp [amending, lastGiven, given]
  have hfirst : firstRead "m" 0 ⟨3, 32⟩ ⟨shared, []⟩ amending = none := by
    simp only [amending, firstRead, readBy, step_load_shared, onFile, readFile_shared]
    rfl
  rw [hvalue, hgiven, hfirst, getElem?_override]
  rfl

end Sharing

end Flowprint.MetadataStore
