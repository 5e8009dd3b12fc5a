/-
  Flowprint.Proofs.Index.Session
  ────────────────────────────────
  Runs of calls through open handles.

  A session is a disk and the handles that are open on it.  Calls are made one at a time; each is one
  operation of an index on the disk as the calls before have left it.  What a call can do to the file
  at one place is said once, by `Effect`: nothing, a batch of records, or a new capacity.

  The results are about an index that was created where no database was.  To create one through a path
  that leads to its place makes sure of that; `takenOver` is a session in which the path only spells the
  place of an index that is there.

  Main statements:

      founded_of_locate  an index is a new one if its path leads to its place
      effect_step        the effects of a call on the file at a place
      keeps_founded      a new index keeps no records
      keeps_run          after any calls the file keeps the records of all accepted batches
      query_answers      every open handle answers from the complete ranking of those records
-/
import Flowprint.Proofs.Index.Ranking
import Flowprint.Proofs.Index.Takeover

namespace Flowprint.Index

/-! ## §1. Sessions and calls. -/

/-- A disk and the handles that are open on it. -/
structure Session where
  disk : Disk
  handles : List Handle

/-- A call of an operation; an open handle goes by its position. -/
inductive Call where
  /-- Add a batch of records. -/
  | add (slot : Nat) (records : List Record)
  /-- Add capacity. -/
  | grow (slot : Nat) (extra : UInt64)
  /-- Ask for the best hits. -/
  | query (slot : Nat) (hash : SimHash) (n : Nat)
  /-- Open one more handle. -/
  | load (path : String)
  /-- Let go of a handle. -/
  | close (slot : Nat)

namespace Session

/-- The session after an operation of a handle; the handle changes only if the operation succeeds. -/
def update (s : Session) (slot : Nat) (outcome : Except Fault Handle) (disk : Disk) : Session :=
  match outcome with
  | .ok handle => ⟨disk, s.handles.set slot handle⟩
  | .error _ => { s with disk := disk }

/-- The session after a call.  A call of a handle that is not open does nothing. -/
def step (s : Session) : Call → Session
  | .add slot records =>
    match s.handles[slot]? with
    | none => s
    | some handle =>
      let (outcome, disk) := (File.add handle records).run s.disk
      s.update slot (outcome.map Prod.snd) disk
  | .grow slot extra =>
    match s.handles[slot]? with
    | none => s
    | some handle =>
      let (outcome, disk) := (File.grow handle extra).run s.disk
      s.update slot outcome disk
  | .query _ _ _ => s
  | .load path =>
    match (File.load path).run s.disk with
    | (.ok handle, disk) => ⟨disk, s.handles ++ [handle]⟩
    | (.error _, disk) => { s with disk := disk }
  | .close slot => { s with handles := s.handles.eraseIdx slot }

/-- The session after some calls. -/
def run (s : Session) (calls : List Call) : Session :=
  calls.foldl step s

/-- The records that a call adds to the file at a place: a batch that a handle on it accepts. -/
def accepted (place : Place) (s : Session) : Call → List Record
  | .add slot records =>
    match s.handles[slot]? with
    | none => []
    | some handle =>
      match (File.add handle records).run s.disk with
      | (.ok _, _) => if handle.store = .file place then records else []
      | (.error _, _) => []
  | _ => []

/-- The records that some calls add to the file at a place, in the order of the calls. -/
def stored (place : Place) (s : Session) : List Call → List Record
  | [] => []
  | call :: rest => accepted place s call ++ stored place (s.step call) rest

/-- The session after an index was created at a path, if it could be. -/
def create (s : Session) (path : String) (options : Options) : Session :=
  match (File.create path options).run s.disk with
  | (.ok handle, disk) => ⟨disk, s.handles ++ [handle]⟩
  | (.error _, disk) => { s with disk := disk }

/-- The session begins with an index that was created at a place, and its handle is the only one. -/
def Begun (place : Place) (options : Options) (s : Session) : Prop :=
  ∃ path before handle, (File.create path options).run before = (.ok handle, s.disk)
    ∧ handle.store = .file place ∧ s.handles = [handle]

/-- The session begins with a new index at a place: it was created where no database was, and its
handle is the only one.  That no database was there is more than `Begun` says: an index that is created
through a path that leads to its place is a new one (`founded_of_locate`), one that is created through a
path that only spells the place may not be (`begun_takenOver`). -/
def Founded (place : Place) (options : Options) (s : Session) : Prop :=
  ∃ path before handle, (∀ old, before.lookup place ≠ some (.database old))
    ∧ (File.create path options).run before = (.ok handle, s.disk)
    ∧ handle.store = .file place ∧ s.handles = [handle]

/-- An index that is created through a path that leads to its place is a new one. -/
theorem founded_of_locate {place : Place} {options : Options} {s : Session} {path : String}
    {before : Disk} {handle : Handle} (hlocate : before.locate path = .ok place)
    (hcreate : (File.create path options).run before = (.ok handle, s.disk))
    (hstore : handle.store = .file place) (hhandles : s.handles = [handle]) :
    s.Founded place options := by
  have hnothing := nothing_of_create hcreate hlocate
  refine ⟨path, before, handle, fun old => ?_, hcreate, hstore, hhandles⟩
  rw [hnothing]
  simp

theorem stored_append (place : Place) (s : Session) (calls more : List Call) :
    stored place s (calls ++ more) = stored place s calls ++ stored place (s.run calls) more := by
  induction calls generalizing s with
  | nil => rfl
  | cons call calls ih =>
    show accepted place s call ++ stored place (s.step call) (calls ++ more) = _
    rw [ih, ← List.append_assoc]
    rfl

/-! ## §2. What a call can do to the file at a place. -/

/-- The effects of a call on an index at a place, with the records that are added. -/
inductive Effect (place : Place) (tables : Tables) (s : Session) : Session → List Record → Prop
  /-- The file stays.  Handles on it may be closed, and one may be opened. -/
  | idle {s' : Session} (hsame : s'.disk.lookup place = s.disk.lookup place)
      (hhandles : ∀ handle ∈ s'.handles, handle.store = .file place →
        handle ∈ s.handles ∨ ∃ path, Handle.ofTables path (.file place) tables = .ok handle) :
      Effect place tables s s' []
  /-- A batch is stored and counted by its handle. -/
  | added {slot : Nat} {handle : Handle} {records : List Record}
      (hslot : s.handles[slot]? = some handle) (hstore : handle.store = .file place)
      (hroom : handle.checkRoom records.length = .ok ()) :
      Effect place tables s
        ⟨s.disk.put place (indexFile ((tables.appendAll handle.permutations.toNat records).2.setHeader
            countKey (handle.countAfter records))),
          s.handles.set slot { handle with count := handle.countAfter records }⟩ records
  /-- The capacity changes, and its handle's with it. -/
  | grown {slot : Nat} {handle : Handle} {extra : UInt64}
      (hslot : s.handles[slot]? = some handle) (hstore : handle.store = .file place) :
      Effect place tables s
        ⟨s.disk.put place (indexFile (handle.grow extra tables).2),
          s.handles.set slot (handle.grow extra tables).1⟩ []

section Step

variable {place : Place} {tables : Tables} {s : Session}

/-- A session that stays as it is. -/
theorem Effect.refl : Effect place tables s s [] :=
  .idle rfl fun _ hmem _ => .inl hmem

/-- An operation that leaves the file alone and its handle elsewhere has no effect on the file. -/
theorem effect_elsewhere {slot : Nat} {outcome : Except Fault Handle} {after : Disk}
    (hsame : after.lookup place = s.disk.lookup place)
    (hgives : ∀ handle, outcome = .ok handle → handle.store ≠ .file place) :
    Effect place tables s (s.update slot outcome after) [] := by
  cases outcome with
  | error fault => exact .idle hsame fun _ hmem _ => .inl hmem
  | ok after =>
    refine .idle hsame fun handle hmem hstore => ?_
    rcases List.mem_or_eq_of_mem_set hmem with hold | rfl
    · exact .inl hold
    · exact absurd hstore (hgives _ rfl)

theorem effect_add (h : Holds place tables s.disk) (slot : Nat) (records : List Record) :
    Effect place tables s (s.step (.add slot records)) (accepted place s (.add slot records)) := by
  show Effect place tables s
    (match s.handles[slot]? with
      | none => s
      | some handle => s.update slot (((File.add handle records).run s.disk).1.map Prod.snd)
          ((File.add handle records).run s.disk).2)
    (match s.handles[slot]? with
      | none => []
      | some handle =>
        match (File.add handle records).run s.disk with
        | (.ok _, _) => if handle.store = .file place then records else []
        | (.error _, _) => [])
  cases hslot : s.handles[slot]? with
  | none => exact .refl
  | some handle =>
    by_cases hstore : handle.store = .file place
    -- on this file the room that the handle sees decides
    · cases hroom : handle.checkRoom records.length with
      | error fault =>
        simp only [Holds.run_add_error s.disk hroom]
        exact .refl
      | ok room =>
        simp only [h.run_add_ok hstore hroom, if_pos hstore]
        exact .added hslot hstore hroom
    -- a handle on another file accepts its records there, not here
    · have hnone : (match (File.add handle records).run s.disk with
          | (.ok _, _) => if handle.store = .file place then records else []
          | (.error _, _) => []) = [] := by
        split
        · exact if_neg hstore
        · rfl
      obtain ⟨hsame, hgives⟩ := add_elsewhere hstore records s.disk
      simp only [hnone]
      refine effect_elsewhere hsame fun after hafter => ?_
      obtain ⟨added, hadded, rfl⟩ := map_eq_ok hafter
      exact hgives added hadded

theorem effect_grow (h : Holds place tables s.disk) (slot : Nat) (extra : UInt64) :
    Effect place tables s (s.step (.grow slot extra)) [] := by
  show Effect place tables s
    (match s.handles[slot]? with
      | none => s
      | some handle => s.update slot ((File.grow handle extra).run s.disk).1
          ((File.grow handle extra).run s.disk).2) []
  cases hslot : s.handles[slot]? with
  | none => exact .refl
  | some handle =>
    by_cases hstore : handle.store = .file place
    · simp only [h.run_grow hstore]
      exact .grown hslot hstore
    · obtain ⟨hsame, hgives⟩ := grow_elsewhere hstore extra s.disk
      exact effect_elsewhere hsame hgives

theorem effect_load (h : Holds place tables s.disk) (path : String) :
    Effect place tables s (s.step (.load path)) [] := by
  obtain ⟨hsame, hopened⟩ := h.load path
  show Effect place tables s
    (match (File.load path).run s.disk with
      | (.ok handle, disk) => ⟨disk, s.handles ++ [handle]⟩
      | (.error _, disk) => { s with disk := disk }) []
  rcases hrun : (File.load path).run s.disk with ⟨fault | handle, after⟩
  · rw [hrun] at hsame
    exact .idle hsame fun _ hmem _ => .inl hmem
  · rw [hrun] at hsame hopened
    refine .idle hsame fun other hmem hstore => ?_
    rcases List.mem_append.mp hmem with hold | hnew
    · exact .inl hold
    · obtain rfl := List.mem_singleton.mp hnew
      exact .inr ⟨path, hopened _ rfl hstore⟩

/-- Every call on an index in a file has one of the effects, and adds the records it accepts. -/
theorem effect_step (h : Holds place tables s.disk) (call : Call) :
    Effect place tables s (s.step call) (accepted place s call) := by
  cases call with
  | add slot records => exact effect_add h slot records
  | grow slot extra => exact effect_grow h slot extra
  | query slot hash n => exact .refl
  | load path => exact effect_load h path
  | close slot => exact .idle rfl fun handle hmem _ => .inl (List.mem_of_mem_eraseIdx hmem)

end Step

/-! ## §3. The records are kept. -/

/-- The file at a place is an index that keeps the given records under a number of permutations, and
every handle on it has that number. -/
structure Keeps (place : Place) (permutations : UInt32) (kept : List Record) (s : Session) :
    Prop where
  file : ∃ tables, Holds place tables s.disk ∧ Filed permutations.toNat kept tables
    ∧ tables.readHeader permutationsKey = .ok permutations.toUInt64
  handles : ∀ handle ∈ s.handles, handle.store = .file place → handle.permutations = permutations

section Keeps

variable {place : Place} {options : Options} {s : Session}

/-- A handle has the number of permutations of the header that describes it. -/
theorem permutations_of_ofTables {path : String} {store : Store} {tables : Tables} {handle : Handle}
    {permutations : UInt32} (hheader : tables.readHeader permutationsKey = .ok permutations.toUInt64)
    (h : Handle.ofTables path store tables = .ok handle) : handle.permutations = permutations := by
  obtain ⟨capacity, stated, found, count, -, hstated, hcheck, -, rfl⟩ := ofTables_eq_ok.mp h
  obtain rfl := Except.ok.inj (hheader.symm.trans hstated)
  unfold Handle.checkPermutations at hcheck
  split at hcheck
  · rw [← Except.ok.inj hcheck, UInt32.toUInt32_toUInt64]
  · exact absurd hcheck (by simp)

/-- A new index keeps no records. -/
theorem keeps_founded (h : s.Founded place options) : Keeps place options.permutations [] s := by
  obtain ⟨path, before, handle, hnew, hcreate, hstore, hhandles⟩ := h
  obtain ⟨hvalid, rfl, hholds⟩ := create_new hcreate hstore hnew
  refine ⟨⟨newTables options, hholds, filed_newTables options,
    (headed_newTables hvalid).permutations⟩, ?_⟩
  intro other hmem _
  rw [hhandles] at hmem
  rw [List.mem_singleton.mp hmem]
  rfl

/-- A call keeps the records and adds those that it accepts. -/
theorem keeps_step {permutations : UInt32} {kept : List Record}
    (h : Keeps place permutations kept s) (call : Call) :
    Keeps place permutations (kept ++ accepted place s call) (s.step call) := by
  obtain ⟨⟨tables, hholds, hfiled, hheader⟩, hhandles⟩ := h
  have hslots : ∀ {slot : Nat} {handle : Handle}, s.handles[slot]? = some handle →
      handle.store = .file place → handle.permutations = permutations :=
    fun hslot hstore => hhandles _ (List.mem_of_getElem? hslot) hstore
  -- a handle that is put in the place of another has its number of permutations
  have hset : ∀ {slot : Nat} {new : Handle}, new.permutations = permutations →
      ∀ handle ∈ s.handles.set slot new, handle.store = .file place →
        handle.permutations = permutations := by
    intro slot new hsame handle hmem hat
    rcases List.mem_or_eq_of_mem_set hmem with hold | rfl
    · exact hhandles handle hold hat
    · exact hsame
  have heffect := effect_step hholds call
  -- from here on only the effect of the call matters
  generalize s.step call = s', accepted place s call = fresh at heffect ⊢
  cases heffect with
  | idle hsame hopen =>
    rw [List.append_nil]
    refine ⟨⟨tables, ⟨hsame.trans hholds.contents, hholds.writable⟩, hfiled, hheader⟩, ?_⟩
    intro handle hmem hat
    rcases hopen handle hmem hat with hold | ⟨path, hopened⟩
    · exact hhandles handle hold hat
    · exact permutations_of_ofTables hheader hopened
  | added hslot hstore hroom =>
    have hnumber := hslots hslot hstore
    refine ⟨⟨_, hholds.put _, ?_, ?_⟩, hset hnumber⟩
    · rw [hnumber]
      exact (hfiled.appendAll _).setHeader _ _
    · rw [readHeader_setHeader_ne _ (by decide), readHeader_appendAll, hheader]
  | grown hslot hstore =>
    have hnumber := hslots hslot hstore
    rw [List.append_nil]
    refine ⟨⟨_, hholds.put _, hfiled.setHeader _ _, ?_⟩, hset hnumber⟩
    exact (readHeader_setHeader_ne tables (by decide) _).trans hheader

theorem keeps_run {permutations : UInt32} {kept : List Record} (h : Keeps place permutations kept s)
    (calls : List Call) :
    Keeps place permutations (kept ++ stored place s calls) (s.run calls) := by
  induction calls generalizing s kept with
  | nil =>
    show Keeps place permutations (kept ++ []) s
    rw [List.append_nil]
    exact h
  | cons call calls ih =>
    -- the first call adds what it accepts, and the other calls go on from there
    have hrest := ih (keeps_step h call)
    rw [List.append_assoc] at hrest
    exact hrest

end Keeps

/-! ## §4. A first session. -/

/-- A new index `i` in an empty directory, and its handle. -/
def start (options : Options) : Session :=
  ⟨(({} : Disk).put ["i"] (.file [])).put ["i"] (indexFile (newTables options)),
    [.ofOptions "i" (.file ["i"]) options]⟩

theorem locate_start (disk : Disk) : disk.locate "i" = .ok ["i"] := by
  have hchars : "i".contains '\x00' = false := by simp
  have hsteps : Place.steps "i" = [] ++ ["i"] := rfl
  exact locate_in_directory hchars (by decide) (by decide) hsteps rfl rfl (by decide)

theorem ofPath?_start (access : Access) (h : access = .write ∨ access = .create) :
    Locator.ofPath? access "i" = some (.file "i" (access = .create)) := by
  rcases h with rfl | rfl <;> simp [Locator.ofPath?, Locator.ofName?]

theorem founded_start {options : Options} (h : options.validate = .ok ()) :
    (start options).Founded ["i"] options := by
  have hnone : ({} : Disk).lookup ["i"] = none := by decide
  have hnothing : ({} : Disk).holds "i" = false := by
    rw [Disk.holds, Disk.node, locate_start]
    rfl
  exact founded_of_locate (locate_start {})
    (create_ok h hnothing (ofPath?_start .create (.inr rfl)) rfl hnone (by decide) (by decide)) rfl rfl

/-- Opening the index gives one more handle. -/
theorem step_load_start {s : Session} {tables : Tables} {handle : Handle}
    (h : Holds ["i"] tables s.disk) (hhandle : Handle.ofTables "i" (.file ["i"]) tables = .ok handle) :
    s.step (.load "i") = ⟨s.disk, s.handles ++ [handle]⟩ := by
  have hleads : Leads "i" ["i"] s.disk :=
    h.leads (ofPath?_start .write (.inl rfl)) (locate_start s.disk) rfl
  have hrun : (File.load "i").run s.disk = (.ok handle, s.disk) := by
    rw [h.run_load hleads, hhandle]
  simp only [step, hrun]

theorem holds_start (options : Options) :
    Holds ["i"] (newTables options) (start options).disk :=
  ⟨Disk.lookup_put _ (by decide) _, by decide⟩

/-! ## §5. A session with an index that was taken over. -/

/-- Options of an index of one permutation that has room for seventeen records. -/
def smallOptions : Options := ⟨10, 1⟩

/-- Options of an index of the same capacity and one permutation more. -/
def widerOptions : Options := ⟨10, 2⟩

/-- The record of the index that is taken over. -/
def oldRecord : Record := ⟨⟨1, 2⟩, 3, 4⟩

/-- An index `i` of one permutation gets a record and is closed, and then an index of two permutations
is created at `i/`.  This path leads nowhere, since `i` is no directory, and spells the place of `i`. -/
def takenOver : Session :=
  ((start smallOptions).run [.add 0 [oldRecord], .close 0]).create "i/" widerOptions

/-- The tables of the index that was taken over. -/
def oldTables : Tables :=
  ((newTables smallOptions).appendAll 1 [oldRecord]).2.setHeader countKey 1

theorem filed_oldTables : Filed 1 [oldRecord] oldTables :=
  ((filed_newTables smallOptions).appendAll [oldRecord]).setHeader _ _

theorem holds_oldTables :
    Holds ["i"] oldTables ((start smallOptions).run [.add 0 [oldRecord], .close 0]).disk :=
  ⟨rfl, by decide⟩

/-- The index is created, and its file is the one that was there, with other options. -/
theorem create_takenOver :
    (File.create "i/" widerOptions).run
        ((start smallOptions).run [.add 0 [oldRecord], .close 0]).disk
      = (.ok (.ofOptions "i/" (.file ["i"]) widerOptions),
        ((start smallOptions).run [.add 0 [oldRecord], .close 0]).disk.put ["i"]
          (indexFile (oldTables.retitled widerOptions))) := by
  have hlocator : Locator.ofPath? .create ("i" ++ "/") = some (.file ("i" ++ "/") true) := by
    simp [Locator.ofPath?, Locator.ofName?]
  exact holds_oldTables.create_slash rfl (locate_start _) hlocator

theorem takenOver_eq : takenOver = ⟨((start smallOptions).run
      [.add 0 [oldRecord], .close 0]).disk.put ["i"] (indexFile (oldTables.retitled widerOptions)),
    [.ofOptions "i/" (.file ["i"]) widerOptions]⟩ := by
  have hclosed : ((start smallOptions).run [.add 0 [oldRecord], .close 0]).handles = [] := rfl
  rw [takenOver, create, create_takenOver, hclosed]
  rfl

/-- The session begins with an index that was created. -/
theorem begun_takenOver : takenOver.Begun ["i"] widerOptions := by
  rw [takenOver_eq]
  exact ⟨_, _, _, create_takenOver, rfl, rfl⟩

theorem holds_takenOver : Holds ["i"] (oldTables.retitled widerOptions) takenOver.disk := by
  rw [takenOver_eq]
  exact holds_oldTables.put _

theorem eq_of_mem_takenOver {handle : Handle} (h : handle ∈ takenOver.handles) :
    handle = .ofOptions "i/" (.file ["i"]) widerOptions := by
  rw [takenOver_eq] at h
  exact List.mem_singleton.mp h

theorem mem_takenOver :
    .ofOptions "i/" (.file ["i"]) widerOptions ∈ takenOver.handles := by
  rw [takenOver_eq]
  exact List.mem_singleton_self _

/-- The record has the entry of the one permutation that the index had. -/
theorem filed_takenOver : Filed 1 [oldRecord] (oldTables.retitled widerOptions) :=
  filed_oldTables.retitled widerOptions

theorem records_takenOver {handle : Handle} (h : handle ∈ takenOver.handles) :
    File.records handle takenOver.disk = .ok (numbered [oldRecord]) := by
  obtain rfl := eq_of_mem_takenOver h
  rw [File.records, ← filed_takenOver.toList_records]
  exact congrArg _ holds_takenOver.tables_eq

/-- A hash that differs from that of the old record at one place.  Of the two permutations the first
carries this place to a leading one. -/
def nearHash : SimHash := ⟨1, 0x80000000002⟩

theorem shares_nearHash : Shares 2 nearHash oldRecord.hash :=
  ⟨1, by decide, by decide⟩

theorem not_shares_nearHash : ¬ Shares 1 nearHash oldRecord.hash := by
  rintro ⟨k, hk, hlead⟩
  obtain rfl : k = 0 := by omega
  exact absurd hlead (by decide)

/-! ## §6. Answers. -/

section Answers

variable {place : Place} {options : Options} {s : Session}

/-- A query reads the tables of its handle; it needs them only if hits are asked for. -/
theorem query_eq_of_tables {handle : Handle} {tables : Tables} {disk : Disk}
    (h : File.tables handle.store disk = .ok tables) (hash : SimHash) (n : Nat) :
    File.query handle hash n disk = handle.query hash n tables := by
  unfold File.query
  split
  next hzero =>
    rw [hzero, Handle.query, List.take_zero]
    rfl
  next => rw [h]

/-- The handles on a file that ask under one number of permutations answer from one complete ranking of
the records that its tables file. -/
theorem Holds.answers {tables : Tables} {disk : Disk} {permutations : Nat} {kept : List Record}
    (h : Holds place tables disk) (hfiled : Filed permutations kept tables) (asked : UInt32)
    (hash : SimHash) :
    ∃ hits, IsRanking (min asked.toNat permutations) hash kept hits
      ∧ ∀ handle : Handle, handle.store = .file place → handle.permutations = asked →
        ∀ n, File.query handle hash n disk = .ok (hits.take n) := by
  obtain ⟨hits, hranking, hfetch⟩ := exists_ranking hfiled asked.toNat hash
  refine ⟨hits, hranking, fun handle hstore hasked n => ?_⟩
  rw [query_eq_of_tables (by rw [hstore, h.tables_eq]), Handle.query, hasked, hfetch n]

/-- Every handle on a file that keeps records answers from the one complete ranking of them. -/
theorem Keeps.answers {permutations : UInt32} {kept : List Record}
    (h : Keeps place permutations kept s) (hash : SimHash) :
    ∃ tables hits, File.tables (.file place) s.disk = .ok tables
      ∧ Filed permutations.toNat kept tables ∧ IsRanking permutations.toNat hash kept hits
      ∧ ∀ handle ∈ s.handles, handle.store = .file place →
        ∀ n, File.query handle hash n s.disk = .ok (hits.take n) := by
  obtain ⟨⟨tables, hholds, hfiled, -⟩, hhandles⟩ := h
  obtain ⟨hits, hranking, hanswer⟩ := Holds.answers hholds hfiled permutations hash
  rw [Nat.min_self] at hranking
  exact ⟨tables, hits, hholds.tables_eq, hfiled, hranking, fun handle hmem hstore =>
    hanswer handle hstore (hhandles handle hmem hstore)⟩

/-- After any calls on a new index, every open handle lists the records that were accepted, and
answers every query with the first hits of the one complete ranking of them. -/
theorem query_answers (h : s.Founded place options) (calls : List Call) (hash : SimHash) :
    ∃ hits, IsRanking options.permutations.toNat hash (stored place s calls) hits
      ∧ ∀ handle ∈ (s.run calls).handles, handle.store = .file place →
        File.records handle (s.run calls).disk = .ok (numbered (stored place s calls))
        ∧ (∀ n, File.query handle hash n (s.run calls).disk = .ok (hits.take n))
        ∧ ∀ {n m short long}, n ≤ m →
          File.query handle hash n (s.run calls).disk = .ok short →
          File.query handle hash m (s.run calls).disk = .ok long → short <+: long := by
  have hkeeps := keeps_run (keeps_founded h) calls
  rw [List.nil_append] at hkeeps
  obtain ⟨tables, hits, htables, hfiled, hranking, hquery⟩ := hkeeps.answers hash
  refine ⟨hits, hranking, fun handle hmem hstore => ⟨?_, hquery handle hmem hstore, ?_⟩⟩
  · rw [File.records, hstore, htables, ← hfiled.toList_records]
    rfl
  · intro n m short long hle hshort hlong
    rw [hquery handle hmem hstore] at hshort hlong
    rw [← Except.ok.inj hshort, ← Except.ok.inj hlong]
    exact List.take_prefix_take_left hle

/-- One handle more on a new index, and a record through each of the two. -/
def twoHandles : List Call :=
  [.load "i", .add 0 [⟨⟨1, 2⟩, 3, 4⟩], .add 1 [⟨⟨1, 3⟩, 3, 5⟩]]

theorem step_load_new {options : Options} (h : options.validate = .ok ()) :
    (start options).step (.load "i") = ⟨(start options).disk,
      [.ofOptions "i" (.file ["i"]) options, .ofOptions "i" (.file ["i"]) options]⟩ := by
  obtain ⟨-, hmin, hmax⟩ := validate_eq_ok h
  exact step_load_start (holds_start options) ((headed_newTables h).ofTables hmin hmax _ _)

theorem query_answers_two_handles :
    (start {}).Founded ["i"] {}
      ∧ stored ["i"] (start {}) twoHandles = [⟨⟨1, 2⟩, 3, 4⟩, ⟨⟨1, 3⟩, 3, 5⟩]
      ∧ ∃ hits, IsRanking 28 ⟨1, 3⟩ (stored ["i"] (start {}) twoHandles) hits
        ∧ ∀ handle ∈ ((start {}).run twoHandles).handles, handle.store = .file ["i"] →
          ∀ n, File.query handle ⟨1, 3⟩ n ((start {}).run twoHandles).disk = .ok (hits.take n) := by
  have hnew : (start {}).Founded ["i"] {} := founded_start rfl
  refine ⟨hnew, ?_, ?_⟩
  · show stored ["i"] ((start {}).step (.load "i")) _ = _
    rw [step_load_new rfl]
    rfl
  · obtain ⟨hits, hranking, hanswer⟩ := query_answers hnew twoHandles ⟨1, 3⟩
    exact ⟨hits, hranking, fun handle hmem hat => (hanswer handle hmem hat).2.1⟩

/-- The index that was taken over lists its record, and yet there are no records, whichever they are,
of which every answer is the ranking: its record is found by its own hash, and missed by a hash with
which it shares leading places under the second permutation. -/
theorem query_answers_taken_over :
    takenOver.Begun ["i"] widerOptions
      ∧ (∀ handle ∈ takenOver.handles,
        File.records handle takenOver.disk = .ok (numbered [oldRecord]))
      ∧ ¬ ∃ kept, ∀ hash, ∃ hits, IsRanking widerOptions.permutations.toNat hash kept hits
        ∧ ∀ handle ∈ takenOver.handles, ∀ n,
          File.query handle hash n takenOver.disk = .ok (hits.take n) := by
  refine ⟨begun_takenOver, fun handle hmem => records_takenOver hmem, ?_⟩
  rintro ⟨kept, hkept⟩
  -- the answers are the rankings of the old record under the permutation that it was filed under
  have hboth : ∀ hash, ∃ hits, IsRanking 1 hash [oldRecord] hits ∧ IsRanking 2 hash kept hits := by
    intro hash
    obtain ⟨hits, hranking, hquery⟩ := hkept hash
    obtain ⟨others, hothers, hanswer⟩ :=
      Holds.answers holds_takenOver filed_takenOver widerOptions.permutations hash
    have hsame := (hanswer _ rfl rfl (others.length + hits.length)).symm.trans
      (hquery _ mem_takenOver (others.length + hits.length))
    rw [List.take_of_length_le (by omega), List.take_of_length_le (by omega)] at hsame
    obtain rfl := Except.ok.inj hsame
    exact ⟨others, hothers, hranking⟩
  -- the old record is one of the records, since its own hash finds it
  obtain ⟨hits, hold, hall⟩ := hboth oldRecord.hash
  have hfound : Hit.of oldRecord.hash 1 oldRecord ∈ hits :=
    hold.mem_iff.mpr ⟨1, _, List.mem_singleton_self _, ⟨0, by decide, rfl⟩, rfl⟩
  obtain ⟨id, record, hrecord, -, hof⟩ := hall.mem_iff.mp hfound
  obtain ⟨rfl, rfl⟩ : 1 = id ∧ oldRecord = record := Prod.mk.inj (congrArg Hit.entry hof)
  -- so the other hash is to find it as well, and does not
  obtain ⟨missing, hold', hall'⟩ := hboth nearHash
  obtain ⟨_, _, hmem, hshares, -⟩ :=
    hold'.mem_iff.mp (hall'.mem_iff.mpr ⟨1, oldRecord, hrecord, shares_nearHash, rfl⟩)
  obtain ⟨rfl, rfl⟩ := Prod.mk.inj (List.mem_singleton.mp hmem)
  exact not_shares_nearHash hshares

end Answers

end Session

end Flowprint.Index
