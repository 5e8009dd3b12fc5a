/-
  Flowprint.Proofs.Index.Writers
  ────────────────────────────────
  Several handles open on one index, whose calls are made one at a time.

  A handle writes the count and the capacity that it goes by itself, and does not look at those of the
  header.  A writer is current if the two are the same.  As long as every writer is current, the
  header counts the records, has all the capacity that was added, and the records are within it.  A
  handle that is opened is current, and a writer stays current until another handle writes.  Calls
  made one at a time are not enough: a handle that is not current overwrites what others have counted.

  Main statements:

      outcome_step           what a call does to an index, said of the handle that writes
      accounted_step         a current writer keeps the header right
      header_right           with current writers the header is right after every call
      header_wrong           two writers in turn, one of them not current
-/
import Flowprint.Proofs.Index.Batches

namespace Flowprint.Index.Session

/-! ## §1. Writers. -/

/-- The handle on the file at a place through which a call writes. -/
def writer? (place : Place) (s : Session) : Call → Option Handle
  | .add slot _ => s.handles[slot]?.filter fun handle => handle.store = .file place
  | .grow slot _ => s.handles[slot]?.filter fun handle => handle.store = .file place
  | _ => none

/-- The bytes of capacity that a call adds to the file at a place. -/
def extraOf (place : Place) (s : Session) : Call → Nat
  | .grow slot extra => if (writer? place s (.grow slot extra)).isSome then extra.toNat else 0
  | _ => 0

/-- The bytes of capacity that some calls add to the file at a place. -/
def extras (place : Place) (s : Session) : List Call → Nat
  | [] => 0
  | call :: rest => extraOf place s call + extras place (s.step call) rest

/-- What a call does to the index at a place, with the records and the bytes of capacity that it
adds. -/
inductive Outcome (place : Place) (tables : Tables) (s : Session) :
    Call → Session → List Record → Nat → Prop
  /-- The call writes elsewhere or nowhere. -/
  | elsewhere {call : Call} {s' : Session} (hwriter : writer? place s call = none)
      (hsame : s'.disk.lookup place = s.disk.lookup place) :
      Outcome place tables s call s' [] 0
  /-- A batch for which its writer has no room. -/
  | refused {slot : Nat} {records : List Record} : Outcome place tables s (.add slot records) s [] 0
  /-- A batch that its writer stores and counts. -/
  | added {slot : Nat} {records : List Record} {handle : Handle} {handles : List Handle}
      (hwriter : writer? place s (.add slot records) = some handle)
      (hroom : handle.checkRoom records.length = .ok ()) :
      Outcome place tables s (.add slot records)
        ⟨s.disk.put place (indexFile (handle.tablesAfter records tables)), handles⟩ records 0
  /-- Capacity that its writer adds to its own. -/
  | grown {slot : Nat} {extra : UInt64} {handle : Handle} {handles : List Handle}
      (hwriter : writer? place s (.grow slot extra) = some handle) :
      Outcome place tables s (.grow slot extra)
        ⟨s.disk.put place (indexFile (handle.grow extra tables).2), handles⟩ [] extra.toNat

section Step

variable {place : Place} {tables : Tables} {s : Session} {slot : Nat}

theorem writer?_filter {handle : Handle} (hslot : s.handles[slot]? = some handle)
    (hstore : handle.store = .file place) :
    s.handles[slot]?.filter (fun handle => handle.store = .file place) = some handle := by
  rw [hslot, Option.filter_some, if_pos (by simpa using hstore)]

theorem writer?_filter_none (h : ∀ handle, s.handles[slot]? = some handle →
    handle.store ≠ .file place) :
    s.handles[slot]?.filter (fun handle => handle.store = .file place) = none := by
  rw [Option.filter_eq_none_iff]
  intro handle hslot
  simpa using h handle hslot

/-- An operation leaves its disk, whether it succeeds or not. -/
theorem disk_update (outcome : Except Fault Handle) (disk : Disk) :
    (s.update slot outcome disk).disk = disk := by
  cases outcome with
  | error fault => rfl
  | ok handle => rfl

theorem outcome_add (h : Holds place tables s.disk) (slot : Nat) (records : List Record) :
    Outcome place tables s (.add slot records) (s.step (.add slot records))
      (accepted place s (.add slot records)) 0 := by
  rcases hslot : s.handles[slot]? with _ | handle
  · have hwriter : writer? place s (.add slot records) = none :=
      writer?_filter_none (fun handle hsome => absurd (hslot.symm.trans hsome) (by simp))
    simp only [step, accepted, hslot]
    exact .elsewhere hwriter rfl
  · by_cases hstore : handle.store = .file place
    · have hwriter : writer? place s (.add slot records) = some handle :=
        writer?_filter hslot hstore
      cases hroom : handle.checkRoom records.length with
      | error fault =>
        simp only [step, accepted, hslot, Holds.run_add_error s.disk hroom]
        exact .refused
      | ok room =>
        simp only [step, accepted, hslot, h.run_add_ok hstore hroom, if_pos hstore]
        exact .added hwriter hroom
    · have hwriter : writer? place s (.add slot records) = none :=
        writer?_filter_none fun other hsome => by
          rw [← Option.some.inj (hslot.symm.trans hsome)]
          exact hstore
      have hsame := (add_elsewhere hstore records s.disk).1
      rcases hrun : (File.add handle records).run s.disk with ⟨fault | added, after⟩
      · rw [hrun] at hsame
        simp only [step, accepted, hslot, hrun]
        exact .elsewhere hwriter hsame
      · rw [hrun] at hsame
        simp only [step, accepted, hslot, hrun, if_neg hstore]
        exact .elsewhere hwriter hsame

theorem outcome_grow (h : Holds place tables s.disk) (slot : Nat) (extra : UInt64) :
    Outcome place tables s (.grow slot extra) (s.step (.grow slot extra)) []
      (extraOf place s (.grow slot extra)) := by
  rcases hslot : s.handles[slot]? with _ | handle
  · have hwriter : writer? place s (.grow slot extra) = none :=
      writer?_filter_none (fun handle hsome => absurd (hslot.symm.trans hsome) (by simp))
    simp only [step, extraOf, hslot, hwriter]
    exact .elsewhere hwriter rfl
  · by_cases hstore : handle.store = .file place
    · have hwriter : writer? place s (.grow slot extra) = some handle :=
        writer?_filter hslot hstore
      simp only [step, extraOf, hslot, hwriter, h.run_grow hstore, Option.isSome_some, if_true]
      exact .grown hwriter
    · have hwriter : writer? place s (.grow slot extra) = none :=
        writer?_filter_none fun other hsome => by
          rw [← Option.some.inj (hslot.symm.trans hsome)]
          exact hstore
      have hsame := (grow_elsewhere hstore extra s.disk).1
      rcases hrun : (File.grow handle extra).run s.disk with ⟨outcome, after⟩
      rw [hrun] at hsame
      simp only [step, extraOf, hslot, hwriter, hrun]
      refine .elsewhere hwriter ?_
      rw [disk_update]
      exact hsame

/-- Every call has one of the outcomes. -/
theorem outcome_step (h : Holds place tables s.disk) (call : Call) :
    Outcome place tables s call (s.step call) (accepted place s call) (extraOf place s call) := by
  cases call with
  | add slot records => exact outcome_add h slot records
  | grow slot extra => exact outcome_grow h slot extra
  | query slot hash n => exact .elsewhere rfl rfl
  | load path =>
    refine .elsewhere rfl ?_
    have hsame := (h.load path).same
    simp only [step]
    split
    next handle after hrun =>
      rw [hrun] at hsame
      exact hsame
    next fault after hrun =>
      rw [hrun] at hsame
      exact hsame
  | close slot => exact .elsewhere rfl rfl

end Step

/-! ## §2. Current writers. -/

/-- A handle on the file at a place that goes by the count and the capacity of its header. -/
def Current (place : Place) (disk : Disk) (handle : Handle) : Prop :=
  ∃ tables, File.tables (.file place) disk = .ok tables
    ∧ tables.readHeader countKey = .ok handle.count
    ∧ tables.readHeader capacityKey = .ok handle.capacity

/-- A handle that is opened is current. -/
theorem Current.of_ofTables {place : Place} {disk : Disk} (path : String) (store : Store)
    {handle : Handle}
    (h : (File.tables (.file place) disk).bind (Handle.ofTables path store) = .ok handle) :
    Current place disk handle := by
  obtain ⟨tables, htables, hopened⟩ := bind_eq_ok h
  obtain ⟨_, _, _, _, hcapacity, -, -, hcount, rfl⟩ := ofTables_eq_ok.mp hopened
  exact ⟨tables, htables, hcount, hcapacity⟩

/-- Every call that writes to the file at a place does so through a handle that is current. -/
def InTurn (place : Place) (s : Session) : List Call → Prop
  | [] => True
  | call :: rest =>
    (∀ handle, writer? place s call = some handle → Current place s.disk handle)
      ∧ InTurn place (s.step call) rest

theorem inTurn_take {place : Place} {s : Session} {calls : List Call} (h : s.InTurn place calls)
    (k : Nat) : s.InTurn place (calls.take k) := by
  induction calls generalizing s k with
  | nil => rw [List.take_nil]; trivial
  | cons call calls ih =>
    cases k with
    | zero => trivial
    | succ k => exact ⟨h.1, ih h.2 k⟩

/-- The header counts the records and has the capacity that was provided, and the records are within
it. -/
structure Accounted (place : Place) (permutations : UInt32) (records provided : Nat) (s : Session)
    (tables : Tables) (capacity : UInt64) : Prop where
  holds : Holds place tables s.disk
  count : tables.readHeader countKey = .ok (.ofNat records)
  space : tables.readHeader capacityKey = .ok capacity
  provided : capacity.toNat = min provided maxHeader.toNat
  budget : records * recordCost permutations ≤ capacity.toNat

section Accounted

variable {place : Place} {permutations : UInt32} {kept : List Record} {provided : Nat} {s : Session}
  {tables : Tables} {capacity : UInt64}

/-- A current writer goes by the numbers of the header. -/
theorem Accounted.of_current {records : Nat}
    (h : Accounted place permutations records provided s tables capacity) {handle : Handle}
    (hcurrent : Current place s.disk handle) :
    handle.count = .ofNat records ∧ handle.capacity = capacity := by
  obtain ⟨found, hfound, hcount, hcapacity⟩ := hcurrent
  obtain rfl := Except.ok.inj (hfound.symm.trans h.holds.tables_eq)
  exact ⟨Except.ok.inj (hcount.symm.trans h.count),
    Except.ok.inj (hcapacity.symm.trans h.space)⟩

/-- A writer is an open handle on the file. -/
theorem mem_of_writer {call : Call} {handle : Handle} (h : writer? place s call = some handle) :
    handle ∈ s.handles ∧ handle.store = .file place := by
  have hfilter : ∀ slot : Nat, s.handles[slot]?.filter (fun handle => handle.store = .file place)
      = some handle → handle ∈ s.handles ∧ handle.store = .file place := by
    intro slot hsome
    obtain ⟨hslot, hstore⟩ := Option.filter_eq_some_iff.mp hsome
    exact ⟨List.mem_of_getElem? hslot, by simpa using hstore⟩
  cases call with
  | add slot records => exact hfilter slot h
  | grow slot extra => exact hfilter slot h
  | query slot hash n => exact absurd h (by simp [writer?])
  | load path => exact absurd h (by simp [writer?])
  | close slot => exact absurd h (by simp [writer?])

/-- A current writer keeps the header right. -/
theorem accounted_step (hkeeps : Keeps place permutations kept s)
    (h : Accounted place permutations kept.length provided s tables capacity) {call : Call}
    (hturn : ∀ handle, writer? place s call = some handle → Current place s.disk handle) :
    ∃ tables' capacity', Accounted place permutations (kept ++ accepted place s call).length
      (provided + extraOf place s call) (s.step call) tables' capacity' := by
  have hrange : capacity.toNat ≤ maxHeader.toNat := by
    rw [h.provided]
    exact Nat.min_le_right _ _
  have houtcome := outcome_step h.holds call
  -- from here on only the outcome of the call matters
  generalize s.step call = s', accepted place s call = fresh, extraOf place s call = more
    at houtcome ⊢
  cases houtcome with
  | elsewhere hwriter hsame =>
    rw [List.append_nil]
    exact ⟨tables, capacity, ⟨hsame.trans h.holds.contents, h.holds.writable⟩, h.count, h.space,
      h.provided, h.budget⟩
  | refused =>
    rw [List.append_nil]
    exact ⟨tables, capacity, h⟩
  | @added slot fresh handle handles hwriter hroom =>
    obtain ⟨hcount, hcapacity⟩ := h.of_current (hturn handle hwriter)
    obtain ⟨hmem, hstore⟩ := mem_of_writer hwriter
    have hpermutations := hkeeps.handles handle hmem hstore
    -- the writer counts the records that the file has, so that its room is the file's room
    have hkept : handle.count.toNat = kept.length := by
      rw [hcount]
      exact toNat_count (count_le h.budget hrange)
    have hfits : (kept ++ fresh).length * recordCost permutations ≤ capacity.toNat := by
      rw [← hcapacity] at hrange
      rcases (Handle.checkRoom_eq_ok hrange).mp hroom with hnone | hfits
      · rw [List.length_append, hnone]
        exact h.budget
      · rw [hkept, hpermutations, hcapacity, ← List.length_append] at hfits
        exact hfits
    have hnext : (handle.counting fresh.length).count = .ofNat (kept ++ fresh).length := by
      rw [List.length_append, UInt64.ofNat_add, ← hcount]
      rfl
    refine ⟨_, capacity, h.holds.put _, ?_, ?_, h.provided, hfits⟩
    · rw [Handle.tablesAfter, hnext]
      have hlast := count_le hfits hrange
      exact Tables.readHeader_setHeader _ _ (toInt64_nonneg (by rw [toNat_count hlast]; exact hlast))
    · rw [Handle.tablesAfter, readHeader_setHeader_ne _ (by decide), readHeader_appendAll]
      exact h.space
  | @grown slot extra handle handles hwriter =>
    obtain ⟨-, hcapacity⟩ := h.of_current (hturn handle hwriter)
    have hgrown : (min (satAdd handle.capacity extra) maxHeader).toNat
        = min (capacity.toNat + extra.toNat) maxHeader.toNat := by
      rw [Handle.toNat_grown, hcapacity]
    have hprovided := h.provided
    have hbudget := h.budget
    rw [List.append_nil]
    refine ⟨_, min (satAdd handle.capacity extra) maxHeader, h.holds.put _, ?_, ?_, by omega,
      by omega⟩
    · exact (readHeader_setHeader_ne tables (by decide) _).trans h.count
    · exact Tables.readHeader_setHeader tables _ (toInt64_nonneg (by omega))

theorem accounted_run (hkeeps : Keeps place permutations kept s)
    (h : Accounted place permutations kept.length provided s tables capacity) {calls : List Call}
    (hturn : s.InTurn place calls) :
    ∃ tables' capacity', Accounted place permutations (kept ++ stored place s calls).length
      (provided + extras place s calls) (s.run calls) tables' capacity' := by
  induction calls generalizing s kept provided tables capacity with
  | nil =>
    refine ⟨tables, capacity, ?_⟩
    show Accounted place permutations (kept ++ []).length (provided + 0) s tables capacity
    rw [List.append_nil]
    exact h
  | cons call calls ih =>
    obtain ⟨tables', capacity', hstep⟩ := accounted_step hkeeps h hturn.1
    have hrest := ih (keeps_step hkeeps call) hstep hturn.2
    rw [List.append_assoc, Nat.add_assoc] at hrest
    exact hrest

end Accounted

/-! ## §3. The header with several writers. -/

section Header

variable {place : Place} {options : Options} {s : Session}

theorem accounted_founded (h : s.Founded place options) :
    Accounted place options.permutations ([] : List Record).length options.capacity.toNat s
      (newTables options) options.capacity := by
  have hbalanced := balanced_founded h
  exact ⟨hbalanced.holds, hbalanced.headed.count, hbalanced.headed.capacity,
    (Nat.min_eq_left hbalanced.range).symm, hbalanced.budget⟩

/-- After every call on a new index, through any number of handles of which every writer is current,
the header counts the records of the file and has all the capacity that was added, and the records
are within it. -/
theorem header_right (h : s.Founded place options) {calls : List Call}
    (hturn : s.InTurn place calls) (k : Nat) :
    ∃ tables count capacity,
      (s.run (calls.take k)).disk.lookup place = some (indexFile tables)
      ∧ tables.records.toList = numbered (stored place s (calls.take k))
      ∧ tables.readHeader countKey = .ok count ∧ count.toNat = tables.records.size
      ∧ tables.readHeader capacityKey = .ok capacity
      ∧ capacity.toNat
        = min (options.capacity.toNat + extras place s (calls.take k)) maxHeader.toNat
      ∧ tables.records.size * recordCost options.permutations ≤ capacity.toNat := by
  obtain ⟨tables, capacity, haccounted⟩ :=
    accounted_run (keeps_founded h) (accounted_founded h) (inTurn_take hturn k)
  obtain ⟨found, hholds, hfiled, -⟩ := (keeps_run (keeps_founded h) (calls.take k)).file
  obtain rfl := Except.ok.inj (hholds.tables_eq.symm.trans haccounted.holds.tables_eq)
  rw [List.nil_append] at haccounted hfiled
  have hrange : capacity.toNat ≤ maxHeader.toNat := by
    rw [haccounted.provided]
    exact Nat.min_le_right _ _
  refine ⟨found, _, capacity, hholds.contents, hfiled.toList_records, haccounted.count, ?_,
    haccounted.space, haccounted.provided, ?_⟩
  · rw [hfiled.size_records]
    exact toNat_count (count_le haccounted.budget hrange)
  · rw [hfiled.size_records]
    exact haccounted.budget

/-- A record and some capacity through each of two handles that are open at the same time. -/
def twoWriters : List Call :=
  [.load "i", .add 0 [⟨⟨0, 1⟩, 1, 16⟩], .add 1 [⟨⟨0, 2⟩, 1, 32⟩], .grow 0 100, .grow 1 50]

/-- Each of two writers overwrites what the other has counted and grown: two records are stored, and
the header counts one; 150 bytes were added, and the header has 50 of them. -/
theorem header_wrong_two_writers :
    (start {}).Founded ["i"] {}
      ∧ stored ["i"] (start {}) twoWriters = [⟨⟨0, 1⟩, 1, 16⟩, ⟨⟨0, 2⟩, 1, 32⟩]
      ∧ extras ["i"] (start {}) twoWriters = 150
      ∧ ∃ tables, ((start {}).run twoWriters).disk.lookup ["i"] = some (indexFile tables)
        ∧ tables.records.size = 2 ∧ tables.readHeader countKey = .ok 1
        ∧ tables.readHeader capacityKey = .ok (({} : Options).capacity + 50) := by
  have hnew : (start {}).Founded ["i"] {} := founded_start rfl
  have hopen : (start {}).step (.load "i") = ⟨(start {}).disk,
      [.ofOptions "i" (.file ["i"]) {}, .ofOptions "i" (.file ["i"]) {}]⟩ := step_load_new rfl
  have hstored : stored ["i"] (start {}) twoWriters = [⟨⟨0, 1⟩, 1, 16⟩, ⟨⟨0, 2⟩, 1, 32⟩] := by
    show stored ["i"] ((start {}).step (.load "i")) _ = _
    rw [hopen]
    rfl
  have hextras : extras ["i"] (start {}) twoWriters = 150 := by
    show 0 + extras ["i"] ((start {}).step (.load "i")) _ = _
    rw [hopen]
    rfl
  have hcount : (File.tables (.file ["i"]) ((start {}).run twoWriters).disk).bind
      (·.readHeader countKey) = .ok 1 := by
    show (File.tables _ (((start {}).step (.load "i")).run _).disk).bind _ = _
    rw [hopen]
    rfl
  have hcapacity : (File.tables (.file ["i"]) ((start {}).run twoWriters).disk).bind
      (·.readHeader capacityKey) = .ok (({} : Options).capacity + 50) := by
    show (File.tables _ (((start {}).step (.load "i")).run _).disk).bind _ = _
    rw [hopen]
    rfl
  obtain ⟨tables, hholds, hfiled, -⟩ := (keeps_run (keeps_founded hnew) twoWriters).file
  rw [List.nil_append, hstored] at hfiled
  rw [hholds.tables_eq] at hcount hcapacity
  exact ⟨hnew, hstored, hextras, tables, hholds.contents, hfiled.size_records, hcount, hcapacity⟩

/-- A record through the first of two open handles, capacity through the same, then a third handle,
which is opened after them and stores a record. -/
def currentWriters : List Call :=
  [.load "i", .add 0 [⟨⟨0, 1⟩, 1, 16⟩], .grow 0 100, .load "i", .add 2 [⟨⟨0, 2⟩, 1, 32⟩]]

theorem inTurn_currentWriters : (start {}).InTurn ["i"] currentWriters := by
  have hnew : (start {}).Founded ["i"] {} := founded_start rfl
  have hkeeps := keeps_step (keeps_founded hnew) (.load "i")
  refine ⟨fun _ hwriter => absurd hwriter (by simp [writer?]), ?_⟩
  rw [step_load_new rfl] at hkeeps ⊢
  -- the first handle is current at its first call, and still at its second
  refine ⟨fun handle hwriter => ?_, fun handle hwriter => ?_,
    fun _ hwriter => absurd hwriter (by simp [writer?]), ?_⟩
  · obtain rfl := Option.some.inj ((rfl : writer? ["i"] _ _ = some _).symm.trans hwriter)
    exact .of_ofTables "i" (.file ["i"]) rfl
  · obtain rfl := Option.some.inj ((rfl : writer? ["i"] _ _ = some _).symm.trans hwriter)
    exact .of_ofTables "i" (.file ["i"]) rfl
  · -- the third handle is current because it was opened last
    obtain ⟨tables, hholds, -⟩ :=
      (keeps_step (keeps_step hkeeps (.add 0 [⟨⟨0, 1⟩, 1, 16⟩])) (.grow 0 100)).file
    have hopened : (Except.ok tables).bind (Handle.ofTables "i" (.file ["i"]))
        = .ok ⟨"i", .file ["i"], ({} : Options).capacity + 100, 28, 1⟩ := by
      rw [← hholds.tables_eq]
      rfl
    rw [step_load_start hholds hopened]
    refine ⟨fun handle hwriter => ?_, trivial⟩
    obtain rfl := Option.some.inj ((rfl : writer? ["i"] _ _ = some _).symm.trans hwriter)
    exact .of_ofTables "i" (.file ["i"]) rfl

theorem header_right_three_handles :
    (start {}).Founded ["i"] {} ∧ (start {}).InTurn ["i"] currentWriters
      ∧ ∃ tables count, ((start {}).run currentWriters).disk.lookup ["i"] = some (indexFile tables)
        ∧ tables.readHeader countKey = .ok count ∧ count.toNat = tables.records.size := by
  have hnew : (start {}).Founded ["i"] {} := founded_start rfl
  obtain ⟨tables, count, -, hfile, -, hcount, hrows, -⟩ :=
    header_right hnew inTurn_currentWriters 5
  exact ⟨hnew, inTurn_currentWriters, tables, count, hfile, hcount, hrows⟩

end Header

end Flowprint.Index.Session
