/-
  Flowprint.Proofs.Index.Ledger
  ────────────────────────────────
  The books of an index, with one handle open at a time.

  The header, the tables and the open handle each say how many records there are, and the capacity
  bounds what the records cost.  `Balanced` is the invariant: they all say the same, and the records
  are within the budget.  Several handles at a time would each count only their own records, so that
  one handle open at a time is what the invariant needs.  It also needs an index that began as a new
  one: the handle of an index that was taken over counts none of the records that were there.

  Main statements:

      fits_of_checkRoom   a batch for which there is room stays within the budget
      balanced_step       a call keeps the books in balance
      books_agree         what the file and its handles say after any calls
-/
import Flowprint.Proofs.Index.Session

namespace Flowprint.Index

/-! ## §1. The budget of a handle. -/

/-- The bytes that a record and its entries cost. -/
def recordCost (permutations : UInt32) : Nat :=
  32 + 25 * permutations.toNat

namespace Handle

variable {handle : Handle}

theorem toNat_bytesPerRecord (handle : Handle) :
    handle.bytesPerRecord.toNat = recordCost handle.permutations := by
  have hsmall : handle.permutations.toNat < 2 ^ 32 := handle.permutations.toNat_lt
  show (recordBytes + entryBytes * handle.permutations.toUInt64).toNat = _
  rw [UInt64.toNat_add, UInt64.toNat_mul, UInt32.toNat_toUInt64]
  show (32 + 25 * handle.permutations.toNat % 2 ^ 64) % 2 ^ 64 = 32 + 25 * handle.permutations.toNat
  omega

/-- Records within the budget are spent exactly. -/
theorem toNat_used (h : handle.count.toNat * recordCost handle.permutations
    ≤ handle.capacity.toNat) :
    handle.used.toNat = handle.count.toNat * recordCost handle.permutations := by
  have hcapacity : handle.capacity.toNat < UInt64.size := handle.capacity.toNat_lt_size
  rw [used, toNat_satMul, toNat_bytesPerRecord]
  omega

theorem used_add_free (h : handle.count.toNat * recordCost handle.permutations
    ≤ handle.capacity.toNat) :
    handle.used.toNat + handle.free.toNat = handle.capacity.toNat := by
  rw [free, toNat_satSub, toNat_used h]
  omega

/-- A batch for which there is room stays within the budget. -/
theorem fits_of_checkRoom {n : Nat} (h : handle.count.toNat * recordCost handle.permutations
    ≤ handle.capacity.toNat) (hrange : handle.capacity.toNat ≤ maxHeader.toNat)
    (hroom : handle.checkRoom n = .ok ()) :
    (handle.count.toNat + n) * recordCost handle.permutations ≤ handle.capacity.toNat := by
  have hmax : maxHeader.toNat = 2 ^ 63 - 1 := rfl
  have hsize : UInt64.size = 2 ^ 64 := rfl
  have hcost : 1 ≤ recordCost handle.permutations := by unfold recordCost; omega
  have henough : (handle.cost n).toNat ≤ handle.free.toNat := by
    unfold checkRoom at hroom
    split at hroom
    · exact absurd hroom (by simp)
    next hnot =>
      rw [UInt64.lt_iff_toNat_lt] at hnot
      omega
  have hbalance := used_add_free h
  rw [toNat_used h] at hbalance
  rw [cost, toNat_satMul, toNat_bytesPerRecord, toNat_clampWord] at henough
  -- neither product is cut off, since the largest word is beyond the capacity
  have hproduct : min n (UInt64.size - 1) * recordCost handle.permutations ≤ handle.free.toNat := by
    omega
  have hwhole : min n (UInt64.size - 1) = n := by
    by_cases hbig : n ≤ UInt64.size - 1
    · exact Nat.min_eq_left hbig
    · rw [Nat.min_eq_right (by omega)] at hproduct
      have hle := Nat.mul_le_mul_left (UInt64.size - 1) hcost
      omega
  rw [hwhole] at hproduct
  rw [Nat.add_mul]
  omega

/-- Growth adds capacity, within what a header can hold. -/
theorem toNat_grown (capacity extra : UInt64) :
    (min (satAdd capacity extra) maxHeader).toNat
      = min (capacity.toNat + extra.toNat) maxHeader.toNat := by
  have hmax : maxHeader.toNat = 2 ^ 63 - 1 := rfl
  have hsize : UInt64.size = 2 ^ 64 := rfl
  rw [UInt64.toNat_min, toNat_satAdd]
  omega

end Handle

/-! ## §2. Books in balance. -/

namespace Session

/-- At no time is more than one handle open. -/
def OneAtATime (s : Session) (calls : List Call) : Prop :=
  ∀ k, (s.run (calls.take k)).handles.length ≤ 1

theorem oneAtATime_nil {s : Session} (h : s.handles.length ≤ 1) : s.OneAtATime [] := by
  intro k
  rw [List.take_nil]
  exact h

theorem oneAtATime_cons {s : Session} {call : Call} {calls : List Call} :
    s.OneAtATime (call :: calls) ↔ s.handles.length ≤ 1 ∧ (s.step call).OneAtATime calls := by
  constructor
  · intro h
    exact ⟨h 0, fun k => h (k + 1)⟩
  · rintro ⟨hfirst, hrest⟩ k
    cases k with
    | zero => exact hfirst
    | succ k => exact hrest k

/-- No call but one that opens a handle leaves more handles open than before. -/
theorem length_step_le (s : Session) (call : Call) :
    (s.step call).handles.length
      ≤ s.handles.length + match call with | .load _ => 1 | _ => 0 := by
  have hupdate : ∀ slot outcome disk,
      (s.update slot outcome disk).handles.length = s.handles.length := by
    intro slot outcome disk
    cases outcome with
    | error fault => rfl
    | ok handle => exact List.length_set
  cases call with
  | add slot records =>
    rw [step]
    split
    · exact Nat.le_refl _
    · exact Nat.le_of_eq (hupdate _ _ _)
  | grow slot extra =>
    rw [step]
    split
    · exact Nat.le_refl _
    · exact Nat.le_of_eq (hupdate _ _ _)
  | query slot hash n => exact Nat.le_refl _
  | load path =>
    rw [step]
    split
    · exact Nat.le_of_eq List.length_append
    · exact Nat.le_succ _
  | close slot => exact List.length_eraseIdx_le s.handles slot

/-- The tables in the file, its header and the open handle say the same, and the records are within
the budget. -/
structure Balanced (place : Place) (permutations : UInt32) (kept : List Record) (s : Session)
    (tables : Tables) (capacity : UInt64) : Prop where
  holds : Holds place tables s.disk
  filed : Filed permutations.toNat kept tables
  headed : Headed capacity permutations (.ofNat kept.length) tables
  budget : kept.length * recordCost permutations ≤ capacity.toNat
  range : capacity.toNat ≤ maxHeader.toNat
  handles : ∀ handle ∈ s.handles, handle.store = .file place →
    ∃ path, handle = ⟨path, .file place, capacity, permutations, .ofNat kept.length⟩

section Balanced

variable {place : Place} {permutations : UInt32} {kept : List Record} {s : Session}
  {tables : Tables} {capacity : UInt64}

/-- Records within a budget can be counted in a header. -/
theorem count_le {n : Nat} (hbudget : n * recordCost permutations ≤ capacity.toNat)
    (hrange : capacity.toNat ≤ maxHeader.toNat) : n ≤ maxHeader.toNat := by
  have hle : n * 1 ≤ n * recordCost permutations :=
    Nat.mul_le_mul_left n (by unfold recordCost; omega)
  omega

theorem toNat_count {n : Nat} (h : n ≤ maxHeader.toNat) : (UInt64.ofNat n).toNat = n :=
  UInt64.toNat_ofNat_of_lt' (Nat.lt_of_le_of_lt h (by decide))

theorem balanced_founded {options : Options} (h : s.Founded place options) :
    Balanced place options.permutations [] s (newTables options) options.capacity := by
  obtain ⟨path, before, handle, hnew, hcreate, hstore, hhandles⟩ := h
  obtain ⟨hvalid, rfl, hholds⟩ := create_new hcreate hstore hnew
  refine ⟨hholds, filed_newTables options, headed_newTables hvalid, ?_, capacity_le hvalid, ?_⟩
  · show 0 * _ ≤ _
    omega
  · intro other hmem _
    rw [hhandles] at hmem
    exact ⟨path, List.mem_singleton.mp hmem⟩

/-- The only handle, put in the place of itself, is the only one. -/
theorem mem_set_only {slot : Nat} {old new handle : Handle} (hone : s.handles.length ≤ 1)
    (hslot : s.handles[slot]? = some old) (hmem : handle ∈ s.handles.set slot new) :
    handle = new := by
  -- with one handle there is one position, the one that is set
  obtain ⟨hlt, -⟩ := List.getElem?_eq_some_iff.mp hslot
  obtain ⟨i, hi, rfl⟩ := List.getElem_of_mem hmem
  rw [List.length_set] at hi
  have hsame : slot = i := by omega
  subst hsame
  exact List.getElem_set_self _

/-- A call keeps the books in balance if no more than one handle is open before it. -/
theorem balanced_step (hvalid : 1 ≤ permutations.toNat ∧ permutations.toNat ≤ maxPermutations)
    (h : Balanced place permutations kept s tables capacity) (hone : s.handles.length ≤ 1)
    (call : Call) :
    ∃ tables' capacity', Balanced place permutations (kept ++ accepted place s call) (s.step call)
      tables' capacity' := by
  have heffect := effect_step h.holds call
  generalize s.step call = s', accepted place s call = fresh at heffect ⊢
  cases heffect with
  | idle hsame hopen =>
    rw [List.append_nil]
    refine ⟨tables, capacity, ⟨hsame.trans h.holds.contents, h.holds.writable⟩, h.filed, h.headed,
      h.budget, h.range, ?_⟩
    intro handle hmem hat
    rcases hopen handle hmem hat with hold | ⟨path, hopened⟩
    · exact h.handles handle hold hat
    · rw [h.headed.ofTables hvalid.1 hvalid.2] at hopened
      exact ⟨path, (Except.ok.inj hopened).symm⟩
  | added hslot hstore hroom =>
    obtain ⟨path, rfl⟩ := h.handles _ (List.mem_of_getElem? hslot) hstore
    -- the handle counts the records that the file has, so that its room is the file's room
    have hcount : (UInt64.ofNat kept.length).toNat = kept.length :=
      toNat_count (count_le h.budget h.range)
    have hfits : (kept ++ fresh).length * recordCost permutations ≤ capacity.toNat := by
      have hbudget := h.budget
      rw [← hcount] at hbudget
      have hafter := Handle.fits_of_checkRoom hbudget h.range hroom
      rw [hcount] at hafter
      rw [List.length_append]
      exact hafter
    have hnext : Handle.countAfter ⟨path, .file place, capacity, permutations, .ofNat kept.length⟩
        fresh = .ofNat (kept ++ fresh).length := by
      rw [List.length_append, UInt64.ofNat_add]
      rfl
    rw [hnext]
    refine ⟨_, capacity, h.holds.put _, (h.filed.appendAll fresh).setHeader _ _, ?_, hfits,
      h.range, ?_⟩
    · refine (h.headed.appendAll _ fresh).setCount ?_
      have hlast := count_le hfits h.range
      rw [toNat_count hlast]
      exact hlast
    · intro handle hmem _
      exact ⟨path, mem_set_only hone hslot hmem⟩
  | @grown slot handle extra hslot hstore =>
    -- the records stay, and the budget does not shrink
    obtain ⟨path, rfl⟩ := h.handles _ (List.mem_of_getElem? hslot) hstore
    have hmore : (min (satAdd capacity extra) maxHeader).toNat
        = min (capacity.toNat + extra.toNat) maxHeader.toNat := Handle.toNat_grown capacity extra
    have hbudget := h.budget
    have hrange := h.range
    rw [List.append_nil]
    refine ⟨_, min (satAdd capacity extra) maxHeader, h.holds.put _, h.filed.setHeader _ _,
      h.headed.setCapacity (by omega), by omega, by omega, ?_⟩
    intro handle hmem _
    exact ⟨path, mem_set_only hone hslot hmem⟩

/-- Calls keep the books in balance if no more than one handle is open at a time. -/
theorem balanced_run (hvalid : 1 ≤ permutations.toNat ∧ permutations.toNat ≤ maxPermutations)
    (h : Balanced place permutations kept s tables capacity) {calls : List Call}
    (hone : s.OneAtATime calls) :
    ∃ tables' capacity', Balanced place permutations (kept ++ stored place s calls) (s.run calls)
      tables' capacity' := by
  -- the invariant is `Balanced`, for the tables and the capacity as the calls before have left them
  induction calls generalizing s kept tables capacity with
  | nil =>
    refine ⟨tables, capacity, ?_⟩
    show Balanced place permutations (kept ++ []) s tables capacity
    rw [List.append_nil]
    exact h
  | cons call calls ih =>
    obtain ⟨hfirst, hlater⟩ := oneAtATime_cons.mp hone
    obtain ⟨tables', capacity', hstep⟩ := balanced_step hvalid h hfirst call
    obtain ⟨tables'', capacity'', hrest⟩ := ih hstep hlater
    rw [List.append_assoc] at hrest
    exact ⟨tables'', capacity'', hrest⟩

end Balanced

/-! ## §3. What the books say. -/

/-- The tables in the file, its header, the open handle and every handle that is still to be opened
agree on the stored records. -/
structure Agrees (place : Place) (permutations : UInt32) (kept : List Record) (s : Session)
    (tables : Tables) (capacity : UInt64) : Prop where
  file : s.disk.lookup place = some (indexFile tables)
  /-- The records have the numbers from one in the order in which they were stored. -/
  rows : tables.records.toList = numbered kept
  rowCount : tables.records.size = kept.length
  headerCount : ∃ count, tables.readHeader countKey = .ok count ∧ count.toNat = kept.length
  handleCount : ∀ handle ∈ s.handles, handle.store = .file place →
    handle.count.toNat = kept.length
  /-- Each record has its entry in each table, and there are no others. -/
  entries : ∀ key, key ∈ tables.entries ↔ ∃ id record k, (id, record) ∈ numbered kept
    ∧ k < permutations.toNat ∧ key = Key.of k (permutedAt k record.hash) id
  entryCount : tables.entries.size = permutations.toNat * kept.length
  budget : kept.length * recordCost permutations ≤ capacity.toNat
  spent : ∀ handle ∈ s.handles, handle.store = .file place →
    handle.bytesPerRecord.toNat = recordCost permutations ∧ handle.capacity = capacity
      ∧ handle.used.toNat + handle.free.toNat = capacity.toNat
  reopened : ∀ path, Leads path place s.disk → ∃ handle,
    (File.load path).run s.disk = (.ok handle, s.disk) ∧ handle.capacity = capacity
      ∧ handle.permutations = permutations ∧ handle.count.toNat = kept.length

section Books

variable {place : Place} {options : Options} {s : Session}

theorem Balanced.agrees {permutations : UInt32} {kept : List Record} {tables : Tables}
    {capacity : UInt64}
    (hvalid : 1 ≤ permutations.toNat ∧ permutations.toNat ≤ maxPermutations)
    (h : Balanced place permutations kept s tables capacity) :
    Agrees place permutations kept s tables capacity := by
  have hcount : (UInt64.ofNat kept.length).toNat = kept.length :=
    toNat_count (count_le h.budget h.range)
  constructor
  case file => exact h.holds.contents
  case rows => exact h.filed.toList_records
  case rowCount => exact h.filed.size_records
  case headerCount => exact ⟨_, h.headed.count, hcount⟩
  case handleCount =>
    intro handle hmem hat
    obtain ⟨path, rfl⟩ := h.handles handle hmem hat
    exact hcount
  case entries =>
    intro key
    rw [h.filed.entries]
    constructor
    · intro hex
      obtain ⟨id, record, hstored, hkey⟩ := hex
      obtain ⟨k, hk, rfl⟩ := mem_keysOf.mp hkey
      exact ⟨id, record, k, hstored, hk, rfl⟩
    · intro hex
      obtain ⟨id, record, k, hstored, hk, rfl⟩ := hex
      exact ⟨id, record, hstored, mem_keysOf.mpr ⟨k, hk, rfl⟩⟩
  case entryCount => exact h.filed.entryCount
  case budget => exact h.budget
  case spent =>
    intro handle hmem hat
    obtain ⟨path, rfl⟩ := h.handles handle hmem hat
    refine ⟨Handle.toNat_bytesPerRecord _, rfl, Handle.used_add_free ?_⟩
    rw [hcount]
    exact h.budget
  case reopened =>
    intro path hleads
    refine ⟨⟨path, .file place, capacity, permutations, .ofNat kept.length⟩, ?_, rfl, rfl, hcount⟩
    rw [h.holds.run_load hleads, h.headed.ofTables hvalid.1 hvalid.2]

/-- After any calls on a new index, with one handle open at a time, all that tells of the records
agrees, and what was stored earlier is still there. -/
theorem books_agree (h : s.Founded place options) {calls : List Call} (hone : s.OneAtATime calls) :
    ∃ tables capacity,
      Agrees place options.permutations (stored place s calls) (s.run calls) tables capacity
        ∧ ∀ k, numbered (stored place s (calls.take k)) <+: tables.records.toList := by
  have hvalid : 1 ≤ options.permutations.toNat ∧ options.permutations.toNat ≤ maxPermutations := by
    obtain ⟨_, _, _, hnew, hcreate, hstore, -⟩ := h
    exact (validate_eq_ok (create_new hcreate hstore hnew).1).2
  obtain ⟨tables, capacity, hbalanced⟩ := balanced_run hvalid (balanced_founded h) hone
  rw [List.nil_append] at hbalanced
  refine ⟨tables, capacity, hbalanced.agrees hvalid, fun k => ?_⟩
  rw [hbalanced.filed.toList_records]
  conv => rhs; rw [← List.take_append_drop k calls]
  rw [stored_append]
  exact numbered_append _ _

/-- A record, capacity, and one record more after the index was closed and opened again. -/
def closedBetween : List Call :=
  [.add 0 [⟨⟨1, 2⟩, 3, 4⟩], .grow 0 64, .close 0, .load "i", .add 0 [⟨⟨1, 3⟩, 3, 5⟩]]

theorem oneAtATime_closedBetween : (start {}).OneAtATime closedBetween := by
  have hclosed : (((((start {}).step (.add 0 [⟨⟨1, 2⟩, 3, 4⟩])).step (.grow 0 64)).step
      (.close 0)).handles) = [] := rfl
  refine oneAtATime_cons.mpr ⟨Nat.le_refl 1, ?_⟩
  refine oneAtATime_cons.mpr ⟨Nat.le_refl 1, ?_⟩
  refine oneAtATime_cons.mpr ⟨Nat.le_refl 1, ?_⟩
  generalize ((start {}).step (.add 0 [⟨⟨1, 2⟩, 3, 4⟩])).step (.grow 0 64) = s at hclosed ⊢
  have hopened := length_step_le (s.step (.close 0)) (.load "i")
  have hlast := length_step_le ((s.step (.close 0)).step (.load "i")) (.add 0 [⟨⟨1, 3⟩, 3, 5⟩])
  rw [hclosed] at hopened
  refine oneAtATime_cons.mpr ⟨by rw [hclosed]; exact Nat.zero_le 1, ?_⟩
  refine oneAtATime_cons.mpr ⟨hopened, ?_⟩
  exact oneAtATime_nil (Nat.le_trans hlast hopened)

/-- The tables of the index when it is closed: one record, and `2 ^ 28 + 64` bytes of capacity. -/
def closedTables : Tables :=
  (((newTables {}).appendAll 28 [⟨⟨1, 2⟩, 3, 4⟩]).2.setHeader countKey 1).setHeader capacityKey
    268435520

/-- The second record is added through a handle that was opened after the first one was closed. -/
theorem stored_closedBetween :
    stored ["i"] (start {}) closedBetween = [⟨⟨1, 2⟩, 3, 4⟩, ⟨⟨1, 3⟩, 3, 5⟩] := by
  have hholds : Holds ["i"] closedTables
      ((start {}).run [.add 0 [⟨⟨1, 2⟩, 3, 4⟩], .grow 0 64, .close 0]).disk :=
    ⟨rfl, by decide⟩
  have hhandle : Handle.ofTables "i" (.file ["i"]) closedTables
      = .ok ⟨"i", .file ["i"], 2 ^ 28 + 64, 28, 1⟩ := rfl
  show stored ["i"] (start {}) ([.add 0 [⟨⟨1, 2⟩, 3, 4⟩], .grow 0 64, .close 0, .load "i"]
    ++ [.add 0 [⟨⟨1, 3⟩, 3, 5⟩]]) = _
  rw [stored_append]
  show _ ++ stored ["i"] (((start {}).run [.add 0 [⟨⟨1, 2⟩, 3, 4⟩], .grow 0 64, .close 0]).step
    (.load "i")) _ = _
  rw [step_load_start hholds hhandle]
  rfl

theorem books_agree_closed_between :
    (start {}).Founded ["i"] {} ∧ (start {}).OneAtATime closedBetween
      ∧ ∃ tables capacity, Agrees ["i"] 28 [⟨⟨1, 2⟩, 3, 4⟩, ⟨⟨1, 3⟩, 3, 5⟩]
        ((start {}).run closedBetween) tables capacity
      ∧ tables.records.toList = [(1, ⟨⟨1, 2⟩, 3, 4⟩), (2, ⟨⟨1, 3⟩, 3, 5⟩)]
      ∧ tables.entries.size = 56
      ∧ Leads "i" ["i"] ((start {}).run closedBetween).disk := by
  have hnew : (start {}).Founded ["i"] {} := founded_start rfl
  obtain ⟨tables, capacity, hagrees, -⟩ := books_agree hnew oneAtATime_closedBetween
  rw [stored_closedBetween] at hagrees
  have hholds : Holds ["i"] tables ((start {}).run closedBetween).disk :=
    ⟨hagrees.file, by decide⟩
  have hleads : Leads "i" ["i"] ((start {}).run closedBetween).disk :=
    hholds.leads (ofPath?_start .write (.inl rfl)) (locate_start _) rfl
  exact ⟨hnew, oneAtATime_closedBetween, tables, capacity, hagrees, hagrees.rows,
    hagrees.entryCount, hleads⟩

theorem oneAtATime_takenOver : takenOver.OneAtATime [] := by
  refine oneAtATime_nil ?_
  rw [takenOver_eq]
  exact Nat.le_refl 1

/-- The index that was taken over has a record, and its header counts it; its handle counts none, and
the record has no entry for the second permutation. -/
theorem books_disagree_taken_over :
    takenOver.Begun ["i"] widerOptions ∧ takenOver.OneAtATime []
      ∧ (∃ tables, takenOver.disk.lookup ["i"] = some (indexFile tables)
        ∧ tables.records.toList = numbered [oldRecord] ∧ tables.entries.size = 1
        ∧ tables.readHeader countKey = .ok 1)
      ∧ (∀ handle ∈ takenOver.handles, handle.count = 0 ∧ handle.permutations = 2)
      ∧ ¬ ∃ kept tables capacity,
        Agrees ["i"] widerOptions.permutations kept takenOver tables capacity := by
  refine ⟨begun_takenOver, oneAtATime_takenOver, ?_, fun handle hmem => ?_, ?_⟩
  · refine ⟨_, holds_takenOver.contents, filed_takenOver.toList_records,
      filed_takenOver.entryCount, ?_⟩
    rw [readHeader_count_retitled]
    rfl
  · obtain rfl := eq_of_mem_takenOver hmem
    exact ⟨rfl, rfl⟩
  · rintro ⟨kept, tables, capacity, hagrees⟩
    -- the file has one record, and the handle counts none
    have hsame := FileNode.database.inj
      (Option.some.inj (holds_takenOver.contents.symm.trans hagrees.file))
    have htables : oldTables.retitled widerOptions = tables :=
      Option.some.inj (congrArg Database.tables hsame)
    have hrows := hagrees.rowCount
    rw [← htables, filed_takenOver.size_records] at hrows
    have hcount := hagrees.handleCount _ mem_takenOver rfl
    exact absurd (hcount.trans hrows.symm) (by decide)

end Books

end Session

end Flowprint.Index
