/-
  Flowprint.Proofs.Service.Admission
  ────────────────────────────────
  Which of the functions that are offered to an index one after the other get into it.

  A function below the gate does not matter.  The others are stored as long as the reserve is left, and
  then all of them are refused: nothing is ever removed, so that a refusal is for good.  The reserve
  is no less than what a record costs, so that a record that passes the service has room in the
  index.

  Main statements:

      run_offer_eligible   what becomes of a function with enough branching blocks
      attemptAll_eq        the service and the disk after any offers
      offers_admitted      what becomes of each of any offers to a new index
-/
import Flowprint.Proofs.Index.Serving
import Flowprint.Service

namespace Flowprint

open Index (Tables Record Serves Fresh numbered recordCost)

/-! ## §1. One offer. -/

/-- A function that is offered to an index. -/
structure Offer where
  graph : Flowgraph
  executable : UInt64
  address : Address

namespace Service

/-- Whether a function has enough branching blocks. -/
def eligible (service : Service) (offer : Offer) : Bool :=
  service.minBranching ≤ offer.graph.branchingCount

/-- The record of a function. -/
def recordOf (service : Service) (offer : Offer) : Record :=
  ⟨service.hasher.hash offer.graph, offer.executable, offer.address⟩

/-- The service after some records. -/
def after (records : List Record) (tables : Tables) (service : Service) : Service :=
  { service with index := service.index.after records tables }

/-- The number of records for which there is space. -/
def slots (service : Service) : Nat :=
  service.index.slots service.reserve.toNat

section One

variable {service : Service} {tables : Tables} {disk : Disk}

theorem toNat_reserve (service : Service) :
    service.reserve.toNat = max service.lowSpace.toNat (recordCost service.index.permutations) := by
  rw [reserve, UInt64.toNat_max, Index.Handle.toNat_bytesPerRecord]

theorem cost_le_reserve (service : Service) :
    recordCost service.index.permutations ≤ service.reserve.toNat := by
  rw [toNat_reserve]
  exact Nat.le_max_right _ _

/-- Space is low exactly if it has no slots. -/
theorem free_lt_iff : service.index.free < service.reserve ↔ service.slots = 0 := by
  rw [UInt64.lt_iff_toNat_lt, slots, Index.Handle.slots]
  constructor
  · exact Index.slots_eq_zero
  · intro hzero
    exact Decidable.byContradiction fun henough =>
      absurd hzero (Nat.ne_of_gt (Index.slots_pos henough))

/-- Records that are stored take up as many slots, and the bytes that they cost. -/
theorem slots_after (h : Serves service.index tables disk) {records : List Record}
    (hslots : records.length ≤ service.slots) :
    (service.after records tables).index.free.toNat = service.index.free.toNat
        - records.length * recordCost service.index.permutations
      ∧ (service.after records tables).slots = service.slots - records.length :=
  Index.Handle.slots_after h.capacity_le (cost_le_reserve service) hslots tables

/-- There is room in the index for the records that have slots. -/
theorem hasRoom_of_le_slots (h : Serves service.index tables disk) {n : Nat}
    (hslots : n ≤ service.slots) : service.index.HasRoom n :=
  Index.Handle.hasRoom_of_le_slots h.capacity_le (cost_le_reserve service) hslots

/-- Behind the gate a function is refused if there is no slot for it, with the space there is and the
space there must be.  If there is a slot, its record is added, which does not fail for lack of
capacity. -/
theorem run_offer_eligible (disk : Disk) {offer : Offer}
    (helig : service.eligible offer = true) :
    (service.offer offer.graph offer.executable offer.address).run disk =
      if service.slots = 0 then
        (.error (.exhausted service.index.free service.reserve), disk)
      else
        match (Index.File.add service.index [service.recordOf offer]).run disk with
        | (.ok (_, index), after) =>
          (.ok (.indexed (service.hasher.hash offer.graph), { service with index := index }), after)
        | (.error fault, after) => (.error fault, after) := by
  have habove : ¬ offer.graph.branchingCount < service.minBranching := by
    rw [eligible, decide_eq_true_eq] at helig
    omega
  by_cases hlow : service.slots = 0
  · rw [if_pos hlow]
    exact offer_low habove (free_lt_iff.mpr hlow)
  · rw [if_neg hlow, Service.offer, if_neg habove, store, if_neg (mt free_lt_iff.mp hlow)]
    simp only [DiskM.run_bind, DiskM.run_pure, recordOf]
    rcases (Index.File.add service.index _).run disk with ⟨_ | ⟨ids, index⟩, last⟩
    · rfl
    · rfl

/-- A function for which there is a slot is stored. -/
theorem run_offer_stored (h : Serves service.index tables disk)
    (hwritable : service.index.store.Writable) {offer : Offer}
    (helig : service.eligible offer = true) (hslots : service.slots ≠ 0) :
    (service.offer offer.graph offer.executable offer.address).run disk =
      (.ok (.indexed (service.hasher.hash offer.graph),
          service.after [service.recordOf offer] tables),
        service.index.store.change
          (service.index.tablesAfter [service.recordOf offer] tables) disk) := by
  have hroom : service.index.HasRoom [service.recordOf offer].length :=
    hasRoom_of_le_slots h (Nat.one_le_iff_ne_zero.mpr hslots)
  rw [run_offer_eligible disk helig, if_neg hslots, h.run_add hwritable hroom]
  rfl

end One

/-! ## §2. Offers one after the other. -/

/-- Offer a function, whatever becomes of it. -/
def attempt (s : Service × Disk) (offer : Offer) :
    Except Index.Fault IndexOutcome × Service × Disk :=
  match (s.1.offer offer.graph offer.executable offer.address).run s.2 with
  | (.ok (outcome, service), disk) => (.ok outcome, service, disk)
  | (.error fault, disk) => (.error fault, s.1, disk)

/-- Offer functions one after the other. -/
def attemptAll (s : Service × Disk) (offers : List Offer) : Service × Disk :=
  offers.foldl (fun s offer => (attempt s offer).2) s

/-- The records of the offers that are accepted: the first with enough branching blocks, as many as
there are slots. -/
def acceptedRecords (service : Service) (offers : List Offer) : List Record :=
  ((offers.filter service.eligible).take service.slots).map service.recordOf

section Run

variable {service : Service} {tables : Tables} {disk : Disk}

/-- The service that is left, and the disk, after some records were stored. -/
def stocked (records : List Record) (tables : Tables) (s : Service × Disk) : Service × Disk :=
  (s.1.after records tables,
    s.1.index.store.change (s.1.index.tablesAfter records tables) s.2)

theorem stocked_nil (h : Serves service.index tables disk) :
    stocked [] tables (service, disk) = (service, disk) := by
  obtain ⟨htables, hindex⟩ := h.after_nil
  show (({ service with index := service.index.after [] tables } : Service), _) = _
  rw [hindex, htables, h.change_same.2]

theorem after_append (service : Service) (records more : List Record) (tables : Tables) :
    (service.after records tables).after more (service.index.tablesAfter records tables)
      = service.after (records ++ more) tables := by
  show ({ service with index := _ } : Service) = { service with index := _ }
  rw [← Index.Handle.after_append]
  rfl

theorem stocked_append (records more : List Record) (tables : Tables) (s : Service × Disk) :
    stocked more (s.1.index.tablesAfter records tables) (stocked records tables s)
      = stocked (records ++ more) tables s :=
  Prod.ext (after_append s.1 records more tables)
    (Index.Handle.change_append s.1.index records more tables s.2)

/-- An offer below the gate changes nothing. -/
theorem attempt_below {s : Service × Disk} {offer : Offer}
    (h : offer.graph.branchingCount < s.1.minBranching) :
    attempt s offer = (.ok (.belowThreshold offer.graph.branchingCount), s) := by
  unfold attempt
  rw [offer_below h]

/-- An offer for which there is no slot changes nothing. -/
theorem attempt_low {s : Service × Disk} {offer : Offer} (helig : s.1.eligible offer = true)
    (hlow : s.1.slots = 0) :
    attempt s offer = (.error (.exhausted s.1.index.free s.1.reserve), s) := by
  unfold attempt
  rw [run_offer_eligible s.2 helig, if_pos hlow]

/-- An offer for which there is a slot is stored. -/
theorem attempt_stored {s : Service × Disk} (h : Serves s.1.index tables s.2)
    (hwritable : s.1.index.store.Writable) {offer : Offer} (helig : s.1.eligible offer = true)
    (hslots : s.1.slots ≠ 0) :
    attempt s offer = (.ok (.indexed (s.1.hasher.hash offer.graph)),
      stocked [s.1.recordOf offer] tables s) := by
  unfold attempt
  rw [run_offer_stored h hwritable helig hslots]
  rfl

theorem attempt_idle {s : Service × Disk} {offer : Offer}
    (h : s.1.eligible offer = false ∨ s.1.slots = 0) : (attempt s offer).2 = s := by
  by_cases helig : s.1.eligible offer = true
  · have hlow : s.1.slots = 0 := h.resolve_left (by rw [helig]; simp)
    rw [attempt_low helig hlow]
  · rw [eligible, decide_eq_true_eq] at helig
    rw [attempt_below (Nat.lt_of_not_le helig)]

/-- An offer that is stored takes up one slot, and the others go to the offers behind it. -/
theorem acceptedRecords_stored (h : Serves service.index tables disk) {offer : Offer}
    (helig : service.eligible offer = true) (hslots : service.slots ≠ 0) (offers : List Offer) :
    service.acceptedRecords (offer :: offers) = [service.recordOf offer]
      ++ (service.after [service.recordOf offer] tables).acceptedRecords offers := by
  have hone : [service.recordOf offer].length ≤ service.slots :=
    Nat.one_le_iff_ne_zero.mpr hslots
  obtain ⟨n, hn⟩ := Nat.exists_eq_succ_of_ne_zero hslots
  unfold acceptedRecords
  rw [(slots_after h hone).2, hn, List.filter_cons_of_pos helig, List.take_succ_cons,
    List.map_cons]
  rfl

theorem acceptedRecords_idle {offer : Offer}
    (h : service.eligible offer = false ∨ service.slots = 0) (offers : List Offer) :
    service.acceptedRecords (offer :: offers) = service.acceptedRecords offers := by
  unfold acceptedRecords
  rcases h with hnot | hlow
  · rw [List.filter_cons_of_neg (by simp [hnot])]
  · rw [hlow, List.take_zero, List.take_zero]

/-- The service and the disk after any offers: those that are accepted are stored, and nothing else
happens. -/
theorem attemptAll_eq (h : Serves service.index tables disk)
    (hwritable : service.index.store.Writable) (offers : List Offer) :
    attemptAll (service, disk) offers
      = stocked (service.acceptedRecords offers) tables (service, disk) := by
  induction offers generalizing service tables disk with
  | nil =>
    rw [acceptedRecords, List.filter_nil, List.take_nil, List.map_nil]
    exact (stocked_nil h).symm
  | cons offer offers ih =>
    show attemptAll (attempt (service, disk) offer).2 offers = _
    by_cases hstored : service.eligible offer = true ∧ service.slots ≠ 0
    · obtain ⟨helig, hslots⟩ := hstored
      have hroom : service.index.HasRoom [service.recordOf offer].length :=
        hasRoom_of_le_slots h (Nat.one_le_iff_ne_zero.mpr hslots)
      rw [attempt_stored (s := (service, disk)) h hwritable helig hslots,
        acceptedRecords_stored h helig hslots, ← stocked_append]
      exact ih (h.after hroom) (Index.Store.writable_holding hwritable _)
    · have hidle : service.eligible offer = false ∨ service.slots = 0 := by
        rw [Decidable.not_and_iff_not_or_not, Decidable.not_not] at hstored
        exact hstored.imp_left Bool.eq_false_iff.mpr
      rw [attempt_idle hidle, acceptedRecords_idle hidle]
      exact ih h hwritable

end Run

/-! ## §3. A new index. -/

section New

variable {service : Service} {tables : Tables} {disk : Disk}

/-- The number of records that a service stores in a new index. -/
theorem slots_fresh (h : Fresh service.index tables disk) :
    service.slots = Index.slots service.index.capacity.toNat
      (max service.lowSpace.toNat service.index.bytesPerRecord.toNat)
      service.index.bytesPerRecord.toNat := by
  rw [slots, Index.Handle.slots, h.free_eq, toNat_reserve, Index.Handle.toNat_bytesPerRecord]

theorem length_acceptedRecords (service : Service) (offers : List Offer) :
    (service.acceptedRecords offers).length
      = min service.slots (offers.filter service.eligible).length := by
  rw [acceptedRecords, List.length_map, List.length_take]

/-- What becomes of an offer to a service that has been offered others before, on an index that was
new then. -/
structure Admits (service : Service) (capacity : Nat) (offers : List Offer) (s : Service × Disk)
    (offer : Offer) : Prop where
  /-- Below the gate nothing changes. -/
  below : offer.graph.branchingCount < service.minBranching →
    attempt s offer = (.ok (.belowThreshold offer.graph.branchingCount), s)
  /-- The first functions behind the gate are stored. -/
  stored : service.minBranching ≤ offer.graph.branchingCount →
    (offers.filter service.eligible).length < capacity →
    ∃ s', attempt s offer = (.ok (.indexed (service.hasher.hash offer.graph)), s')
      ∧ Index.File.records s'.1.index s'.2
        = .ok (numbered (service.acceptedRecords offers ++ [service.recordOf offer]))
  /-- All later ones are refused. -/
  refused : service.minBranching ≤ offer.graph.branchingCount →
    capacity ≤ (offers.filter service.eligible).length →
    ∃ free required, attempt s offer = (.error (.exhausted free required), s)
      ∧ required.toNat = max service.lowSpace.toNat service.index.bytesPerRecord.toNat
      ∧ free.toNat
        = service.index.capacity.toNat - capacity * service.index.bytesPerRecord.toNat
  /-- The index itself has room for what passes the service. -/
  fits : ¬ s.1.index.free < s.1.reserve → ∃ ids index disk,
    (Index.File.add s.1.index [s.1.recordOf offer]).run s.2 = (.ok (ids, index), disk)

theorem length_acceptedRecords_le (service : Service) (offers : List Offer) :
    (service.acceptedRecords offers).length ≤ service.slots := by
  rw [length_acceptedRecords]
  exact Nat.min_le_left _ _

/-- For any offers to a service on a new index: functions below the gate change nothing, the first of
the others are stored, up to a number that is known beforehand, and all later ones are refused. -/
theorem offers_admitted (h : Fresh service.index tables disk) :
    ∃ first, first =
        (if service.index.capacity.toNat
            < max service.lowSpace.toNat service.index.bytesPerRecord.toNat then 0
        else (service.index.capacity.toNat
            - max service.lowSpace.toNat service.index.bytesPerRecord.toNat)
          / service.index.bytesPerRecord.toNat + 1)
      ∧ ∀ offers,
        Index.File.records (attemptAll (service, disk) offers).1.index
            (attemptAll (service, disk) offers).2
          = .ok (numbered (((offers.filter service.eligible).take first).map service.recordOf))
        ∧ ∀ offer, Admits service first offers (attemptAll (service, disk) offers) offer := by
  refine ⟨service.slots, slots_fresh h, fun offers => ?_⟩
  have hroom := hasRoom_of_le_slots h.serves (length_acceptedRecords_le service offers)
  obtain ⟨hfree, hslots⟩ := slots_after h.serves (length_acceptedRecords_le service offers)
  rw [length_acceptedRecords] at hfree hslots
  have hserves : Serves (service.after (service.acceptedRecords offers) tables).index
      (service.index.tablesAfter (service.acceptedRecords offers) tables)
      (service.index.store.change
        (service.index.tablesAfter (service.acceptedRecords offers) tables) disk) :=
    h.serves.after hroom
  have hwritable : (service.after (service.acceptedRecords offers) tables).index.store.Writable :=
    Index.Store.writable_holding h.writable _
  rw [attemptAll_eq h.serves h.writable]
  refine ⟨h.records_after hroom, fun offer => ?_⟩
  constructor
  case below =>
    intro hbelow
    exact attempt_below (s := stocked (service.acceptedRecords offers) tables (service, disk)) hbelow
  case stored =>
    intro habove hless
    have helig : (service.after (service.acceptedRecords offers) tables).eligible offer = true :=
      decide_eq_true habove
    have hslot : (service.after (service.acceptedRecords offers) tables).slots ≠ 0 := by omega
    refine ⟨_, attempt_stored (s := stocked (service.acceptedRecords offers) tables (service, disk))
      hserves hwritable helig hslot, ?_⟩
    -- the record is stored behind those of the offers before
    have hmore : service.index.HasRoom
        (service.acceptedRecords offers ++ [service.recordOf offer]).length := by
      refine hasRoom_of_le_slots h.serves ?_
      rw [List.length_append, length_acceptedRecords, Nat.min_eq_right (Nat.le_of_lt hless)]
      exact hless
    have hlast := h.records_after hmore
    have happend := stocked_append (service.acceptedRecords offers) [service.recordOf offer] tables
      (service, disk)
    change Index.File.records (stocked _ tables (service, disk)).1.index
      (stocked _ tables (service, disk)).2 = _ at hlast
    rw [← happend] at hlast
    exact hlast
  case refused =>
    intro habove hmany
    have helig : (service.after (service.acceptedRecords offers) tables).eligible offer = true :=
      decide_eq_true habove
    have hlow : (service.after (service.acceptedRecords offers) tables).slots = 0 := by omega
    refine ⟨_, _, attempt_low
      (s := stocked (service.acceptedRecords offers) tables (service, disk)) helig hlow, ?_, ?_⟩
    · rw [Index.Handle.toNat_bytesPerRecord]
      exact toNat_reserve (service.after (service.acceptedRecords offers) tables)
    · rw [h.free_eq, Nat.min_eq_left hmany] at hfree
      rw [Index.Handle.toNat_bytesPerRecord]
      exact hfree
  case fits =>
    intro henough
    have hslot : (service.after (service.acceptedRecords offers) tables).slots ≠ 0 :=
      mt free_lt_iff.mpr henough
    have hone : (service.after (service.acceptedRecords offers) tables).index.HasRoom
        [service.recordOf offer].length :=
      hasRoom_of_le_slots hserves (Nat.one_le_iff_ne_zero.mpr hslot)
    exact ⟨_, _, _, hserves.run_add hwritable hone⟩

end New

/-- A service on a new index of which it leaves all but one record free. -/
def tight : Service :=
  ⟨{}, .ofOptions "i" (.file ["i"]) Index.Session.smallOptions, 0, 1024⟩

/-- A function without blocks. -/
def blank : Offer := ⟨{}, 1, 16⟩

theorem offers_admitted_tight :
    Fresh tight.index (Index.newTables Index.Session.smallOptions)
        (Index.Session.start Index.Session.smallOptions).disk
      ∧ ∃ s free required,
        attemptAll (tight, (Index.Session.start Index.Session.smallOptions).disk) [blank] = s
        ∧ Index.File.records s.1.index s.2 = .ok (numbered [tight.recordOf blank])
        ∧ attempt s blank = (.error (.exhausted free required), s)
        ∧ required.toNat = 1024 ∧ free.toNat = 967 := by
  have hnew : Fresh tight.index (Index.newTables Index.Session.smallOptions)
      (Index.Session.start Index.Session.smallOptions).disk := Index.fresh_start rfl
  obtain ⟨first, hfirst, hall⟩ := offers_admitted hnew
  have hone : first = 1 := by
    rw [hfirst]
    rfl
  subst hone
  obtain ⟨hrecords, hoffers⟩ := hall [blank]
  obtain ⟨free, required, hattempt, hrequired, hfree⟩ :=
    (hoffers blank).refused (Nat.zero_le _) (Nat.le_refl 1)
  exact ⟨hnew, _, free, required, rfl, hrecords, hattempt, hrequired, hfree⟩

end Service

end Flowprint
