/-
  Flowprint.Proofs.Index.Recall
  ────────────────────────────────
  Which records a query cannot miss.

  A query sees a record in the table of a permutation if the permutation carries none of the places
  at which the two hashes differ to a leading place.  Few differences leave the leading places free
  under some permutation, since no place visits them often; so records near enough to the query are
  candidates, whatever else is stored, and appear in every answer that is long enough for the records
  that rank ahead of them.

  Main statements:

      shares_iff          when a query sees a record
      mem_take_ranking    a candidate is among the first hits if few records rank ahead of it
      finds_near_records  what every open handle finds
-/
import Flowprint.Proofs.Index.Session

namespace Flowprint.Index

open Permutation (carry visits)

/-! ## §1. Differences. -/

/-- The places at which two hashes differ. -/
def differing (a b : SimHash) : Finset (Fin 128) :=
  Finset.univ.filter fun i => a.toBits.getLsbD i ≠ b.toBits.getLsbD i

theorem distance_eq_card (a b : SimHash) : a.distance b = (differing a b).card := by
  rw [SimHash.distance, Permutation.ones_eq_card, differing]
  congr 1
  apply Finset.filter_congr
  intro i _
  rw [BitVec.getLsbD_xor, bne_iff_ne]

/-- Hashes that agree at all places are the same. -/
theorem eq_of_agreement {a b : SimHash} (h : a.agreement b = 128) : a = b := by
  have hzero : a.distance b = 0 := by
    have hsum : 128 - a.distance b = 128 := h
    have hle : a.distance b ≤ 128 := ones_le _
    omega
  rw [distance_eq_card, Finset.card_eq_zero] at hzero
  have hbits : a.toBits = b.toBits := by
    apply BitVec.eq_of_getLsbD_eq
    intro i hi
    by_contra hne
    -- a place at which they differ would be one of none
    have hmem : (⟨i, hi⟩ : Fin 128) ∈ differing a b :=
      Finset.mem_filter.mpr ⟨Finset.mem_univ _, hne⟩
    rw [hzero] at hmem
    exact absurd hmem (Finset.notMem_empty _)
  rw [← SimHash.ofBits_toBits a, hbits, SimHash.ofBits_toBits]

/-- A query sees a record if some permutation carries no difference to a leading place. -/
theorem shares_iff {permutations : Nat} {query stored : SimHash} :
    Shares permutations query stored ↔
      ∃ k < permutations, ∀ i ∈ differing query stored, ((carry ^ (k + 1)) i).val < 120 := by
  unfold Shares
  refine exists_congr fun k => and_congr_right fun _ => ?_
  rw [leading_eq_iff]
  constructor
  · intro h i hi
    by_contra hlead
    have hbit := h ((carry ^ (k + 1)) i) (by omega) ((carry ^ (k + 1)) i).isLt
    rw [Permutation.getLsbD_iterate_carry, Permutation.getLsbD_iterate_carry] at hbit
    exact (Finset.mem_filter.mp hi).2 hbit.symm
  · intro h j hle hlt
    -- every leading place is where some place is carried
    obtain ⟨i, hi⟩ := (carry ^ (k + 1)).surjective ⟨j, hlt⟩
    have hj : (((carry ^ (k + 1)) i : Fin 128) : Nat) = j := by rw [hi]
    rw [← hj, Permutation.getLsbD_iterate_carry, Permutation.getLsbD_iterate_carry]
    by_contra hne
    have hlow := h i (Finset.mem_filter.mpr ⟨Finset.mem_univ _, fun heq => hne heq.symm⟩)
    omega

/-! ## §2. Places in a ranking. -/

/-- The number of stored records that rank ahead of one: they agree with the query at more places,
or at as many and have a lower number. -/
def countAhead (query : SimHash) (stored : List Record) (id : Int) (hash : SimHash) : Nat :=
  (numbered stored).countP fun (other, record) =>
    query.agreement hash < query.agreement record.hash
      ∨ query.agreement hash = query.agreement record.hash ∧ other < id

section Ranking

variable {permutations : Nat} {query : SimHash} {stored : List Record} {hits : List Hit}

/-- A record that the query sees is among the first hits, if fewer records rank ahead of it. -/
theorem mem_take_ranking (h : IsRanking permutations query stored hits) {id : Int} {record : Record}
    (hstored : (id, record) ∈ numbered stored) (hshares : Shares permutations query record.hash)
    {n : Nat} (hfew : countAhead query stored id record.hash < n) :
    Hit.of query id record ∈ hits.take n := by
  -- the hit is in the ranking; what stands before it bounds its place
  have hmem : Hit.of query id record ∈ hits := h.mem_iff.mpr ⟨id, record, hstored, hshares, rfl⟩
  obtain ⟨before, after, rfl⟩ := List.append_of_mem hmem
  obtain ⟨hbefore, -, hcross⟩ := List.pairwise_append.mp h.ahead
  -- the hits before this one are hits of different records that rank ahead
  have hof : ∀ hit ∈ before, hit.entry ∈ numbered stored
      ∧ hit = Hit.of query hit.entry.1 hit.entry.2 := by
    intro hit hhit
    obtain ⟨other, earlier, hearlier, -, rfl⟩ := h.mem_iff.mp (List.mem_append_left _ hhit)
    exact ⟨hearlier, rfl⟩
  -- distinct, since none of them is ahead of itself
  have hdistinct : (before.map Hit.entry).Nodup := by
    refine List.pairwise_map.mpr (hbefore.imp_of_mem fun {a b} ha hb hab heq => ?_)
    rw [(hof a ha).2, (hof b hb).2, heq, ahead_of_iff] at hab
    omega
  have hsub : before.map Hit.entry ⊆ (numbered stored).filter fun (other, earlier) =>
      query.agreement record.hash < query.agreement earlier.hash
        ∨ query.agreement record.hash = query.agreement earlier.hash ∧ other < id := by
    intro entry hentry
    obtain ⟨hit, hhit, rfl⟩ := List.mem_map.mp hentry
    have hahead := hcross hit hhit _ List.mem_cons_self
    rw [(hof hit hhit).2, ahead_of_iff] at hahead
    exact List.mem_filter.mpr ⟨(hof hit hhit).1, decide_eq_true hahead⟩
  have hlength : before.length < n := by
    have hle := (List.subperm_of_subset hdistinct hsub).length_le
    rw [List.length_map, ← List.countP_eq_length_filter] at hle
    exact Nat.lt_of_le_of_lt hle hfew
  obtain ⟨m, rfl⟩ : ∃ m, n = before.length + (m + 1) := ⟨n - before.length - 1, by omega⟩
  rw [List.take_length_add_append, List.take_succ_cons]
  exact List.mem_append_right _ List.mem_cons_self

theorem matching_self {id : Int} {record : Record} :
    (Hit.of record.hash id record).matching = 128 := by
  apply UInt32.toNat_inj.mp
  show (UInt32.ofNat (record.hash.agreement record.hash)).toNat = 128
  rw [toNat_agreement, SimHash.agreement, SimHash.distance_self]
  rfl

/-- Only identical hashes rank ahead of an identical hash. -/
theorem identical_before {id : Int} {record : Record}
    (h : IsRanking permutations record.hash stored hits) {n : Nat} {before after : List Hit}
    (hanswer : hits.take n = before ++ Hit.of record.hash id record :: after) {other : Hit}
    (hother : other ∈ before) : other.hash = record.hash := by
  have hpart : other ∈ hits.take n := hanswer ▸ List.mem_append_left _ hother
  obtain ⟨_, earlier, -, -, rfl⟩ := h.mem_iff.mp (List.mem_of_mem_take hpart)
  have hsorted := h.ahead.sublist (List.take_sublist n hits)
  rw [hanswer] at hsorted
  have hahead := (List.pairwise_append.mp hsorted).2.2 _ hother _ List.mem_cons_self
  have hself : record.hash.agreement record.hash = 128 := by
    rw [SimHash.agreement, SimHash.distance_self]
    rfl
  -- nothing agrees at more places than all of them
  have hle := agreement_le record.hash earlier.hash
  rw [ahead_of_iff, hself] at hahead
  have hfull : record.hash.agreement earlier.hash = 128 := by omega
  exact (eq_of_agreement hfull).symm

/-- A stored record is a candidate exactly if the query sees it. -/
theorem candidate_iff_shares {tables : Tables} (h : Filed permutations stored tables) {id : Int}
    {record : Record} (hstored : (id, record) ∈ numbered stored) :
    (∃ score, ⟨id, score⟩ ∈ candidates permutations query tables)
      ↔ Shares permutations query record.hash := by
  constructor
  · intro hex
    obtain ⟨score, hmem⟩ := hex
    obtain ⟨other, found, hfound, hshares, heq⟩ :=
      h.exists_seen_iff.mp (h.backed.mem_candidates.mp hmem)
    rw [Nat.min_self] at hshares
    obtain ⟨rfl, -⟩ := Candidate.mk.inj heq
    rw [record_unique hstored hfound]
    exact hshares
  · intro hshares
    rw [← Nat.min_self permutations] at hshares
    exact ⟨_, h.backed.mem_candidates.mpr
      (h.exists_seen_iff.mpr ⟨id, record, hstored, hshares, rfl⟩)⟩

end Ranking

/-! ## §3. What is found. -/

namespace Session

/-- A handle finds a record: the record is in every answer that is long enough for the records that
rank ahead of it. -/
def Finds (handle : Handle) (disk : Disk) (query : SimHash) (stored : List Record) (id : Int)
    (record : Record) : Prop :=
  ∀ n, countAhead query stored id record.hash < n →
    ∃ answer, File.query handle query n disk = .ok answer ∧ Hit.of query id record ∈ answer

section Recall

variable {place : Place} {options : Options} {s : Session}

/-- On a new index after any calls: a stored record is a candidate exactly if some permutation
carries no difference to a leading place, and so it is found if it differs at few places for how
often places visit the leading ones.  An identical hash is always found, with full score and behind
none but identical ones.  A hash that differs at one place is always found by two permutations. -/
theorem finds_near_records (h : s.Founded place options) (calls : List Call) (query : SimHash) :
    (∀ k x i, (Permutation.iterate k x).getLsbD ((carry ^ k) i) = x.getLsbD i)
      ∧ ∃ tables, File.tables (.file place) (s.run calls).disk = .ok tables
        ∧ ∀ {id record}, (id, record) ∈ numbered (stored place s calls) →
          ((∃ score, ⟨id, score⟩ ∈ candidates options.permutations.toNat query tables)
            ↔ ∃ k < options.permutations.toNat,
              ∀ i ∈ differing query record.hash, ((carry ^ (k + 1)) i).val < 120)
          ∧ ∀ handle ∈ (s.run calls).handles, handle.store = .file place →
            (∀ often, (∀ i, visits options.permutations.toNat i ≤ often) →
              often * query.distance record.hash < options.permutations.toNat →
              Finds handle (s.run calls).disk query (stored place s calls) id record)
            ∧ (record.hash = query →
              Finds handle (s.run calls).disk query (stored place s calls) id record
              ∧ (Hit.of query id record).matching = 128
              ∧ ∀ {n before after}, File.query handle query n (s.run calls).disk
                  = .ok (before ++ Hit.of query id record :: after) →
                ∀ other ∈ before, other.hash = query)
            ∧ (2 ≤ options.permutations.toNat → query.distance record.hash = 1 →
              Finds handle (s.run calls).disk query (stored place s calls) id record) := by
  have hmin : 1 ≤ options.permutations.toNat := by
    obtain ⟨_, _, _, hnew, hcreate, hstore, -⟩ := h
    exact (validate_eq_ok (create_new hcreate hstore hnew).1).2.1
  have hkeeps := keeps_run (keeps_founded h) calls
  rw [List.nil_append] at hkeeps
  obtain ⟨tables, hits, htables, hfiled, hranking, hquery⟩ := hkeeps.answers query
  refine ⟨Permutation.getLsbD_iterate_carry, tables, htables, fun {id record} hstored => ?_⟩
  refine ⟨(candidate_iff_shares hfiled hstored).trans shares_iff, fun handle hmem hat => ?_⟩
  have hfinds : Shares options.permutations.toNat query record.hash →
      Finds handle (s.run calls).disk query (stored place s calls) id record :=
    fun hshares n hfew =>
      ⟨hits.take n, hquery handle hmem hat n, mem_take_ranking hranking hstored hshares hfew⟩
  refine ⟨?_, ?_, ?_⟩
  · -- few differences leave the leading places free under some permutation
    intro often hvisits hfew
    rw [distance_eq_card] at hfew
    exact hfinds (shares_iff.mpr (Permutation.exists_clear hvisits hfew))
  · intro heq
    obtain rfl := heq
    have hsame : Shares options.permutations.toNat record.hash record.hash := ⟨0, hmin, rfl⟩
    refine ⟨hfinds hsame, matching_self, fun {n before after} hanswer other hother => ?_⟩
    rw [hquery handle hmem hat n] at hanswer
    exact identical_before hranking (Except.ok.inj hanswer) hother
  · -- the place is free under the first permutation or the second
    intro htwo hdistance
    rw [distance_eq_card, Finset.card_eq_one] at hdistance
    obtain ⟨i, hi⟩ := hdistance
    refine hfinds (shares_iff.mpr ?_)
    rw [hi]
    rcases Permutation.leaves_leading i with hfirst | hsecond
    · exact ⟨0, by omega, fun j hj => by rw [Finset.mem_singleton.mp hj]; exact hfirst⟩
    · exact ⟨1, by omega, fun j hj => by rw [Finset.mem_singleton.mp hj]; exact hsecond⟩

/-- Three records: one near the hash that is asked for, one with this hash, and one far away. -/
def threeRecords : List Record :=
  [oldRecord, ⟨nearHash, 3, 5⟩, ⟨⟨0xffffffffffffffff, 0⟩, 3, 6⟩]

/-- The near record is found behind the one with the hash itself. -/
theorem finds_near_records_three :
    (start widerOptions).Founded ["i"] widerOptions
      ∧ stored ["i"] (start widerOptions) [.add 0 threeRecords] = threeRecords
      ∧ nearHash.distance oldRecord.hash = 1
      ∧ ∃ handle ∈ ((start widerOptions).run [.add 0 threeRecords]).handles,
        (∃ answer, File.query handle nearHash 1 ((start widerOptions).run [.add 0 threeRecords]).disk
            = .ok answer ∧ Hit.of nearHash 2 ⟨nearHash, 3, 5⟩ ∈ answer)
          ∧ ∃ answer, File.query handle nearHash 2
              ((start widerOptions).run [.add 0 threeRecords]).disk = .ok answer
            ∧ Hit.of nearHash 1 oldRecord ∈ answer := by
  have hnew : (start widerOptions).Founded ["i"] widerOptions := founded_start rfl
  have hstored : stored ["i"] (start widerOptions) [.add 0 threeRecords] = threeRecords := rfl
  have hdistance : nearHash.distance oldRecord.hash = 1 := by decide
  obtain ⟨-, tables, -, hrecords⟩ := finds_near_records hnew [.add 0 threeRecords] nearHash
  rw [hstored] at hrecords
  have hhandles : ((start widerOptions).run [.add 0 threeRecords]).handles
      = [{ Handle.ofOptions "i" (.file ["i"]) widerOptions with count := 3 }] := rfl
  have hmem : { Handle.ofOptions "i" (.file ["i"]) widerOptions with count := 3 }
      ∈ ((start widerOptions).run [.add 0 threeRecords]).handles := by
    rw [hhandles]
    exact List.mem_cons_self
  have hnear : (1, oldRecord) ∈ numbered threeRecords := mem_numbered.mpr ⟨0, rfl, rfl⟩
  have hsame : (2, ⟨nearHash, 3, 5⟩) ∈ numbered threeRecords := mem_numbered.mpr ⟨1, rfl, rfl⟩
  have hfindsNear := ((hrecords hnear).2 _ hmem rfl).2.2 (by decide) hdistance
  have hfindsSame := (((hrecords hsame).2 _ hmem rfl).2.1 rfl).1
  refine ⟨hnew, hstored, hdistance, _, hmem, hfindsSame 1 ?_, hfindsNear 2 ?_⟩
  · decide
  · decide

/-- In the index that was taken over a record that differs from the hash at one place is no candidate,
and is not found, though one of the two permutations carries this place to no leading one. -/
theorem near_record_missed :
    takenOver.Begun ["i"] widerOptions ∧ 2 ≤ widerOptions.permutations.toNat
      ∧ nearHash.distance oldRecord.hash = 1
      ∧ (∃ k < widerOptions.permutations.toNat,
        ∀ i ∈ differing nearHash oldRecord.hash, ((carry ^ (k + 1)) i).val < 120)
      ∧ ∀ handle ∈ takenOver.handles, handle.permutations = widerOptions.permutations
        ∧ File.records handle takenOver.disk = .ok (numbered [oldRecord])
        ∧ (∃ tables, File.tables handle.store takenOver.disk = .ok tables
          ∧ ¬ ∃ score, ⟨1, score⟩ ∈ candidates handle.permutations.toNat nearHash tables)
        ∧ ¬ Finds handle takenOver.disk nearHash [oldRecord] 1 oldRecord := by
  refine ⟨begun_takenOver, by decide, by decide, shares_iff.mp shares_nearHash, fun handle hmem => ?_⟩
  obtain rfl := eq_of_mem_takenOver hmem
  -- nothing that shares leading places with the hash under the first permutation is stored
  have hnone : ∀ id record, (id, record) ∈ numbered [oldRecord] →
      ¬ Shares 1 nearHash record.hash := by
    intro id record hstored
    obtain ⟨rfl, rfl⟩ := Prod.mk.inj (List.mem_singleton.mp hstored)
    exact not_shares_nearHash
  refine ⟨rfl, records_takenOver hmem, ⟨_, holds_takenOver.tables_eq, ?_⟩, fun hfinds => ?_⟩
  · rintro ⟨score, hcandidate⟩
    obtain ⟨id, record, hstored, hshares, -⟩ :=
      filed_takenOver.exists_seen_iff.mp (filed_takenOver.backed.mem_candidates.mp hcandidate)
    exact hnone id record hstored hshares
  · obtain ⟨hits, hranking, hanswer⟩ :=
      Holds.answers holds_takenOver filed_takenOver widerOptions.permutations nearHash
    obtain ⟨answer, hquery, hhit⟩ := hfinds 1 (by decide)
    rw [hanswer _ rfl rfl 1] at hquery
    obtain rfl := Except.ok.inj hquery
    obtain ⟨id, record, hstored, hshares, -⟩ := hranking.mem_iff.mp (List.mem_of_mem_take hhit)
    exact hnone id record hstored hshares

end Recall

end Session

end Flowprint.Index
