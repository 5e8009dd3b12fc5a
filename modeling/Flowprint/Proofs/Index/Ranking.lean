/-
  Flowprint.Proofs.Index.Ranking
  ────────────────────────────────
  The answer to a query, said of the records alone.

  `IsRanking` describes the complete answer without buckets, entries and scores of entries: every
  record that shares leading places with the query under some permutation, once, with the true number
  of places at which the hashes agree, best first.  Tables that file the records have such a list, and
  a query takes its first hits from it.

  Backed tables may lack entries of their records.  `IsAnswer` says the same of them, but for a record
  that has no entry where it would be seen.

  Main statements:

      Backed.mem_candidates     the candidates are the records that the query sees in the tables
      Backed.exists_answer      answers are initial parts of one complete answer
      exists_ranking            which is the ranking of the records that the tables file
      IsAnswer.unique           there is no other
-/
import Flowprint.Proofs.Index.Backing
import Flowprint.Proofs.Index.Bucket
import Flowprint.Proofs.Permutation

namespace Flowprint.Index

open Std

/-! ## §1. The complete answer. -/

/-- Whether two hashes have the same leading places under one of the first permutations. -/
def Shares (permutations : Nat) (query stored : SimHash) : Prop :=
  ∃ k < permutations,
    leading (Permutation.iterate (k + 1) stored.toBits)
      = leading (Permutation.iterate (k + 1) query.toBits)

/-- The hit of a stored record. -/
def Hit.of (query : SimHash) (id : RecordId) (record : Record) : Hit :=
  ⟨.ofNat (query.agreement record.hash), record.executable, record.address, record.hash, id⟩

/-- The numbered record of a hit. -/
def Hit.entry (hit : Hit) : RecordId × Record :=
  (hit.record, ⟨hit.hash, hit.executable, hit.address⟩)

/-- Whether a hit ranks before another: it agrees at more places, or at as many and was stored
earlier. -/
def Hit.Ahead (a b : Hit) : Prop :=
  b.matching < a.matching ∨ a.matching = b.matching ∧ LT.lt (α := Int) a.record b.record

instance (a b : Hit) : Decidable (a.Ahead b) :=
  inferInstanceAs (Decidable (_ ∨ _ ∧ _))

/-- The hits are those of the stored records that share leading places with the query, each once,
in the order of their ranks. -/
structure IsRanking (permutations : Nat) (query : SimHash) (stored : List Record)
    (hits : List Hit) : Prop where
  mem_iff : ∀ {hit}, hit ∈ hits ↔ ∃ id record, (id, record) ∈ numbered stored
    ∧ Shares permutations query record.hash ∧ hit = Hit.of query id record
  ahead : hits.Pairwise Hit.Ahead

/-- Whether a query sees a record in the tables: the record has an entry there, and the leading places
of the entry are those of the query under the permutation of the entry. -/
def Sees (permutations : Nat) (query : SimHash) (tables : Tables) (id : RecordId)
    (stored : SimHash) : Prop :=
  ∃ k < permutations, Key.of k (permutedAt k stored) id ∈ tables.entries
    ∧ leading (Permutation.iterate (k + 1) stored.toBits)
      = leading (Permutation.iterate (k + 1) query.toBits)

/-- The hits are those of the records that a query sees in the tables, each once, in the order of their
ranks. -/
structure IsAnswer (permutations : Nat) (query : SimHash) (tables : Tables) (hits : List Hit) :
    Prop where
  mem_iff : ∀ {hit}, hit ∈ hits ↔ ∃ id record, tables.records[id]? = some record
    ∧ Sees permutations query tables id record.hash ∧ hit = Hit.of query id record
  ahead : hits.Pairwise Hit.Ahead

theorem agreement_le (a b : SimHash) : a.agreement b ≤ 128 :=
  Nat.sub_le _ _

theorem toNat_agreement (a b : SimHash) :
    (UInt32.ofNat (a.agreement b)).toNat = a.agreement b :=
  UInt32.toNat_ofNat_of_lt' (Nat.lt_of_le_of_lt (agreement_le a b) (by decide))

/-- Hits rank as the agreement of their records and then their numbers say. -/
theorem ahead_of_iff {query : SimHash} {id other : Int} {record earlier : Record} :
    (Hit.of query other earlier).Ahead (Hit.of query id record) ↔
      query.agreement record.hash < query.agreement earlier.hash
        ∨ query.agreement record.hash = query.agreement earlier.hash ∧ other < id := by
  show UInt32.ofNat (query.agreement record.hash) < UInt32.ofNat (query.agreement earlier.hash)
    ∨ UInt32.ofNat (query.agreement earlier.hash) = UInt32.ofNat (query.agreement record.hash)
      ∧ other < id ↔ _
  rw [UInt32.lt_iff_toNat_lt, ← UInt32.toNat_inj, toNat_agreement, toNat_agreement]
  omega

theorem Hit.Ahead.asymm {a b : Hit} (hab : a.Ahead b) (hba : b.Ahead a) : False := by
  unfold Hit.Ahead at hab hba
  rw [UInt32.lt_iff_toNat_lt, ← UInt32.toNat_inj] at hab hba
  omega

/-- Ranked hits are determined by which hits they are. -/
theorem eq_of_ahead {hits others : List Hit} (h : hits.Pairwise Hit.Ahead)
    (hothers : others.Pairwise Hit.Ahead) (hmem : ∀ hit, hit ∈ hits ↔ hit ∈ others) :
    hits = others := by
  have hne : ∀ {a b : Hit}, a.Ahead b → a ≠ b := by
    rintro a _ hab rfl
    exact hab.asymm hab
  have hperm : hits.Perm others :=
    (List.perm_ext_iff_of_nodup (h.imp hne) (hothers.imp hne)).mpr hmem
  exact hperm.eq_of_pairwise (fun _ _ _ _ hab hba => (hab.asymm hba).elim) h hothers

/-- There is one answer to a query. -/
theorem IsAnswer.unique {permutations : Nat} {query : SimHash} {tables : Tables}
    {hits others : List Hit} (h : IsAnswer permutations query tables hits)
    (hothers : IsAnswer permutations query tables others) : hits = others :=
  eq_of_ahead h.ahead hothers.ahead fun _ => h.mem_iff.trans hothers.mem_iff.symm

/-! ## §2. Candidates. -/

section Candidates

variable {permutations : Nat} {query : SimHash}

/-- A key of a record makes the record a candidate with the true score, if its permutation is one of
the first and the leading places are those of the query under it. -/
theorem candidate?_key (k : Nat) (hash : SimHash) (id : RecordId) :
    candidate? (Permutation.orbit permutations query.toBits) (Key.of k (permutedAt k hash) id)
      = if k < permutations ∧ leading (Permutation.iterate (k + 1) hash.toBits)
            = leading (Permutation.iterate (k + 1) query.toBits)
          then some ⟨id, query.agreement hash⟩ else none := by
  show ((Permutation.orbit permutations query.toBits)[k]?).bind _ = _
  by_cases hk : k < permutations
  · -- permuting both hashes does not change the number of places at which they agree
    have hscore : 128 - ones ((Key.of k (permutedAt k hash) id).permuted.toBits
        ^^^ Permutation.iterate (k + 1) query.toBits) = query.agreement hash := by
      rw [Key.permuted_of, permutedAt, SimHash.toBits_ofBits, Permutation.ones_iterate_xor,
        BitVec.xor_comm]
      rfl
    have hbucket : inBucket (SimHash.ofBits (Permutation.iterate (k + 1) query.toBits)).high
        (Key.of k (permutedAt k hash) id).high = true
          ↔ leading (Permutation.iterate (k + 1) hash.toBits)
            = leading (Permutation.iterate (k + 1) query.toBits) := inBucket_iff
    rw [Permutation.orbit_eq_iterates _ hk, Option.bind_some]
    by_cases hlead : leading (Permutation.iterate (k + 1) hash.toBits)
        = leading (Permutation.iterate (k + 1) query.toBits)
    · rw [if_pos ⟨hk, hlead⟩]
      simp only [hbucket.mpr hlead, guard, if_true]
      show some (Candidate.mk id _) = _
      rw [hscore]
    · rw [if_neg (mt And.right hlead)]
      simp only [guard, if_neg (mt hbucket.mp hlead)]
      rfl
  · -- a query has no hash for a later permutation
    have hnone : (Permutation.orbit permutations query.toBits)[k]? = none := by
      rw [List.getElem?_eq_none_iff, Permutation.length_orbit]
      exact Nat.le_of_not_lt hk
    rw [hnone, Option.bind_none, if_neg (mt And.left hk)]

/-- What the entries of backed tables give as candidates. -/
theorem Backed.mem_filterMap_candidate? {tables : Tables} (h : Backed tables)
    {candidate : Candidate} :
    candidate ∈ tables.entries.toList.filterMap
        (candidate? (Permutation.orbit permutations query.toBits))
      ↔ ∃ id record, tables.records[id]? = some record
        ∧ Sees permutations query tables id record.hash
        ∧ candidate = ⟨id, query.agreement record.hash⟩ := by
  rw [List.mem_filterMap]
  constructor
  · intro hex
    obtain ⟨key, hkey, hcandidate⟩ := hex
    rw [ExtTreeSet.mem_toList] at hkey
    obtain ⟨k, record, hrecord, hof⟩ := h.entries hkey
    rw [hof, candidate?_key] at hcandidate
    split at hcandidate
    next hsees =>
      rw [hof] at hkey
      exact ⟨key.record, record, hrecord, ⟨k, hsees.1, hkey, hsees.2⟩,
        (Option.some.inj hcandidate).symm⟩
    next => exact absurd hcandidate (by simp)
  · intro hex
    obtain ⟨id, record, -, ⟨k, hk, hkey, hlead⟩, rfl⟩ := hex
    refine ⟨Key.of k (permutedAt k record.hash) id, ExtTreeSet.mem_toList.mpr hkey, ?_⟩
    rw [candidate?_key, if_pos ⟨hk, hlead⟩]

/-- Where all scores of a record are one, keeping the best keeps that one. -/
theorem keepBest_eq_insert {best : ExtTreeMap RecordId Nat} {candidate : Candidate}
    (h : ∀ score, best[candidate.record]? = some score → score = candidate.score) :
    keepBest best candidate = best.insert candidate.record candidate.score := by
  have hold : best.getD candidate.record candidate.score = candidate.score := by
    rw [ExtTreeMap.getD_eq_getD_getElem?]
    cases hget : best[candidate.record]? with
    | none => rfl
    | some score => exact h score hget
  rw [keepBest, hold, Nat.max_self]

/-- Where all scores of a record are one, the best scores are the scores. -/
theorem getElem?_foldl_keepBest {found : List Candidate} {best : ExtTreeMap RecordId Nat}
    (hfound : ∀ a ∈ found, ∀ b ∈ found, a.record = b.record → a.score = b.score)
    (hbest : ∀ a ∈ found, ∀ score, best[a.record]? = some score → score = a.score)
    {id : RecordId} {score : Nat} :
    (found.foldl keepBest best)[id]? = some score
      ↔ best[id]? = some score ∨ ⟨id, score⟩ ∈ found := by
  -- induction on the candidates; a score that is kept is the one of every later candidate
  induction found generalizing best with
  | nil => simp
  | cons first rest ih =>
    have hfirst := hbest first List.mem_cons_self
    have hnext : ∀ a ∈ rest, ∀ score,
        (best.insert first.record first.score)[a.record]? = some score → score = a.score := by
      intro a ha score hscore
      rw [ExtTreeMap.getElem?_insert] at hscore
      split at hscore
      next heq =>
        rw [← Option.some.inj hscore]
        exact hfound first List.mem_cons_self a (List.mem_cons_of_mem _ ha)
          (Std.compare_eq_iff_eq.mp heq)
      next => exact hbest a (List.mem_cons_of_mem _ ha) score hscore
    rw [List.foldl_cons, keepBest_eq_insert hfirst,
      ih (fun a ha b hb => hfound a (List.mem_cons_of_mem _ ha) b (List.mem_cons_of_mem _ hb)) hnext,
      ExtTreeMap.getElem?_insert, List.mem_cons]
    obtain ⟨record, value⟩ := first
    by_cases heq : record = id
    · subst heq
      rw [if_pos (Std.compare_eq_iff_eq.mpr rfl)]
      constructor
      · intro hcase
        rcases hcase with hscore | hrest
        · obtain rfl : value = score := Option.some.inj hscore
          exact .inr (.inl rfl)
        · exact .inr (.inr hrest)
      · intro hcase
        rcases hcase with hscore | hnew | hrest
        · exact .inl (congrArg some (hfirst score hscore).symm)
        · exact .inl (congrArg some (Candidate.mk.inj hnew).2.symm)
        · exact .inr hrest
    · rw [if_neg (fun h => heq (Std.compare_eq_iff_eq.mp h))]
      constructor
      · intro hcase
        rcases hcase with hscore | hrest
        · exact .inl hscore
        · exact .inr (.inr hrest)
      · intro hcase
        rcases hcase with hscore | hnew | hrest
        · exact .inl hscore
        · exact absurd (Candidate.mk.inj hnew).1.symm heq
        · exact .inr hrest

/-- The candidates of a query are the records that it sees, each with the number of places at which the
hashes agree. -/
theorem Backed.mem_candidates {tables : Tables} (h : Backed tables) {candidate : Candidate} :
    candidate ∈ candidates permutations query tables
      ↔ ∃ id record, tables.records[id]? = some record
        ∧ Sees permutations query tables id record.hash
        ∧ candidate = ⟨id, query.agreement record.hash⟩ := by
  -- a record has the same score under every permutation that makes it a candidate
  have hscores : ∀ a ∈ tables.entries.toList.filterMap
        (candidate? (Permutation.orbit permutations query.toBits)),
      ∀ b ∈ tables.entries.toList.filterMap
        (candidate? (Permutation.orbit permutations query.toBits)),
      a.record = b.record → a.score = b.score := by
    intro a ha b hb heq
    obtain ⟨id, record, hrecord, -, rfl⟩ := h.mem_filterMap_candidate?.mp ha
    obtain ⟨id', record', hrecord', -, rfl⟩ := h.mem_filterMap_candidate?.mp hb
    obtain rfl : id = id' := heq
    rw [Option.some.inj (hrecord.symm.trans hrecord')]
  rw [← h.mem_filterMap_candidate?]
  show candidate ∈ List.map _ (ExtTreeMap.toList _) ↔ _
  rw [List.mem_map]
  constructor
  · intro hex
    obtain ⟨⟨id, score⟩, hmem, rfl⟩ := hex
    rw [ExtTreeMap.mem_toList_iff_getElem?_eq_some,
      getElem?_foldl_keepBest hscores (by simp)] at hmem
    exact hmem.resolve_left (by simp)
  · intro hmem
    refine ⟨(candidate.record, candidate.score), ?_, rfl⟩
    rw [ExtTreeMap.mem_toList_iff_getElem?_eq_some, getElem?_foldl_keepBest hscores (by simp)]
    exact .inr hmem

/-- No record is a candidate twice. -/
theorem pairwise_candidates (permutations : Nat) (query : SimHash) (tables : Tables) :
    (candidates permutations query tables).Pairwise fun a b => a.record ≠ b.record := by
  show (List.map _ (ExtTreeMap.toList _)).Pairwise _
  rw [List.pairwise_map]
  refine ExtTreeMap.ordered_keys_toList.imp fun {a b} hlt => ?_
  have hless : LT.lt (α := Int) a.1 b.1 := Std.compare_eq_lt.mp hlt
  show ¬ a.1 = b.1
  intro heq
  rw [heq] at hless
  omega

end Candidates

/-! ## §3. Answers. -/

theorem mem_ranked {candidate : Candidate} {candidates : List Candidate} :
    candidate ∈ ranked candidates ↔ candidate ∈ candidates :=
  (List.mergeSort_perm candidates better).mem_iff

/-- Ranked candidates are in strict order. -/
theorem pairwise_ranked (permutations : Nat) (query : SimHash) (tables : Tables) :
    (ranked (candidates permutations query tables)).Pairwise fun a b =>
      b.score < a.score ∨ a.score = b.score ∧ LT.lt (α := Int) a.record b.record := by
  have hperm : (ranked (candidates permutations query tables)).Perm
      (candidates permutations query tables) := List.mergeSort_perm _ _
  -- no two candidates tie, since no record is a candidate twice
  have hdistinct : (ranked (candidates permutations query tables)).Pairwise
      fun a b => a.record ≠ b.record :=
    (hperm.pairwise_iff fun h heq => h heq.symm).mpr (pairwise_candidates permutations query tables)
  have hsorted : (ranked (candidates permutations query tables)).Pairwise
      fun a b => better a b = true :=
    List.pairwise_mergeSort better_trans better_total _
  refine (hdistinct.and hsorted).imp fun {a b} ⟨hne, hbetter⟩ => ?_
  rcases better_iff.mp hbetter with hmore | ⟨hsame, hle⟩
  · exact .inl hmore
  · exact .inr ⟨hsame, Int.lt_iff_le_and_ne.mpr ⟨hle, hne⟩⟩

/-- Candidates whose records are there all become hits. -/
theorem hitsOf_eq_map {tables : Tables} {chosen : List Candidate} {hit : Candidate → Hit}
    (h : ∀ candidate ∈ chosen, hitOf tables candidate = .ok (hit candidate)) :
    hitsOf tables chosen = .ok (chosen.map hit) := by
  induction chosen with
  | nil => rfl
  | cons first rest ih =>
    rw [hitsOf, h first List.mem_cons_self,
      ih fun candidate hmem => h candidate (List.mem_cons_of_mem _ hmem)]
    rfl

/-- The hit of a candidate whose record is there. -/
def hitFor (query : SimHash) (tables : Tables) (candidate : Candidate) : Hit :=
  Hit.of query candidate.record (tables.records[candidate.record]?.getD ⟨default, 0, 0⟩)

section Answers

variable {permutations : Nat} {query : SimHash} {tables : Tables}

theorem hitFor_record {id : RecordId} {record : Record}
    (hrecord : tables.records[id]? = some record) (score : Nat) :
    hitFor query tables ⟨id, score⟩ = Hit.of query id record := by
  rw [hitFor, hrecord, Option.getD_some]

/-- A candidate with the true score has its hit. -/
theorem hitOf_record {id : RecordId} {record : Record}
    (hrecord : tables.records[id]? = some record) :
    hitOf tables ⟨id, query.agreement record.hash⟩ = .ok (Hit.of query id record) := by
  simp only [hitOf, hrecord]
  rfl

/-- The hits of ranked candidates are in the order of their ranks. -/
theorem Backed.pairwise_hits (h : Backed tables) :
    ((ranked (candidates permutations query tables)).map (hitFor query tables)).Pairwise
      Hit.Ahead := by
  rw [List.pairwise_map]
  refine (pairwise_ranked permutations query tables).imp_of_mem fun {a b} ha hb hab => ?_
  obtain ⟨id, record, hrecord, -, rfl⟩ := h.mem_candidates.mp (mem_ranked.mp ha)
  obtain ⟨id', record', hrecord', -, rfl⟩ := h.mem_candidates.mp (mem_ranked.mp hb)
  rw [hitFor_record hrecord, hitFor_record hrecord', ahead_of_iff, eq_comm]
  exact hab

/-- Backed tables have a complete answer to every query, and the answer of any length is its initial
part. -/
theorem Backed.exists_answer (h : Backed tables) (permutations : Nat) (query : SimHash) :
    ∃ hits, IsAnswer permutations query tables hits
      ∧ ∀ n, hitsOf tables ((ranked (candidates permutations query tables)).take n)
          = .ok (hits.take n) := by
  refine ⟨(ranked (candidates permutations query tables)).map (hitFor query tables),
    ⟨?_, h.pairwise_hits⟩, ?_⟩
  · intro hit
    rw [List.mem_map]
    constructor
    · intro hex
      obtain ⟨candidate, hmem, rfl⟩ := hex
      obtain ⟨id, record, hrecord, hsees, rfl⟩ := h.mem_candidates.mp (mem_ranked.mp hmem)
      exact ⟨id, record, hrecord, hsees, hitFor_record hrecord _⟩
    · intro hex
      obtain ⟨id, record, hrecord, hsees, rfl⟩ := hex
      exact ⟨⟨id, query.agreement record.hash⟩,
        mem_ranked.mpr (h.mem_candidates.mpr ⟨id, record, hrecord, hsees, rfl⟩),
        hitFor_record hrecord _⟩
  · intro n
    rw [← List.map_take]
    refine hitsOf_eq_map fun candidate hmem => ?_
    obtain ⟨id, record, hrecord, -, rfl⟩ :=
      h.mem_candidates.mp (mem_ranked.mp (List.mem_of_mem_take hmem))
    rw [hitFor_record hrecord, hitOf_record hrecord]

end Answers

/-! ## §4. Records with all their entries. -/

section Filed

variable {permutations : Nat} {query : SimHash} {stored : List Record} {tables : Tables}

/-- A query sees a filed record if they share leading places under a permutation that both the record
was filed and the query is asked under. -/
theorem Filed.sees_iff (h : Filed permutations stored tables) {id : RecordId} {record : Record}
    (hstored : (id, record) ∈ numbered stored) {asked : Nat} :
    Sees asked query tables id record.hash ↔ Shares (min asked permutations) query record.hash := by
  constructor
  · rintro ⟨k, hk, hkey, hlead⟩
    obtain ⟨_, _, -, hof⟩ := h.entries.mp hkey
    obtain ⟨k', hk', heq⟩ := mem_keysOf.mp hof
    obtain rfl : k = k' := congrArg Key.permutation heq
    exact ⟨k, Nat.lt_min.mpr ⟨hk, hk'⟩, hlead⟩
  · rintro ⟨k, hk, hlead⟩
    obtain ⟨hasked, hfiled⟩ := Nat.lt_min.mp hk
    exact ⟨k, hasked,
      h.entries.mpr ⟨id, record, hstored, mem_keysOf.mpr ⟨k, hfiled, rfl⟩⟩, hlead⟩

/-- The records that a query sees in tables that file some are those that share leading places with
it. -/
theorem Filed.exists_seen_iff (h : Filed permutations stored tables) {asked : Nat}
    {what : RecordId → Record → Prop} :
    (∃ id record, tables.records[id]? = some record
        ∧ Sees asked query tables id record.hash ∧ what id record)
      ↔ ∃ id record, (id, record) ∈ numbered stored
        ∧ Shares (min asked permutations) query record.hash ∧ what id record := by
  refine exists_congr fun id => exists_congr fun record => ?_
  rw [h.records]
  exact and_congr_right fun hstored => and_congr_left fun _ => h.sees_iff hstored

/-- Tables that file a list of records have a complete ranking of it for every query, and the answer
of any length is its initial part. -/
theorem exists_ranking (h : Filed permutations stored tables) (asked : Nat) (query : SimHash) :
    ∃ hits, IsRanking (min asked permutations) query stored hits
      ∧ ∀ n, hitsOf tables ((ranked (candidates asked query tables)).take n) = .ok (hits.take n) := by
  obtain ⟨hits, hanswer, hfetch⟩ := h.backed.exists_answer asked query
  exact ⟨hits, ⟨hanswer.mem_iff.trans h.exists_seen_iff, hanswer.ahead⟩, hfetch⟩

end Filed

end Flowprint.Index
