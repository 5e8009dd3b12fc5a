/-
  Flowprint.Proofs.Index.Damage
  ────────────────────────────────
  Queries on an index that has lost records but no entries.

  The entries alone decide which records a query ranks, and how; the records are fetched afterwards, the
  best one first.  So the ranking is that of the index before the loss.  An answer none of whose records
  is lost is what it was, and any other fails at the best of its lost records.

  This goes for every index that had the records of all its entries before the loss, and so for every
  index that comes of creating indexes and of calls, one that was taken over among them.

  Main statements:

      hitsOf_lacking       fetching ranked records from tables that lack some
      Reachable.sound      an index that can be reached has the records of all its entries
      run_edit_lose        the loss is an edit from outside
      answers_lacking      what every handle answers after the loss
-/
import Flowprint.Proofs.Index.Session

namespace Flowprint.Index

open Std

/-! ## §1. Tables without some of their records. -/

/-- The tables without the records that are lost; all else is as it was. -/
def Tables.lacking (lost : RecordId → Bool) (tables : Tables) : Tables :=
  { tables with records := tables.records.filter fun id _ => ! lost id }

section Lacking

variable {lost : RecordId → Bool} {tables : Tables}

theorem getElem?_lacking (lost : RecordId → Bool) (tables : Tables) (id : RecordId) :
    (tables.lacking lost).records[id]? = if lost id then none else tables.records[id]? := by
  show (tables.records.filter fun id _ => ! lost id)[id]? = _
  rw [ExtTreeMap.getElem?_filter']
  cases lost id with
  | true => simp
  | false =>
    cases tables.records[id]? with
    | none => rfl
    | some _ => rfl

/-- The candidates of a query do not depend on the records. -/
theorem candidates_lacking (permutations : Nat) (query : SimHash) :
    candidates permutations query (tables.lacking lost) = candidates permutations query tables :=
  rfl

/-- A hit names the record of its candidate. -/
theorem record_of_hitOf {candidate : Candidate} {hit : Hit}
    (h : hitOf tables candidate = .ok hit) : hit.record = candidate.record := by
  unfold hitOf at h
  split at h
  · exact absurd h (by simp)
  · rw [← Except.ok.inj h]

/-- A candidate whose record is lost is the fault. -/
theorem hitOf_lacking {candidate : Candidate} {hit : Hit} (h : hitOf tables candidate = .ok hit) :
    hitOf (tables.lacking lost) candidate
      = if lost hit.record then .error (.corruptHeader (.missingRecord hit.record)) else .ok hit := by
  rw [record_of_hitOf h, ← h, hitOf, getElem?_lacking]
  cases lost candidate.record with
  | true => rfl
  | false => rfl

/-! ## §2. Fetching records. -/

/-- What becomes of an answer when records are lost: it stays if it has none of them, and fails at the
first of them otherwise. -/
def answerLacking (lost : RecordId → Bool) (hits : List Hit) : Except Fault (List Hit) :=
  match hits.find? fun hit => lost hit.record with
  | none => .ok hits
  | some hit => .error (.corruptHeader (.missingRecord hit.record))

/-- Records that were all there are fetched up to the first one that is lost. -/
theorem hitsOf_lacking {chosen : List Candidate} {hits : List Hit}
    (h : hitsOf tables chosen = .ok hits) :
    hitsOf (tables.lacking lost) chosen = answerLacking lost hits := by
  induction chosen generalizing hits with
  | nil =>
    obtain rfl := Except.ok.inj h
    rfl
  | cons first rest ih =>
    rw [hitsOf] at h
    split at h
    · exact absurd h (by simp)
    next hit hfirst =>
      split at h
      · exact absurd h (by simp)
      next others hrest =>
        obtain rfl := Except.ok.inj h
        rw [hitsOf, hitOf_lacking hfirst, ih hrest]
        unfold answerLacking
        rw [List.find?_cons]
        cases hlost : lost hit.record with
        | true => rfl
        | false =>
          -- the rest decides, and if it stays, so does the whole
          cases others.find? fun hit => lost hit.record with
          | none => rfl
          | some _ => rfl

/-- An answer stays, or it fails at a hit in front of which there is none that is lost. -/
theorem answerLacking_cases (lost : RecordId → Bool) (hits : List Hit) :
    (∀ hit ∈ hits, lost hit.record = false) ∧ answerLacking lost hits = .ok hits
      ∨ ∃ before hit after, hits = before ++ hit :: after
        ∧ (∀ earlier ∈ before, lost earlier.record = false) ∧ lost hit.record = true
        ∧ answerLacking lost hits = .error (.corruptHeader (.missingRecord hit.record)) := by
  unfold answerLacking
  cases hfind : hits.find? fun hit => lost hit.record with
  | none =>
    left
    refine ⟨fun hit hmem => ?_, rfl⟩
    simpa using List.find?_eq_none.mp hfind hit hmem
  | some hit =>
    right
    obtain ⟨hlost, before, after, heq, hbefore⟩ := List.find?_eq_some_iff_append.mp hfind
    exact ⟨before, hit, after, heq, fun earlier hmem => by simpa using hbefore earlier hmem, hlost, rfl⟩

/-- An answer that is given is the one before the loss, and none of its records is lost. -/
theorem answerLacking_eq_ok {lost : RecordId → Bool} {hits answer : List Hit}
    (h : answerLacking lost hits = .ok answer) :
    answer = hits ∧ ∀ hit ∈ hits, lost hit.record = false := by
  rcases answerLacking_cases lost hits with ⟨hthere, hstays⟩ | ⟨_, _, _, -, -, -, hfails⟩
  · exact ⟨Except.ok.inj (h.symm.trans hstays), hthere⟩
  · exact absurd (h.symm.trans hfails) (by simp)

/-- Every hit that is given is that of the record which is still there under its number. -/
theorem record_of_answerLacking {permutations : Nat} {hash : SimHash} {hits answer : List Hit}
    (hhits : IsAnswer permutations hash tables hits) {n : Nat}
    (h : answerLacking lost (hits.take n) = .ok answer) {hit : Hit} (hhit : hit ∈ answer) :
    ∃ record, (tables.lacking lost).records[hit.record]? = some record
      ∧ hit = Hit.of hash hit.record record := by
  obtain ⟨rfl, hthere⟩ := answerLacking_eq_ok h
  have hkept : lost hit.record = false := hthere hit hhit
  obtain ⟨id, record, hrecord, -, rfl⟩ := hhits.mem_iff.mp (List.mem_of_mem_take hhit)
  refine ⟨record, ?_, rfl⟩
  rw [getElem?_lacking, hkept, if_neg (by simp)]
  exact hrecord

end Lacking

/-! ## §3. Indexes that can be reached. -/

namespace Session

/-- The sessions with an index at a place that can be reached: calls are made, and indexes created, on
an index that was created where no database was, or on any other whose entries have their records.  An
index that is created may take over the one that is there. -/
inductive Reachable (place : Place) : Session → Prop where
  /-- An index is created where no database is. -/
  | founded {options : Options} {s : Session} (h : s.Founded place options) : Reachable place s
  /-- An index is there, and its entries have their records. -/
  | backed {tables : Tables} {s : Session} (hholds : Holds place tables s.disk)
      (hbacked : Backed tables) : Reachable place s
  /-- A call is made. -/
  | step {s : Session} (h : Reachable place s) (call : Call) : Reachable place (s.step call)
  /-- An index is created, in this file or in another one. -/
  | create {s : Session} (h : Reachable place s) (path : String) (options : Options) :
      Reachable place (s.create path options)

/-- The file at a place is an index whose entries have their records. -/
def Sound (place : Place) (s : Session) : Prop :=
  ∃ tables, Holds place tables s.disk ∧ Backed tables

section Sound

variable {place : Place} {s : Session}

theorem sound_founded {options : Options} (h : s.Founded place options) : s.Sound place := by
  obtain ⟨path, before, handle, hnew, hcreate, hstore, -⟩ := h
  obtain ⟨-, -, hholds⟩ := create_new hcreate hstore hnew
  exact ⟨_, hholds, (filed_newTables options).backed⟩

/-- A call leaves the entries with their records. -/
theorem sound_step (h : s.Sound place) (call : Call) : (s.step call).Sound place := by
  obtain ⟨tables, hholds, hbacked⟩ := h
  have heffect := effect_step hholds call
  generalize s.step call = s', accepted place s call = fresh at heffect ⊢
  cases heffect with
  | idle hsame => exact ⟨tables, ⟨hsame.trans hholds.contents, hholds.writable⟩, hbacked⟩
  | added hslot hstore hroom =>
    exact ⟨_, hholds.put _, (hbacked.appendAll _ _).setHeader _ _⟩
  | grown hslot hstore => exact ⟨_, hholds.put _, hbacked.setHeader _ _⟩

/-- An index that is created leaves the entries with their records, also if it takes the index over. -/
theorem sound_create (h : s.Sound place) (path : String) (options : Options) :
    (s.create path options).Sound place := by
  obtain ⟨tables, hholds, hbacked⟩ := h
  have hdisk : (s.create path options).disk = ((File.create path options).run s.disk).2 := by
    unfold create
    split
    next heq => rw [heq]
    next heq => rw [heq]
  unfold Sound
  rw [hdisk]
  rcases hholds.create_cases path options with ⟨hsame, -⟩ | ⟨-, hover⟩
  · exact ⟨tables, ⟨hsame.trans hholds.contents, hholds.writable⟩, hbacked⟩
  · rw [hover]
    exact ⟨_, hholds.put _, hbacked.retitled options⟩

/-- Whatever index can be reached, its entries have their records. -/
theorem Reachable.sound (h : s.Reachable place) : s.Sound place := by
  induction h with
  | founded h => exact sound_founded h
  | backed hholds hbacked => exact ⟨_, hholds, hbacked⟩
  | step _ call ih => exact sound_step ih call
  | create _ path options ih => exact sound_create ih path options

end Sound

/-! ## §4. Handles on a damaged index. -/

/-- The session after records were lost from the file at a place, which keeps all its entries. -/
def lose (place : Place) (lost : RecordId → Bool) (s : Session) : Session :=
  match File.tables (.file place) s.disk with
  | .error _ => s
  | .ok tables => { s with disk := s.disk.put place (indexFile (tables.lacking lost)) }

/-- The session after some paths were opened. -/
def openAll (s : Session) (paths : List String) : Session :=
  s.run (paths.map .load)

section Damage

variable {place : Place} {s : Session}

theorem lose_eq {tables : Tables} (h : Holds place tables s.disk) (lost : RecordId → Bool) :
    s.lose place lost
      = { s with disk := s.disk.put place (indexFile (tables.lacking lost)) } := by
  rw [lose, h.tables_eq]

/-- The loss is an edit from outside. -/
theorem run_edit_lose {tables : Tables} {path : String} (h : Holds place tables s.disk)
    (hlocate : s.disk.locate path = .ok place) (lost : RecordId → Bool) :
    (File.edit path fun database =>
        database.modifyTables fun tables => .ok (tables.lacking lost)).run s.disk
      = (.ok (), (s.lose place lost).disk) := by
  rw [lose_eq h]
  simp only [File.edit, DiskM.run_bind, DiskM.run_get, DiskM.run_set, DiskM.run_lift, DiskM.run_pure,
    hlocate, h.touch_eq, h.database_eq, Database.modifyTables, run_put h.writable]
  rfl

/-- Opening paths leaves an index of the current form alone. -/
theorem holds_openAll {tables : Tables} (h : Holds place tables s.disk) (paths : List String) :
    Holds place tables (s.openAll paths).disk := by
  induction paths generalizing s with
  | nil => exact h
  | cons path paths ih =>
    show Holds place tables ((s.step (.load path)).openAll paths).disk
    have hsame := (h.load path).same
    rw [step]
    split
    next hrun =>
      rw [hrun] at hsame
      exact ih ⟨hsame.trans h.contents, h.writable⟩
    next hrun =>
      rw [hrun] at hsame
      exact ih ⟨hsame.trans h.contents, h.writable⟩

/-- After the loss of any records from an index that can be reached, every handle on it, also one that
is opened then, answers as it did before, if none of the records that it would give is lost, and
otherwise fails and names the best of them that is lost.  Every hit that it gives is that of the record
which the index has under its number. -/
theorem answers_lacking (h : s.Reachable place) (lost : RecordId → Bool) (hash : SimHash)
    {handle : Handle} (hstore : handle.store = .file place) :
    ∃ tables hits, File.tables (.file place) s.disk = .ok tables
      ∧ IsAnswer handle.permutations.toNat hash tables hits
      ∧ (∀ n, File.query handle hash n s.disk = .ok (hits.take n))
      ∧ ∀ damaged paths, damaged = ((s.lose place lost).openAll paths).disk → ∀ n,
        ((∀ hit ∈ hits.take n, lost hit.record = false)
            ∧ File.query handle hash n damaged = .ok (hits.take n)
          ∨ ∃ before hit after, hits.take n = before ++ hit :: after
            ∧ (∀ earlier ∈ before, lost earlier.record = false) ∧ lost hit.record = true
            ∧ File.query handle hash n damaged
              = .error (.corruptHeader (.missingRecord hit.record)))
        ∧ ∀ answer, File.query handle hash n damaged = .ok answer → ∀ hit ∈ answer,
          ∃ record, File.record? handle hit.record damaged = .ok (some record)
            ∧ hit = Hit.of hash hit.record record := by
  obtain ⟨tables, hholds, hbacked⟩ := h.sound
  obtain ⟨hits, hhits, hfetch⟩ := hbacked.exists_answer handle.permutations.toNat hash
  refine ⟨tables, hits, hholds.tables_eq, hhits, fun n => ?_, ?_⟩
  · rw [query_eq_of_tables (by rw [hstore, hholds.tables_eq]), Handle.query, hfetch n]
  · rintro damaged paths rfl n
    have hdamaged : Holds place (tables.lacking lost) ((s.lose place lost).openAll paths).disk := by
      refine holds_openAll ?_ paths
      rw [lose_eq hholds]
      exact hholds.put (tables.lacking lost)
    have htables := hdamaged.tables_eq
    rw [← hstore] at htables
    -- the candidates are those of the undamaged index; only fetching their records can fail
    have hquery : File.query handle hash n ((s.lose place lost).openAll paths).disk
        = answerLacking lost (hits.take n) := by
      rw [query_eq_of_tables htables, Handle.query, candidates_lacking, hitsOf_lacking (hfetch n)]
    rw [hquery]
    refine ⟨answerLacking_cases lost (hits.take n), fun answer hanswer hit hhit => ?_⟩
    obtain ⟨record, hrecord, hof⟩ := record_of_answerLacking hhits hanswer hhit
    refine ⟨record, ?_, hof⟩
    rw [File.record?, htables, ← hrecord]
    rfl

/-- Three records, each less like the first. -/
def rankedRecords : List Record := [⟨⟨1, 2⟩, 3, 4⟩, ⟨⟨1, 3⟩, 3, 5⟩, ⟨⟨1, 7⟩, 3, 6⟩]

/-- The answer to the hash of the first of them. -/
def rankedHits : List Hit :=
  [⟨128, 3, 4, ⟨1, 2⟩, 1⟩, ⟨127, 3, 5, ⟨1, 3⟩, 2⟩, ⟨126, 3, 6, ⟨1, 7⟩, 3⟩]

/-- The tables of an index of one permutation with these records. -/
def rankedTables : Tables :=
  ((newTables smallOptions).appendAll 1 rankedRecords).2.setHeader countKey 3

theorem isAnswer_rankedHits : IsAnswer 1 ⟨1, 2⟩ rankedTables rankedHits where
  mem_iff := by
    intro hit
    have hfiled : Filed 1 rankedRecords rankedTables :=
      ((filed_newTables smallOptions).appendAll rankedRecords).setHeader _ _
    have hhits : rankedHits
        = (numbered rankedRecords).map fun entry => Hit.of ⟨1, 2⟩ entry.1 entry.2 := by
      decide
    have hlead : ∀ entry ∈ numbered rankedRecords,
        leading (Permutation.iterate 1 entry.2.hash.toBits)
          = leading (Permutation.iterate 1 (SimHash.mk 1 2).toBits) := by
      decide
    rw [hfiled.exists_seen_iff, hhits, List.mem_map]
    constructor
    · rintro ⟨entry, hentry, rfl⟩
      exact ⟨_, _, hentry, ⟨0, by decide, hlead entry hentry⟩, rfl⟩
    · rintro ⟨id, record, hentry, -, rfl⟩
      exact ⟨_, hentry, rfl⟩
  ahead := by decide

/-- The second of three records is lost.  Answers that end before it stay, and longer ones fail. -/
theorem answers_lacking_second :
    ((start smallOptions).run [.add 0 rankedRecords]).Reachable ["i"]
      ∧ ∃ handle ∈ ((start smallOptions).run [.add 0 rankedRecords]).handles,
        handle.store = .file ["i"]
        ∧ (∀ n, File.query handle ⟨1, 2⟩ n ((start smallOptions).run [.add 0 rankedRecords]).disk
          = .ok (rankedHits.take n))
        ∧ ∀ damaged, damaged = (((start smallOptions).run [.add 0 rankedRecords]).lose ["i"]
            fun id => id == 2).disk →
          File.query handle ⟨1, 2⟩ 1 damaged = .ok [⟨128, 3, 4, ⟨1, 2⟩, 1⟩]
          ∧ ∀ n, 2 ≤ n →
            File.query handle ⟨1, 2⟩ n damaged = .error (.corruptHeader (.missingRecord 2)) := by
  have hnew : (start smallOptions).Founded ["i"] smallOptions := founded_start rfl
  have hreached : ((start smallOptions).run [.add 0 rankedRecords]).Reachable ["i"] :=
    .step (.founded hnew) (.add 0 rankedRecords)
  have hholds : Holds ["i"] rankedTables ((start smallOptions).run [.add 0 rankedRecords]).disk :=
    ⟨rfl, by decide⟩
  have hhandles : ((start smallOptions).run [.add 0 rankedRecords]).handles
      = [⟨"i", .file ["i"], 1024, 1, 3⟩] := rfl
  have hmem : (⟨"i", .file ["i"], 1024, 1, 3⟩ : Handle)
      ∈ ((start smallOptions).run [.add 0 rankedRecords]).handles := by
    rw [hhandles]
    exact List.mem_singleton_self _
  have hstore : (⟨"i", .file ["i"], 1024, 1, 3⟩ : Handle).store = .file ["i"] := rfl
  obtain ⟨tables, hits, htables, hhits, hquery, hdamaged⟩ :=
    answers_lacking hreached (fun id => id == 2) ⟨1, 2⟩ hstore
  obtain rfl := Except.ok.inj (hholds.tables_eq.symm.trans htables)
  obtain rfl := isAnswer_rankedHits.unique hhits
  refine ⟨hreached, _, hmem, hstore, hquery, fun damaged hdisk => ⟨?_, fun n hn => ?_⟩⟩
  · rcases (hdamaged damaged [] hdisk 1).1 with ⟨-, hstays⟩ | ⟨before, hit, after, htake, -, hlost, -⟩
    · exact hstays
    · -- the first record is not the lost one
      have hfirst : hit ∈ rankedHits.take 1 := htake ▸ List.mem_append_right _ List.mem_cons_self
      obtain rfl := List.mem_singleton.mp hfirst
      exact absurd hlost (by decide)
  · rcases (hdamaged damaged [] hdisk n).1 with ⟨hthere, -⟩ | ⟨_, hit, _, -, -, hlost, hfails⟩
    · obtain ⟨more, rfl⟩ : ∃ more, n = more + 2 := ⟨n - 2, by omega⟩
      exact absurd (hthere _ (List.mem_cons_of_mem _ List.mem_cons_self)) (by decide)
    · rw [hfails, beq_iff_eq.mp hlost]

end Damage

end Session

end Flowprint.Index
