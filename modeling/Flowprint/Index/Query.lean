/-
  Flowprint.Index.Query
  ────────────────────────────────
  Looking up similar hashes.

  A query permutes its hash as the index permutes the hashes of its records.  In the table of each
  permutation it takes the entries whose leading eight bits are those of its own permuted hash, and
  scores them by the number of places at which the two agree; a permutation of places does not
  change that number.  A record counts with its best score.  The records are ranked by score, equal
  scores by the number of the record, and the first of them are the answer.

  Main statements:

      better_trans, better_total     the ranking is a linear order
-/
import Flowprint.Index.Database
import Flowprint.Index.Handle

namespace Flowprint.Index

open Std

/-- A record that matches a query. -/
structure Hit where
  /-- The number of places at which the hashes agree. -/
  matching : UInt32
  executable : UInt64
  address : Address
  hash : SimHash
  record : RecordId
  deriving Repr, DecidableEq

/-! ## §1. Candidates. -/

/-- The number of leading places that must agree. -/
def bucketBits : UInt64 := 8

/-- The places of a half that need not agree. -/
def bucketRest : UInt64 :=
  0xffffffffffffffff >>> bucketBits

/-- Whether the upper half of a key lies in the bucket of the upper half of a permuted query. -/
def inBucket (query : UInt64) (stored : Int64) : Bool :=
  let start := query &&& ~~~bucketRest
  biased start ≤ stored && stored ≤ biased (start ||| bucketRest)

/-- A record with a score. -/
structure Candidate where
  record : RecordId
  score : Nat
  deriving Repr, DecidableEq

/-- The candidate that a key makes for the permuted hashes of a query, if it is in the bucket of its
permutation. -/
def candidate? (queries : List (BitVec 128)) (key : Key) : Option Candidate := do
  let query ← queries[key.permutation]?
  guard (inBucket (SimHash.ofBits query).high key.high)
  return ⟨key.record, 128 - ones (key.permuted.toBits ^^^ query)⟩

/-- The best scores so far, one candidate more taken into account. -/
def keepBest (best : ExtTreeMap RecordId Nat) (candidate : Candidate) :
    ExtTreeMap RecordId Nat :=
  best.insert candidate.record (max candidate.score (best.getD candidate.record candidate.score))

/-- Every record in a bucket of a query, with its best score. -/
def candidates (permutations : Nat) (hash : SimHash) (tables : Tables) : List Candidate :=
  let queries := Permutation.orbit permutations hash.toBits
  let best := (tables.entries.toList.filterMap (candidate? queries)).foldl keepBest ∅
  best.toList.map fun (record, score) => ⟨record, score⟩

/-! ## §2. The ranking. -/

/-- Whether a candidate ranks no later than another: by a better score, or by a lower number at the
same score. -/
def better (a b : Candidate) : Bool :=
  b.score < a.score || (a.score == b.score && a.record ≤ b.record)

/-- Candidates in the order of their ranks. -/
def ranked (candidates : List Candidate) : List Candidate :=
  candidates.mergeSort better

theorem better_iff {a b : Candidate} :
    better a b = true ↔
      b.score < a.score ∨ a.score = b.score ∧ LE.le (α := Int) a.record b.record := by
  simp [better]

theorem better_trans (a b c : Candidate) (hab : better a b = true) (hbc : better b c = true) :
    better a c = true := by
  rw [better_iff] at *
  omega

theorem better_total (a b : Candidate) : (better a b || better b a) = true := by
  rw [Bool.or_eq_true, better_iff, better_iff]
  omega

/-! ## §3. Answers. -/

/-- The hit of a candidate, if its record is there. -/
def hitOf (tables : Tables) (candidate : Candidate) : Except Fault Hit :=
  match tables.records[candidate.record]? with
  | none => .error (.corruptHeader (.missingRecord candidate.record))
  | some record =>
    .ok ⟨.ofNat candidate.score, record.executable, record.address, record.hash, candidate.record⟩

/-- The hits of candidates, unless a record is missing. -/
def hitsOf (tables : Tables) : List Candidate → Except Fault (List Hit)
  | [] => .ok []
  | candidate :: rest =>
    match hitOf tables candidate with
    | .error fault => .error fault
    | .ok hit =>
      match hitsOf tables rest with
      | .error fault => .error fault
      | .ok hits => .ok (hit :: hits)

/-- The best `n` hits for a hash. -/
def Handle.query (handle : Handle) (hash : SimHash) (n : Nat) (tables : Tables) :
    Except Fault (List Hit) :=
  hitsOf tables ((ranked (candidates handle.permutations.toNat hash tables)).take n)

end Flowprint.Index
