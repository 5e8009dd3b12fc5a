/-
  Flowprint.Proofs.Index.Dump
  ────────────────────────────────
  The order in which the entries of an index are listed.

  The tables are kept in the order of stored words, and these are signed.  Since the stored halves of a
  permuted hash have their top bits flipped, this is the order of the hashes as numbers.  So the list
  ascends by permutation, then by permuted hash, then by record, and the entries of the first
  permutation are its beginning.

  Main statements:

      compare_toBits        hashes are in the order of their numbers
      Key.compare_eq        keys are in the order of permutation, number and record
      Filed.isDump          what tables list that file some records
      entries_ascend        what the handles of an index list after any calls
-/
import Flowprint.Proofs.Index.Bucket
import Flowprint.Proofs.Index.Session

namespace Flowprint.Index

open Std

/-! ## §1. Orders. -/

/-- Comparisons that find the same less and the same greater are the same. -/
theorem ordering_eq {o o' : Ordering} (hlt : o = .lt ↔ o' = .lt) (hgt : o = .gt ↔ o' = .gt) :
    o = o' := by
  cases o <;> cases o' <;> simp_all

/-- Words are in the order of their numbers. -/
theorem compare_toNat (a b : UInt64) : compare a b = compare a.toNat b.toNat := by
  refine ordering_eq ?_ ?_
  · rw [Std.compare_eq_lt, Std.compare_eq_lt, UInt64.lt_iff_toNat_lt]
  · rw [Std.compare_eq_gt, Std.compare_eq_gt, UInt64.lt_iff_toNat_lt]

/-- Stored halves are in the order of the numbers of the halves. -/
theorem compare_biased (a b : UInt64) :
    compare (biased a) (biased b) = compare a.toNat b.toNat := by
  have hlt : ∀ a b : UInt64, biased a < biased b ↔ a.toNat < b.toNat := by
    intro a b
    rw [Int64.lt_iff_toInt_lt, toInt_biased, toInt_biased]
    omega
  refine ordering_eq ?_ ?_
  · rw [Std.compare_eq_lt, Std.compare_eq_lt, hlt]
  · rw [Std.compare_eq_gt, Std.compare_eq_gt, hlt]

/-- Numbers of two halves are in the order of their upper halves, then of their lower halves. -/
theorem compare_halves {high low high' low' : Nat} (hlow : low < 2 ^ 64) (hlow' : low' < 2 ^ 64) :
    compare (high * 0x10000000000000000 + low) (high' * 0x10000000000000000 + low')
      = (compare high high').then (compare low low') := by
  refine ordering_eq ?_ ?_
  · rw [Ordering.then_eq_lt, Std.compare_eq_lt, Std.compare_eq_lt, Std.compare_eq_lt,
      Std.compare_eq_iff_eq]
    omega
  · rw [Ordering.then_eq_gt, Std.compare_eq_gt, Std.compare_eq_gt, Std.compare_eq_gt,
      Std.compare_eq_iff_eq]
    omega

/-- Hashes are in the order of their numbers. -/
theorem compare_toBits (a b : SimHash) : compare a b = compare a.toBits.toNat b.toBits.toNat := by
  show (compare a.high b.high).then (compare a.low b.low) = _
  rw [SimHash.toNat_toBits, SimHash.toNat_toBits, compare_halves a.low.toNat_lt b.low.toNat_lt,
    compare_toNat, compare_toNat]

/-- Stored halves, the upper one first, are in the order of the numbers of the hashes. -/
theorem compare_stored (a b : SimHash) :
    (compare (biased a.high) (biased b.high)).then (compare (biased a.low) (biased b.low))
      = compare a.toBits.toNat b.toBits.toNat := by
  rw [SimHash.toNat_toBits, SimHash.toNat_toBits, compare_halves a.low.toNat_lt b.low.toNat_lt,
    compare_biased, compare_biased]

/-- Keys are in the order of their permutations, then of the numbers of their permuted hashes, then of
their records. -/
theorem Key.compare_eq (a b : Key) :
    compare a b = (compare a.permutation b.permutation).then
      ((compare a.permuted.toBits.toNat b.permuted.toBits.toNat).then
        (compare a.record b.record)) := by
  rw [← compare_stored]
  simp only [Key.permuted, biased_unbiased, Ordering.then_assoc]
  rfl

/-! ## §2. Listed entries. -/

/-- Whether an entry comes before another: by its permutation, by the number of its permuted hash, by
its record. -/
def Entry.Before (a b : Entry) : Prop :=
  a.permutation < b.permutation ∨ a.permutation = b.permutation ∧
    (a.permuted.toBits.toNat < b.permuted.toBits.toNat
      ∨ a.permuted.toBits.toNat = b.permuted.toBits.toNat ∧ LT.lt (α := Int) a.record b.record)

/-- The entry of a numbered record under a permutation. -/
def Entry.of (permutation : UInt32) (entry : RecordId × Record) : Entry :=
  ⟨permutation, permutedAt permutation.toNat entry.2.hash, entry.1⟩

/-- Lists of the entries of some records: all entries, and those of the first permutation.  All ascend,
none comes twice, under every permutation each record comes once, and the entries of the first
permutation are the beginning. -/
structure IsDump (permutations : UInt32) (stored : List Record) (all first : List Entry) : Prop where
  ascending : all.Pairwise Entry.Before
  nodup : all.Nodup
  mem_iff : ∀ {entry}, entry ∈ all ↔
    ∃ k < permutations, ∃ numberedRecord ∈ numbered stored, entry = Entry.of k numberedRecord
  once : ∀ k < permutations,
    (all.filter (·.permutation = k)).Perm ((numbered stored).map (Entry.of k))
  initial : ∃ rest, all = first ++ rest ∧ (∀ entry ∈ first, entry.permutation = 0)
    ∧ ∀ entry ∈ rest, entry.permutation ≠ 0

theorem Entry.Before.ne {a b : Entry} (h : a.Before b) : a ≠ b := by
  rintro rfl
  rcases h with hlt | ⟨-, hlt | ⟨-, hlt⟩⟩
  · exact absurd hlt (UInt32.lt_irrefl _)
  · exact absurd hlt (Nat.lt_irrefl _)
  · exact absurd hlt (Int.lt_irrefl _)

/-- A list in which nothing of a kind is behind anything else begins with all of that kind. -/
theorem filter_append_filter {α : Type} {kind : α → Bool} {l : List α}
    (h : l.Pairwise fun a b => kind b = true → kind a = true) :
    l.filter kind ++ l.filter (fun a => ! kind a) = l := by
  induction h with
  | nil => rfl
  | @cons a l hbehind _ ih =>
    by_cases ha : kind a = true
    · rw [List.filter_cons_of_pos ha, List.filter_cons_of_neg (by simp [ha]), List.cons_append, ih]
    · -- then nothing behind it is of the kind
      have hnone : l.filter kind = [] :=
        List.filter_eq_nil_iff.mpr fun b hb hkind => ha (hbehind b hb hkind)
      rw [hnone, List.nil_append] at ih
      rw [List.filter_cons_of_neg ha, List.filter_cons_of_pos (by simpa using ha), hnone, ih,
        List.nil_append]

section Listing

variable {permutations : UInt32} {stored : List Record} {tables : Tables}

/-- Every key is listed. -/
theorem list_true (tables : Tables) : tables.list true = tables.entries.toList.map Key.entry := by
  simp [Tables.list]

/-- Keys that are filed are of permutations that can be listed. -/
theorem Filed.permutation_lt (h : Filed permutations.toNat stored tables) {key : Key}
    (hkey : key ∈ tables.entries.toList) : key.permutation < permutations.toNat := by
  rw [ExtTreeSet.mem_toList, h.entries] at hkey
  obtain ⟨id, record, -, hof⟩ := hkey
  obtain ⟨k, hk, rfl⟩ := mem_keysOf.mp hof
  exact hk

theorem Filed.toNat_permutation (h : Filed permutations.toNat stored tables) {key : Key}
    (hkey : key ∈ tables.entries.toList) : key.entry.permutation.toNat = key.permutation :=
  UInt32.toNat_ofNat_of_lt' ((h.permutation_lt hkey).trans permutations.toNat_lt)

theorem Filed.mem_list (h : Filed permutations.toNat stored tables) {entry : Entry} :
    entry ∈ tables.list true ↔
      ∃ k < permutations, ∃ numberedRecord ∈ numbered stored, entry = Entry.of k numberedRecord := by
  rw [list_true, List.mem_map]
  constructor
  · rintro ⟨key, hkey, rfl⟩
    have hpermutation := h.toNat_permutation hkey
    rw [ExtTreeSet.mem_toList, h.entries] at hkey
    obtain ⟨id, record, hstored, hof⟩ := hkey
    obtain ⟨k, hk, rfl⟩ := mem_keysOf.mp hof
    have hk' : (UInt32.ofNat k).toNat = k := hpermutation
    refine ⟨.ofNat k, ?_, ⟨id, record⟩, hstored, ?_⟩
    · rw [UInt32.lt_iff_toNat_lt, hk']
      exact hk
    · simp only [Key.entry, Entry.of, Key.permuted_of, hk']
      rfl
  · rintro ⟨k, hk, ⟨id, record⟩, hstored, rfl⟩
    refine ⟨Key.of k.toNat (permutedAt k.toNat record.hash) id, ?_, ?_⟩
    · rw [ExtTreeSet.mem_toList, h.entries]
      exact ⟨id, record, hstored, mem_keysOf.mpr ⟨k.toNat, UInt32.lt_iff_toNat_lt.mp hk, rfl⟩⟩
    · simp only [Key.entry, Entry.of, Key.permuted_of]
      rw [show (Key.of k.toNat (permutedAt k.toNat record.hash) id).permutation = k.toNat from rfl,
        UInt32.ofNat_toNat]
      rfl

/-- The order of the keys is the order of their entries. -/
theorem Filed.ascending (h : Filed permutations.toNat stored tables) :
    (tables.list true).Pairwise Entry.Before := by
  rw [list_true, List.pairwise_map]
  refine ExtTreeSet.ordered_toList.imp_of_mem fun {a b} ha hb hlt => ?_
  rw [Key.compare_eq, Ordering.then_eq_lt, Ordering.then_eq_lt, Std.compare_eq_lt,
    Std.compare_eq_iff_eq, Std.compare_eq_lt, Std.compare_eq_iff_eq, Std.compare_eq_lt] at hlt
  unfold Entry.Before
  rw [UInt32.lt_iff_toNat_lt, ← UInt32.toNat_inj, h.toNat_permutation ha, h.toNat_permutation hb]
  exact hlt

/-- The entries of the first permutation are listed first. -/
theorem Filed.initial (h : Filed permutations.toNat stored tables) :
    ∃ rest, tables.list true = tables.list false ++ rest
      ∧ (∀ entry ∈ tables.list false, entry.permutation = 0)
      ∧ ∀ entry ∈ rest, entry.permutation ≠ 0 := by
  have hzero : ∀ key ∈ tables.entries.toList, key.entry.permutation = 0 ↔ key.permutation = 0 := by
    intro key hkey
    rw [← UInt32.toNat_inj, h.toNat_permutation hkey]
    rfl
  have hsorted : tables.entries.toList.Pairwise
      fun a b => (b.permutation == 0) = true → (a.permutation == 0) = true := by
    refine ExtTreeSet.ordered_toList.imp fun {a b} hlt hb => ?_
    rw [Key.compare_eq, Ordering.then_eq_lt, Std.compare_eq_lt, Std.compare_eq_iff_eq] at hlt
    rw [beq_iff_eq] at hb ⊢
    omega
  refine ⟨(tables.entries.toList.filter fun key => ! (key.permutation == 0)).map Key.entry,
    ?_, ?_, ?_⟩
  · rw [list_true]
    conv => lhs; rw [← filter_append_filter hsorted, List.map_append]
    simp only [Tables.list, Bool.false_or]
  · intro entry hentry
    obtain ⟨key, hkey, rfl⟩ := List.mem_map.mp hentry
    obtain ⟨hmem, hfirst⟩ := List.mem_filter.mp hkey
    exact (hzero key hmem).mpr (by simpa using hfirst)
  · intro entry hentry
    obtain ⟨key, hkey, rfl⟩ := List.mem_map.mp hentry
    obtain ⟨hmem, hlater⟩ := List.mem_filter.mp hkey
    rw [Ne, hzero key hmem]
    simpa using hlater

/-- Each permutation lists each record once. -/
theorem Filed.once (h : Filed permutations.toNat stored tables) {k : UInt32}
    (hk : k < permutations) :
    ((tables.list true).filter (·.permutation = k)).Perm ((numbered stored).map (Entry.of k)) := by
  have hlisted : ((tables.list true).filter (·.permutation = k)).Nodup :=
    (h.ascending.imp Entry.Before.ne).filter _
  have hstored : ((numbered stored).map (Entry.of k)).Nodup := by
    refine List.pairwise_map.mpr ((pairwise_numbered stored).imp fun {a b} hlt heq => ?_)
    have hid : Eq (α := Int) a.1 b.1 := congrArg Entry.record heq
    omega
  refine (List.perm_ext_iff_of_nodup hlisted hstored).mpr fun entry => ?_
  rw [List.mem_filter, h.mem_list, List.mem_map, decide_eq_true_eq]
  constructor
  · rintro ⟨⟨k', -, numberedRecord, hmem, rfl⟩, rfl⟩
    exact ⟨numberedRecord, hmem, rfl⟩
  · rintro ⟨numberedRecord, hmem, rfl⟩
    exact ⟨⟨k, hk, numberedRecord, hmem, rfl⟩, rfl⟩

/-- What is listed of tables that file some records. -/
theorem Filed.isDump (h : Filed permutations.toNat stored tables) :
    IsDump permutations stored (tables.list true) (tables.list false) where
  ascending := h.ascending
  nodup := h.ascending.imp Entry.Before.ne
  mem_iff := h.mem_list
  once := fun _ => h.once
  initial := h.initial

end Listing

/-! ## §3. What handles list. -/

namespace Session

variable {place : Place} {options : Options} {s : Session}

/-- After any calls on a new index every open handle lists the entries of the records that were
accepted, ascending by permutation, by the number of the permuted hash and by record.  The order of
stored halves is that of the numbers of the hashes, and so is the order of the hashes. -/
theorem entries_ascend (h : s.Founded place options) (calls : List Call) :
    (∃ all first, IsDump options.permutations (stored place s calls) all first
      ∧ ∀ handle ∈ (s.run calls).handles, handle.store = .file place →
        File.entries handle true (s.run calls).disk = .ok all
          ∧ File.entries handle false (s.run calls).disk = .ok first)
    ∧ (∀ a b : SimHash,
      (compare (biased a.high) (biased b.high)).then (compare (biased a.low) (biased b.low))
        = compare a.toBits.toNat b.toBits.toNat)
    ∧ ∀ a b : SimHash, compare a b = compare a.toBits.toNat b.toBits.toNat := by
  have hkeeps := keeps_run (keeps_founded h) calls
  rw [List.nil_append] at hkeeps
  obtain ⟨⟨tables, hholds, hfiled, -⟩, -⟩ := hkeeps
  refine ⟨⟨_, _, hfiled.isDump, fun handle _ hstore => ?_⟩, compare_stored, compare_toBits⟩
  rw [File.entries, File.entries, hstore, hholds.tables_eq]
  exact ⟨rfl, rfl⟩

/-- Two records, the hash of the first of which has its top bit set. -/
def topBit : List Call :=
  [.add 0 [⟨⟨0x8000000000000000, 0⟩, 3, 4⟩, ⟨⟨1, 0xffffffffffffffff⟩, 3, 5⟩]]

theorem entries_ascend_top_bit :
    (start {}).Founded ["i"] {}
      ∧ ∃ all first, IsDump 28
          [⟨⟨0x8000000000000000, 0⟩, 3, 4⟩, ⟨⟨1, 0xffffffffffffffff⟩, 3, 5⟩] all first
        ∧ (all.filter (·.permutation = 27)).length = 2
        ∧ ∀ handle ∈ ((start {}).run topBit).handles, handle.store = .file ["i"] →
          File.entries handle true ((start {}).run topBit).disk = .ok all := by
  have hnew : (start {}).Founded ["i"] {} := founded_start rfl
  obtain ⟨⟨all, first, hdump, hlist⟩, -, -⟩ := entries_ascend hnew topBit
  have honce := (hdump.once 27 (by decide)).length_eq
  exact ⟨hnew, all, first, hdump, honce, fun handle hmem hat => (hlist handle hmem hat).1⟩

/-- The index that was taken over lists no entry of its second permutation, though it lists a record,
and there are no records, whichever they are, of which its entries are the ones of both permutations. -/
theorem entries_lacking_taken_over :
    takenOver.Begun ["i"] widerOptions
      ∧ (∀ handle ∈ takenOver.handles, handle.permutations = 2
        ∧ File.records handle takenOver.disk = .ok (numbered [oldRecord])
        ∧ ∃ all, File.entries handle true takenOver.disk = .ok all
          ∧ ∀ entry ∈ all, entry.permutation ≠ 1)
      ∧ ¬ ∃ kept all first, IsDump widerOptions.permutations kept all first
        ∧ ∀ handle ∈ takenOver.handles, File.entries handle true takenOver.disk = .ok all := by
  have hfiled : Filed (1 : UInt32).toNat [oldRecord] (oldTables.retitled widerOptions) :=
    filed_takenOver
  have hlisted : ∀ handle ∈ takenOver.handles, File.entries handle true takenOver.disk
      = .ok ((oldTables.retitled widerOptions).list true) := by
    intro handle hmem
    obtain rfl := eq_of_mem_takenOver hmem
    rw [File.entries]
    exact congrArg _ holds_takenOver.tables_eq
  -- every entry is of the first permutation
  have hfirst : ∀ entry ∈ (oldTables.retitled widerOptions).list true, entry.permutation ≠ 1 := by
    intro entry hentry
    obtain ⟨k, hk, numberedRecord, -, rfl⟩ := hfiled.mem_list.mp hentry
    exact UInt32.ne_of_lt hk
  refine ⟨begun_takenOver, fun handle hmem => ⟨?_, records_takenOver hmem, _, hlisted handle hmem,
    hfirst⟩, ?_⟩
  · rw [eq_of_mem_takenOver hmem]
    rfl
  rintro ⟨kept, all, first, hdump, hall⟩
  obtain rfl := Except.ok.inj ((hlisted _ mem_takenOver).symm.trans (hall _ mem_takenOver))
  -- the record that is listed under the first permutation would be listed under the second
  have hentry : Entry.of 0 (1, oldRecord) ∈ (oldTables.retitled widerOptions).list true :=
    hfiled.mem_list.mpr ⟨0, by decide, _, List.mem_singleton_self _, rfl⟩
  obtain ⟨_, -, numberedRecord, hkept, -⟩ := hdump.mem_iff.mp hentry
  exact hfirst _ (hdump.mem_iff.mpr ⟨1, by decide, numberedRecord, hkept, rfl⟩) rfl

end Session

end Flowprint.Index
