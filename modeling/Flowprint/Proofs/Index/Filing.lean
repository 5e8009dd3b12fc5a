/-
  Flowprint.Proofs.Index.Filing
  ────────────────────────────────
  What the tables hold after any number of records have been added.

  `Filed` ties the tables to the list of the records that were added: each record has its rank in the
  list as its number, and its entries are its permuted hashes under that number.  One record more
  keeps the tie, hence any batch does.

  Main statements:

      Filed.appendAll       adding a batch extends the list by the batch
      Filed.toList_records  the records of the tables, in order, are the list with its numbers
      extends_appendAll     a batch is behind the records of any tables
      Headed.ofTables       a header describes one handle
      headed_newTables      the header of a new index has its options
-/
import Flowprint.Index.Query

namespace Flowprint.Index

open Std

/-! ## §1. Numbered records. -/

/-- Records with their numbers, which count from one. -/
def numbered (stored : List Record) : List (RecordId × Record) :=
  stored.mapIdx fun i record => ((i : Int) + 1, record)

@[simp] theorem length_numbered (stored : List Record) :
    (numbered stored).length = stored.length := by
  simp [numbered]

theorem mem_numbered {stored : List Record} {id : Int} {record : Record} :
    (id, record) ∈ numbered stored ↔ ∃ i : Nat, stored[i]? = some record ∧ id = (i : Int) + 1 := by
  rw [numbered, List.mem_mapIdx]
  constructor
  · intro hex
    obtain ⟨i, hi, heq⟩ := hex
    obtain ⟨rfl, rfl⟩ := Prod.mk.inj heq
    exact ⟨i, List.getElem?_eq_getElem hi, rfl⟩
  · intro hex
    obtain ⟨i, hrecord, rfl⟩ := hex
    obtain ⟨hi, rfl⟩ := List.getElem?_eq_some_iff.mp hrecord
    exact ⟨i, hi, rfl⟩

theorem numbered_concat (stored : List Record) (record : Record) :
    numbered (stored ++ [record]) = numbered stored ++ [((stored.length : Int) + 1, record)] := by
  simp [numbered, List.mapIdx_append]

/-- Records that are added do not change the numbers of the others. -/
theorem numbered_append (stored more : List Record) :
    numbered stored <+: numbered (stored ++ more) := by
  rw [numbered, numbered, List.mapIdx_append]
  exact List.prefix_append _ _

/-- Numbers grow along the list. -/
theorem pairwise_numbered (stored : List Record) :
    (numbered stored).Pairwise fun a b => LT.lt (α := Int) a.1 b.1 := by
  rw [List.pairwise_iff_getElem]
  intro i j hi hj hij
  simp only [numbered, List.getElem_mapIdx]
  show (i : Int) + 1 < (j : Int) + 1
  omega

/-- A number is the number of one record only. -/
theorem record_unique {stored : List Record} {id : Int} {a b : Record}
    (ha : (id, a) ∈ numbered stored) (hb : (id, b) ∈ numbered stored) : a = b := by
  obtain ⟨i, hi, rfl⟩ := mem_numbered.mp ha
  obtain ⟨j, hj, heq⟩ := mem_numbered.mp hb
  have hij : i = j := by omega
  subst hij
  exact Option.some.inj (hi.symm.trans hj)

/-- The next number is beyond all numbers. -/
theorem id_le_length {stored : List Record} {id : Int} {record : Record}
    (h : (id, record) ∈ numbered stored) : id ≤ stored.length := by
  obtain ⟨i, hi, rfl⟩ := mem_numbered.mp h
  obtain ⟨hlt, -⟩ := List.getElem?_eq_some_iff.mp hi
  omega

/-! ## §2. Keys of a record. -/

/-- The hash permuted `k + 1` times, under which table `k` files it. -/
def permutedAt (k : Nat) (hash : SimHash) : SimHash :=
  .ofBits (Permutation.iterate (k + 1) hash.toBits)

theorem mem_keysOf {permutations : Nat} {hash : SimHash} {id : RecordId} {key : Key} :
    key ∈ Tables.keysOf permutations hash id
      ↔ ∃ k < permutations, key = Key.of k (permutedAt k hash) id := by
  rw [Tables.keysOf, List.mem_mapIdx]
  constructor
  · intro hex
    obtain ⟨k, hk, rfl⟩ := hex
    rw [Permutation.length_orbit] at hk
    have hbits := Permutation.orbit_eq_iterates hash.toBits hk
    obtain ⟨_, hget⟩ := List.getElem?_eq_some_iff.mp hbits
    exact ⟨k, hk, by rw [hget, permutedAt]⟩
  · intro hex
    obtain ⟨k, hk, rfl⟩ := hex
    have hbits := Permutation.orbit_eq_iterates hash.toBits hk
    obtain ⟨hlen, hget⟩ := List.getElem?_eq_some_iff.mp hbits
    exact ⟨k, hlen, by rw [hget, permutedAt]⟩

theorem length_keysOf (permutations : Nat) (hash : SimHash) (id : RecordId) :
    (Tables.keysOf permutations hash id).length = permutations := by
  simp [Tables.keysOf]

/-- The keys of a record are in different tables. -/
theorem nodup_keysOf (permutations : Nat) (hash : SimHash) (id : RecordId) :
    (Tables.keysOf permutations hash id).Nodup := by
  rw [List.Nodup, List.pairwise_iff_getElem]
  intro i j hi hj hij heq
  -- equal keys would be in one table
  have htable := congrArg Key.permutation heq
  simp only [Tables.keysOf, List.getElem_mapIdx, Key.of] at htable
  omega

theorem record_of_mem_keysOf {permutations : Nat} {hash : SimHash} {id : RecordId} {key : Key}
    (h : key ∈ Tables.keysOf permutations hash id) : key.record = id := by
  obtain ⟨k, -, rfl⟩ := mem_keysOf.mp h
  rfl

/-! ## §3. Insertion of many keys. -/

theorem mem_foldl_insert {keys : List Key} {entries : ExtTreeSet Key} {key : Key} :
    key ∈ keys.foldl (fun entries key => entries.insert key) entries
      ↔ key ∈ keys ∨ key ∈ entries := by
  induction keys generalizing entries with
  | nil => simp
  | cons first keys ih =>
    rw [List.foldl_cons, ih, ExtTreeSet.mem_insert, List.mem_cons, Std.compare_eq_iff_eq,
      eq_comm (a := first)]
    constructor
    · intro hcase
      rcases hcase with h | h | h
      · exact .inl (.inr h)
      · exact .inl (.inl h)
      · exact .inr h
    · intro hcase
      rcases hcase with (h | h) | h
      · exact .inr (.inl h)
      · exact .inl h
      · exact .inr (.inr h)

/-- Keys that are new and differ from one another each count. -/
theorem size_foldl_insert {keys : List Key} {entries : ExtTreeSet Key} (hnodup : keys.Nodup)
    (hnew : ∀ key ∈ keys, key ∉ entries) :
    (keys.foldl (fun entries key => entries.insert key) entries).size
      = entries.size + keys.length := by
  induction keys generalizing entries with
  | nil => simp
  | cons first keys ih =>
    obtain ⟨hfirst, hrest⟩ := List.nodup_cons.mp hnodup
    -- the other keys are still new after the first
    have hstill : ∀ key ∈ keys, key ∉ entries.insert first := by
      intro key hkey hmem
      rw [ExtTreeSet.mem_insert, Std.compare_eq_iff_eq] at hmem
      rcases hmem with rfl | hmem
      · exact hfirst hkey
      · exact hnew key (List.mem_cons_of_mem _ hkey) hmem
    have habsent : ¬ entries.contains first = true := by
      rw [ExtTreeSet.contains_iff_mem]
      exact hnew first List.mem_cons_self
    rw [List.foldl_cons, ih hrest hstill, ExtTreeSet.size_insert, if_neg habsent,
      List.length_cons]
    omega

/-! ## §4. Tables that file a list of records. -/

/-- The tables hold the listed records under their numbers, and of each record the entries of all
its permutations. -/
structure Filed (permutations : Nat) (stored : List Record) (tables : Tables) : Prop where
  lastId : Eq (α := Int) tables.lastId stored.length
  records : ∀ {id record}, tables.records[id]? = some record ↔ (id, record) ∈ numbered stored
  entries : ∀ {key}, key ∈ tables.entries ↔
    ∃ id record, (id, record) ∈ numbered stored ∧ key ∈ Tables.keysOf permutations record.hash id
  entryCount : tables.entries.size = permutations * stored.length

namespace Filed

variable {permutations : Nat} {stored : List Record} {tables : Tables}

/-- Tables without records file the empty list. -/
theorem nil (permutations : Nat) (header : ExtTreeMap String Int64) :
    Filed permutations [] { header := header } where
  lastId := rfl
  records := by simp [numbered]
  entries := by simp [numbered]
  entryCount := rfl

theorem setHeader (h : Filed permutations stored tables) (key : String) (value : UInt64) :
    Filed permutations stored (tables.setHeader key value) :=
  ⟨h.lastId, h.records, h.entries, h.entryCount⟩

/-- No entry names a record that is still to come. -/
theorem next_free (h : Filed permutations stored tables) {hash : SimHash} {key : Key}
    (hkey : key ∈ Tables.keysOf permutations hash (tables.lastId + 1)) : key ∉ tables.entries := by
  intro hmem
  -- such an entry would be of a stored record, and those have lower numbers
  obtain ⟨id, record, hstored, hof⟩ := h.entries.mp hmem
  have hle := id_le_length hstored
  have hlast := h.lastId
  have hid : Eq (α := Int) id (tables.lastId + 1) :=
    (record_of_mem_keysOf hof).symm.trans (record_of_mem_keysOf hkey)
  omega

theorem append (h : Filed permutations stored tables) (record : Record) :
    Filed permutations (stored ++ [record]) (tables.append permutations record).2 where
  lastId := by
    show tables.lastId + 1 = _
    rw [h.lastId, List.length_append, List.length_singleton, Int.natCast_add, Int.natCast_one]
  records := by
    intro id found
    show (tables.records.insert (tables.lastId + 1) record)[id]? = some found ↔ _
    rw [ExtTreeMap.getElem?_insert, numbered_concat, List.mem_append, List.mem_singleton, h.lastId]
    -- the new number is beyond all old ones, so that the two cases exclude each other
    by_cases heq : (stored.length : Int) + 1 = id
    · subst heq
      rw [if_pos (Std.compare_eq_iff_eq.mpr rfl)]
      constructor
      · intro hsome
        exact .inr (by rw [Option.some.inj hsome])
      · intro hcase
        rcases hcase with hold | hnew
        · have hle := id_le_length hold
          omega
        · rw [(Prod.mk.inj hnew).2]
    · rw [if_neg (fun h => heq (Std.compare_eq_iff_eq.mp h)), h.records]
      constructor
      · exact .inl
      · intro hcase
        rcases hcase with hold | hnew
        · exact hold
        · exact absurd (Prod.mk.inj hnew).1.symm heq
  entries := by
    intro key
    show key ∈ (Tables.keysOf permutations record.hash (tables.lastId + 1)).foldl
      (fun entries key => entries.insert key) tables.entries ↔ _
    rw [mem_foldl_insert, h.entries, numbered_concat, h.lastId]
    constructor
    · intro hcase
      rcases hcase with hnew | ⟨id, old, hstored, hkey⟩
      · exact ⟨_, record, List.mem_append_right _ List.mem_cons_self, hnew⟩
      · exact ⟨id, old, List.mem_append_left _ hstored, hkey⟩
    · intro hex
      obtain ⟨id, found, hstored, hkey⟩ := hex
      rcases List.mem_append.mp hstored with hold | hlast
      · exact .inr ⟨id, found, hold, hkey⟩
      · obtain ⟨rfl, rfl⟩ := Prod.mk.inj (List.mem_singleton.mp hlast)
        exact .inl hkey
  entryCount := by
    show ((Tables.keysOf permutations record.hash (tables.lastId + 1)).foldl
      (fun entries key => entries.insert key) tables.entries).size = _
    rw [size_foldl_insert (nodup_keysOf _ _ _) fun key hkey => h.next_free hkey, h.entryCount,
      length_keysOf, List.length_append, List.length_singleton, Nat.mul_succ]

theorem appendAll (h : Filed permutations stored tables) (records : List Record) :
    Filed permutations (stored ++ records) (tables.appendAll permutations records).2 := by
  induction records generalizing stored tables with
  | nil => rw [List.append_nil]; exact h
  | cons record records ih =>
    have hrest := ih (h.append record)
    rw [List.append_assoc] at hrest
    exact hrest

/-- The records of the tables in the order of their numbers. -/
theorem toList_records (h : Filed permutations stored tables) :
    tables.records.toList = numbered stored := by
  have hmem : ∀ entry, entry ∈ tables.records.toList ↔ entry ∈ numbered stored := by
    intro entry
    obtain ⟨id, record⟩ := entry
    rw [ExtTreeMap.mem_toList_iff_getElem?_eq_some, h.records]
  have hleft : tables.records.toList.Pairwise fun a b => LT.lt (α := Int) a.1 b.1 :=
    ExtTreeMap.ordered_keys_toList.imp fun hlt => Std.compare_eq_lt.mp hlt
  have hright := pairwise_numbered stored
  have hirrefl : ∀ {a b : RecordId × Record}, LT.lt (α := Int) a.1 b.1 → a ≠ b := by
    rintro a b hlt rfl
    omega
  have hperm : tables.records.toList.Perm (numbered stored) :=
    (List.perm_ext_iff_of_nodup (hleft.imp hirrefl) (hright.imp hirrefl)).mpr hmem
  -- both lists ascend and have the same members
  refine hperm.eq_of_pairwise (fun a b _ _ hab hba => ?_) hleft hright
  omega

theorem size_records (h : Filed permutations stored tables) :
    tables.records.size = stored.length := by
  rw [← ExtTreeMap.length_toList, h.toList_records, length_numbered]

end Filed

/-! ## §5. Tables with a batch more. -/

/-- Records with the numbers behind a last one. -/
def numberedAfter (last : RecordId) (added : List Record) : List (RecordId × Record) :=
  added.mapIdx fun i record => (last + 1 + i, record)

theorem numberedAfter_cons (last : RecordId) (record : Record) (added : List Record) :
    numberedAfter last (record :: added)
      = (last + 1, record) :: numberedAfter (last + 1) added := by
  rw [numberedAfter, List.mapIdx_cons]
  have hfirst : Eq (α := Int) (last + 1 + (0 : Nat)) (last + 1) := by omega
  have hnext : ∀ i : Nat, Eq (α := Int) (last + 1 + (i + 1 : Nat)) (last + 1 + 1 + i) := by
    omega
  simp only [hnext]
  rw [hfirst]
  rfl

/-- Tables with some records more than others: the records are behind the last one, in their order,
each with its entries, and all else is as it was. -/
structure Extends (permutations : Nat) (added : List Record) (old tables : Tables) : Prop where
  lastId : Eq (α := Int) tables.lastId (old.lastId + added.length)
  records : ∀ {id record}, tables.records[id]? = some record ↔
    (id, record) ∈ numberedAfter old.lastId added
      ∨ ¬ (LT.lt (α := Int) old.lastId id ∧ LE.le (α := Int) id tables.lastId)
        ∧ old.records[id]? = some record
  entries : ∀ {key}, key ∈ tables.entries ↔
    (∃ id record, (id, record) ∈ numberedAfter old.lastId added
      ∧ key ∈ Tables.keysOf permutations record.hash id) ∨ key ∈ old.entries

namespace Extends

variable {permutations : Nat} {added : List Record} {old tables : Tables}

theorem setHeader (h : Extends permutations added old tables) (key : String) (value : UInt64) :
    Extends permutations added old (tables.setHeader key value) :=
  ⟨h.lastId, h.records, h.entries⟩

/-- A record that is added first is in front of the others. -/
theorem cons {record : Record}
    (h : Extends permutations added (old.append permutations record).2 tables) :
    Extends permutations (record :: added) old tables where
  lastId := by
    have hlast : Eq (α := Int) tables.lastId (old.lastId + 1 + added.length) := h.lastId
    rw [hlast, List.length_cons]
    omega
  records := by
    intro id found
    have hlast : Eq (α := Int) tables.lastId (old.lastId + 1 + added.length) := h.lastId
    rw [h.records, numberedAfter_cons, List.mem_cons, hlast]
    show _ ∨ ¬ (LT.lt (α := Int) (old.lastId + 1) id ∧ _)
      ∧ (old.records.insert (old.lastId + 1) record)[id]? = some found ↔ _
    rw [ExtTreeMap.getElem?_insert]
    by_cases hid : old.lastId + 1 = id
    · -- the first new number has the first new record
      subst hid
      have hbefore : ¬ (LT.lt (α := Int) (old.lastId + 1) (old.lastId + 1)
          ∧ LE.le (α := Int) (old.lastId + 1) (old.lastId + 1 + added.length)) := by
        omega
      have hamong : LT.lt (α := Int) old.lastId (old.lastId + 1)
          ∧ LE.le (α := Int) (old.lastId + 1) (old.lastId + 1 + added.length) := by
        omega
      rw [if_pos (Std.compare_eq_iff_eq.mpr rfl), and_iff_right hbefore,
        iff_false_intro (not_not_intro hamong), false_and, or_false, or_comm, Prod.mk.injEq,
        and_iff_right rfl, Option.some.injEq, eq_comm]
      rfl
    · have hamong : (LT.lt (α := Int) (old.lastId + 1) id
            ∧ LE.le (α := Int) id (old.lastId + 1 + added.length))
          ↔ LT.lt (α := Int) old.lastId id
            ∧ LE.le (α := Int) id (old.lastId + 1 + added.length) := by
        have hne : ¬ Eq (α := Int) (old.lastId + 1) id := hid
        omega
      have hfirst : ¬ (id, found) = (old.lastId + 1, record) :=
        fun heq => hid (Prod.mk.inj heq).1.symm
      rw [if_neg fun heq => hid (Std.compare_eq_iff_eq.mp heq), hamong, or_iff_right hfirst]
      rfl
  entries := by
    intro key
    rw [h.entries, numberedAfter_cons]
    show _ ∨ key ∈ (Tables.keysOf permutations record.hash (old.lastId + 1)).foldl
      (fun entries key => entries.insert key) old.entries ↔ _
    rw [mem_foldl_insert]
    constructor
    · rintro (⟨id, other, hmem, hkey⟩ | hfirst | hold)
      · exact .inl ⟨id, other, List.mem_cons_of_mem _ hmem, hkey⟩
      · exact .inl ⟨_, record, List.mem_cons_self, hfirst⟩
      · exact .inr hold
    · rintro (⟨id, other, hmem, hkey⟩ | hold)
      · rcases List.mem_cons.mp hmem with hfirst | hlater
        · obtain ⟨rfl, rfl⟩ := Prod.mk.inj hfirst
          exact .inr (.inl hkey)
        · exact .inl ⟨id, other, hlater, hkey⟩
      · exact .inr (.inr hold)

end Extends

/-- Adding records leaves the header alone. -/
theorem header_appendAll (permutations : Nat) (records : List Record) (tables : Tables) :
    (tables.appendAll permutations records).2.header = tables.header := by
  induction records generalizing tables with
  | nil => rfl
  | cons record records ih => exact ih (tables.append permutations record).2

theorem readHeader_appendAll (permutations : Nat) (records : List Record) (tables : Tables)
    (key : String) :
    (tables.appendAll permutations records).2.readHeader key = tables.readHeader key := by
  simp only [Tables.readHeader, header_appendAll]

/-- A number of the header does not depend on the others. -/
theorem readHeader_setHeader_ne (tables : Tables) {key other : String} (hne : key ≠ other)
    (value : UInt64) : (tables.setHeader key value).readHeader other = tables.readHeader other := by
  have hget : (tables.header.insert key value.toInt64)[other]? = tables.header[other]? := by
    rw [ExtTreeMap.getElem?_insert, if_neg fun heq => hne (Std.compare_eq_iff_eq.mp heq)]
  simp only [Tables.readHeader, Tables.setHeader, hget]

/-- Numbers up to the largest of a header are no negative numbers there. -/
theorem toInt64_nonneg {value : UInt64} (h : value.toNat ≤ maxHeader.toNat) :
    0 ≤ value.toInt64 := by
  have hmax : maxHeader.toNat = 2 ^ 63 - 1 := rfl
  have hint : value.toInt64.toInt = value.toNat := by
    show value.toBitVec.toInt = _
    rw [BitVec.toInt_eq_toNat_of_lt (by show 2 * value.toNat < 2 ^ 64; omega)]
    rfl
  rw [Int64.le_iff_toInt_le, hint]
  exact Int.natCast_nonneg _

/-- The three numbers of a header. -/
structure Headed (capacity : UInt64) (permutations : UInt32) (count : UInt64) (tables : Tables) :
    Prop where
  capacity : tables.readHeader capacityKey = .ok capacity
  permutations : tables.readHeader permutationsKey = .ok permutations.toUInt64
  count : tables.readHeader countKey = .ok count

namespace Headed

variable {capacity : UInt64} {permutations : UInt32} {count : UInt64} {tables : Tables}

theorem appendAll (h : Headed capacity permutations count tables) (n : Nat)
    (records : List Record) :
    Headed capacity permutations count (tables.appendAll n records).2 where
  capacity := (readHeader_appendAll n records tables _).trans h.capacity
  permutations := (readHeader_appendAll n records tables _).trans h.permutations
  count := (readHeader_appendAll n records tables _).trans h.count

theorem setCount (h : Headed capacity permutations count tables) {new : UInt64}
    (hnew : new.toNat ≤ maxHeader.toNat) :
    Headed capacity permutations new (tables.setHeader countKey new) where
  capacity := (readHeader_setHeader_ne tables (by decide) new).trans h.capacity
  permutations := (readHeader_setHeader_ne tables (by decide) new).trans h.permutations
  count := Tables.readHeader_setHeader tables _ (toInt64_nonneg hnew)

theorem setCapacity (h : Headed capacity permutations count tables) {new : UInt64}
    (hnew : new.toNat ≤ maxHeader.toNat) :
    Headed new permutations count (tables.setHeader capacityKey new) where
  capacity := Tables.readHeader_setHeader tables _ (toInt64_nonneg hnew)
  permutations := (readHeader_setHeader_ne tables (by decide) new).trans h.permutations
  count := (readHeader_setHeader_ne tables (by decide) new).trans h.count

/-- A header describes one handle, if its number of permutations is one that an index can have. -/
theorem ofTables (h : Headed capacity permutations count tables) (hmin : 1 ≤ permutations.toNat)
    (hmax : permutations.toNat ≤ maxPermutations) (path : String) (store : Store) :
    Handle.ofTables path store tables = .ok ⟨path, store, capacity, permutations, count⟩ := by
  have hcheck : Handle.checkPermutations permutations.toUInt64 = .ok permutations := by
    rw [Handle.checkPermutations, UInt32.toNat_toUInt64, if_pos ⟨hmin, hmax⟩,
      UInt32.toUInt32_toUInt64]
  rw [Handle.ofTables, h.capacity, h.permutations, h.count]
  show (Handle.checkPermutations permutations.toUInt64 >>= _) = _
  rw [hcheck]
  rfl

end Headed

/-! ## §7. New indexes. -/

/-- The tables of a new index. -/
def newTables (options : Options) : Tables :=
  ((({} : Tables).setHeader countKey 0).setHeader capacityKey options.capacity).setHeader
    permutationsKey options.permutations.toUInt64

/-- What it takes for options to be in range. -/
theorem validate_eq_ok {options : Options} (h : options.validate = .ok ()) :
    options.bits.toNat ≤ maxCapacityBits ∧ 1 ≤ options.permutations.toNat
      ∧ options.permutations.toNat ≤ maxPermutations := by
  unfold Options.validate at h
  split at h
  · exact absurd h (by simp)
  · split at h
    · exact absurd h (by simp)
    · omega

theorem capacity_le {options : Options} (h : options.validate = .ok ()) :
    options.capacity.toNat ≤ maxHeader.toNat := by
  obtain ⟨hbits, -, -⟩ := validate_eq_ok h
  have hmax : maxCapacityBits = 62 := rfl
  have hshift : options.capacity.toNat = 2 ^ options.bits.toNat % 2 ^ 64 := by
    show (1 <<< options.bits.toUInt64 : UInt64).toNat = _
    have hsmall : options.bits.toNat % 64 = options.bits.toNat := Nat.mod_eq_of_lt (by omega)
    rw [UInt64.toNat_shiftLeft, UInt32.toNat_toUInt64, hsmall, UInt64.toNat_one,
      Nat.shiftLeft_eq, Nat.one_mul]
  have hpow : 2 ^ options.bits.toNat ≤ 2 ^ 62 := Nat.pow_le_pow_right (by decide) (by omega)
  rw [hshift]
  exact Nat.le_trans (Nat.mod_le _ _) (Nat.le_trans hpow (by decide))

theorem filed_newTables (options : Options) :
    Filed options.permutations.toNat [] (newTables options) :=
  (((Filed.nil _ _).setHeader _ _).setHeader _ _).setHeader _ _

/-- The header of a new index has its options, and counts no records. -/
theorem headed_newTables {options : Options} (h : options.validate = .ok ()) :
    Headed options.capacity options.permutations 0 (newTables options) where
  capacity := (readHeader_setHeader_ne _ (by decide) _).trans
    (Tables.readHeader_setHeader _ _ (toInt64_nonneg (capacity_le h)))
  permutations := by
    refine Tables.readHeader_setHeader _ _ (toInt64_nonneg ?_)
    rw [UInt32.toNat_toUInt64]
    exact Nat.le_of_lt (Nat.lt_of_lt_of_le options.permutations.toNat_lt (by decide))
  count := by
    refine (readHeader_setHeader_ne _ (by decide) _).trans ?_
    refine (readHeader_setHeader_ne _ (by decide) _).trans ?_
    exact Tables.readHeader_setHeader _ _ (by decide)

end Flowprint.Index
