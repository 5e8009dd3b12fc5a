/-
  Flowprint.Proofs.Feature.Extraction
  ────────────────────────────────
  The features of a graph, said without maps and counters.

  The reference lists a key for each configured distance and each block whose ball is not too large,
  and one for each place at which three mnemonics follow each other.  The number of an occurrence is
  the number of equal keys before it, wherever they come from.

  Occurrence numbers make identities unique.  Keys are of any length, but the number is always in the
  last four bytes; so what is hashed says which occurrence of which key it is.

  Main statements:

      number_eq           numbers count the equal keys before
      number_keys         the occurrences are those of the reference
      message_injective   what is hashed tells occurrences apart
      extract_reference   the features are those of the reference, with unique identities
-/
import Flowprint.Proofs.Graph.Ball
import Flowprint.Proofs.Relocation

namespace Flowprint.Extractor

open Std (ExtTreeMap)

/-! ## §1. Numbers of occurrences. -/

/-- Keys with the number of equal keys before each. -/
def numbered (keys : List (FeatureKind × FeatureKey)) : List Occurrence :=
  keys.mapIdx fun i entry => ⟨entry.1, entry.2, (keys.take i).countP (·.2 = entry.2)⟩

/-- Numbers go on from how often keys have come up already. -/
theorem number_eq (seen : ExtTreeMap FeatureKey Nat) (keys : List (FeatureKind × FeatureKey)) :
    number seen keys = keys.mapIdx fun i entry =>
      ⟨entry.1, entry.2, seen.getD entry.2 0 + (keys.take i).countP (·.2 = entry.2)⟩ := by
  induction keys generalizing seen with
  | nil => rfl
  | cons first rest ih =>
    rw [number, ih, List.mapIdx_cons, List.take_zero, List.countP_nil, Nat.add_zero]
    refine congrArg _ (List.mapIdx_eq_mapIdx_iff.mpr fun i hi => ?_)
    rw [List.take_succ_cons, List.countP_cons, ExtTreeMap.getD_insert]
    by_cases hsame : first.2 = rest[i].2
    · simp only [hsame, Std.compare_self, if_true, decide_true]
      congr 1
      omega
    · simp only [hsame, Std.compare_eq_iff_eq, if_false, decide_false, Bool.false_eq_true,
        Nat.add_zero]

theorem number_empty (keys : List (FeatureKind × FeatureKey)) : number ∅ keys = numbered keys := by
  rw [number_eq, numbered]
  simp only [ExtTreeMap.getD_empty, Nat.zero_add]

theorem countP_take_lt {α : Type} {items : List α} {p : α → Bool} {i j : Nat} (hij : i < j)
    (hi : i < items.length) (hp : p items[i] = true) :
    (items.take i).countP p < (items.take j).countP p := by
  have hstep : (items.take (i + 1)).countP p = (items.take i).countP p + 1 := by
    rw [← List.take_concat_get' items i hi, List.countP_append, List.countP_singleton, if_pos hp]
  have hmore : (items.take (i + 1)).countP p ≤ (items.take j).countP p :=
    (List.take_sublist_take_left hij).countP_le
  omega

/-- Of two occurrences of a key the later has the greater number. -/
theorem numbered_ascending (keys : List (FeatureKind × FeatureKey)) :
    (numbered keys).Pairwise fun a b => a.key = b.key → a.earlier < b.earlier := by
  rw [List.pairwise_iff_getElem]
  intro i j hi hj hij hsame
  rw [numbered, List.length_mapIdx] at hi
  simp only [numbered, List.getElem_mapIdx] at hsame ⊢
  rw [← hsame]
  exact countP_take_lt hij hi (by simp)

/-! ## §2. Keys. -/

/-- For each distance the blocks, in order, whose ball is not too large. -/
noncomputable def places (extractor : Extractor) (g : Flowgraph) : List (UInt32 × Address) :=
  (extractor.distances ×ˢ g.nodes).filter fun (distance, centre) =>
    (g.ball centre distance.toNat).ncard ≤ max extractor.maxSize 1

/-- The keys of the balls that are not too large. -/
noncomputable def ballKeys (extractor : Extractor) (g : Flowgraph) : List FeatureKey :=
  (extractor.places g).map fun (distance, centre) =>
    shapeKey (g.around centre distance.toNat) centre

/-- The keys of three mnemonics in a row, for each place at which they begin. -/
def tripleKeys (mnemonics : List String) : List FeatureKey :=
  List.ofFn fun i : Fin (mnemonics.length - 2) =>
    tupleKey mnemonics[i.val] mnemonics[i.val + 1] mnemonics[i.val + 2]

/-- The occurrences of keys in a graph, as they are to be listed. -/
noncomputable def reference (extractor : Extractor) (g : Flowgraph) : List Occurrence :=
  numbered
    ((if extractor.graphlets then (extractor.ballKeys g).map (FeatureKind.graphlet, ·) else [])
      ++ (if extractor.mnemonics then
          (tripleKeys (g.nodes.flatMap fun a => (g.instructions a).map Instruction.mnemonic)).map
            (FeatureKind.mnemonicTuple, ·)
        else []))

section Keys

variable {g : Flowgraph}

theorem graphletKey?_eq (h : g.WellFormed) {centre : Address} (hcentre : g.hasNode centre = true)
    (maxSize : Nat) (distance : UInt32) :
    graphletKey? g maxSize centre distance
      = if (g.ball centre distance.toNat).ncard ≤ max maxSize 1 then
          some (shapeKey (g.around centre distance.toNat) centre)
        else none := by
  rw [graphletKey?, Flowgraph.neighbourhood?_eq h hcentre]
  split <;> rfl

/-- The keys of graphlets are those of the balls that are not too large. -/
theorem graphletKeys_eq (h : g.WellFormed) (extractor : Extractor) :
    extractor.graphletKeys g = extractor.ballKeys g := by
  rw [graphletKeys, ballKeys, places]
  induction extractor.distances with
  | nil => rfl
  | cons distance rest ih =>
    rw [List.flatMap_cons, ih, List.product_cons, List.filter_append, List.map_append]
    refine congrArg (· ++ _) ?_
    rw [List.filter_map, List.map_map, ← List.filterMap_eq_map', List.filterMap_filter]
    refine List.filterMap_congr fun centre hcentre => ?_
    rw [graphletKey?_eq h (Flowgraph.mem_nodes.mp hcentre)]
    simp only [Function.comp_apply, decide_eq_true_eq]

theorem tripleKeys_cons (a b c : String) (rest : List String) :
    tripleKeys (a :: b :: c :: rest) = tupleKey a b c :: tripleKeys (b :: c :: rest) := by
  refine List.ext_getElem ?_ fun i _ _ => ?_
  · simp only [tripleKeys, List.length_ofFn, List.length_cons]
    omega
  · cases i with
    | zero => simp only [tripleKeys, List.getElem_ofFn, List.getElem_cons_zero, List.getElem_cons_succ]
    | succ i => simp only [tripleKeys, List.getElem_ofFn, List.getElem_cons_succ]

/-- The keys of all runs of three are those of the places at which they begin. -/
theorem tupleKeys_eq (mnemonics : List String) : tupleKeys mnemonics = tripleKeys mnemonics := by
  fun_induction tupleKeys mnemonics with
  | case1 a b c rest ih => rw [ih, tripleKeys_cons]
  | case2 mnemonics hshort =>
    match mnemonics with
    | [] | [_] | [_, _] => rfl
    | a :: b :: c :: rest => exact (hshort a b c rest rfl).elim

/-- The occurrences that are numbered are those of the reference. -/
theorem number_keys (h : g.WellFormed) (extractor : Extractor) :
    number ∅ (extractor.keys g) = extractor.reference g := by
  rw [number_empty, keys, reference, graphletKeys_eq h, tupleKeys_eq, Flowgraph.mnemonics_eq h]

end Keys

/-! ## §3. Identities. -/

/-- What is hashed for an occurrence. -/
def Occurrence.message (occurrence : Occurrence) : List UInt8 :=
  occurrence.key ++ FeatureId.occurrenceBytes (.ofNat occurrence.earlier)

/-- No two of the messages that are hashed for some occurrences have the same leading part of their
digests. -/
def CollisionFree (occurrences : List Occurrence) : Prop :=
  ∀ a ∈ occurrences, ∀ b ∈ occurrences,
    Digest.leading 128 (Digest.sha256 a.message) = Digest.leading 128 (Digest.sha256 b.message) →
      a.message = b.message

instance (occurrences : List Occurrence) : Decidable (CollisionFree occurrences) :=
  inferInstanceAs (Decidable (∀ a ∈ occurrences, ∀ b ∈ occurrences, _ → _))

section Identities

variable {occurrences : List Occurrence} {a b : Occurrence}

theorem occurrenceBytes_injective {m n : UInt32}
    (h : FeatureId.occurrenceBytes m = FeatureId.occurrenceBytes n) : m = n := by
  simp only [FeatureId.occurrenceBytes, List.cons.injEq, and_true, ← UInt8.toNat_inj] at h
  simp only [UInt32.toNat_toUInt8, UInt32.toNat_shiftRight, UInt32.reduceToNat, Nat.reduceMod,
    Nat.shiftRight_eq_div_pow] at h
  have hm := m.toNat_lt
  have hn := n.toNat_lt
  exact UInt32.toNat_inj.mp (by omega)

/-- What is hashed tells occurrences apart. -/
theorem message_injective (ha : a.earlier < 2 ^ 32) (hb : b.earlier < 2 ^ 32)
    (h : a.message = b.message) : a.key = b.key ∧ a.earlier = b.earlier := by
  -- the last four bytes are the number, whatever the length of the key
  obtain ⟨hkey, hbytes⟩ := List.append_inj' h rfl
  have hnumber := congrArg UInt32.toNat (occurrenceBytes_injective hbytes)
  rw [UInt32.toNat_ofNat_of_lt' ha, UInt32.toNat_ofNat_of_lt' hb] at hnumber
  exact ⟨hkey, hnumber⟩

/-- Occurrences that are told apart have different identities. -/
theorem nodup_ids (hfree : CollisionFree occurrences)
    (hdiffer : occurrences.Pairwise fun a b => a.message ≠ b.message) :
    ((occurrences.map Occurrence.feature).map Feature.id).Nodup := by
  rw [List.map_map]
  refine List.pairwise_map.mpr (hdiffer.imp_of_mem fun {a b} ha hb hne hsame => ?_)
  exact hne (hfree a ha b hb hsame)

/-- The features of a graph are those of the reference, blocks in ascending order: all of them if
repeats are tagged, and those that come up for the first time if they are dropped.  Their identities
are unique if the digests of what is hashed are, as long as the numbers fit their four bytes. -/
theorem extract_reference {g : Flowgraph} (hg : g.Built) (extractor : Extractor) :
    g.nodes.Pairwise (· < ·)
    ∧ ({ extractor with multiplicity := .occurrenceTagged }.extract g
        = (extractor.reference g).map Occurrence.feature
      ∧ { extractor with multiplicity := .once }.extract g
        = ((extractor.reference g).filter (·.earlier = 0)).map Occurrence.feature)
    ∧ (CollisionFree (extractor.reference g) → (∀ o ∈ extractor.reference g, o.earlier < 2 ^ 32) →
      (({ extractor with multiplicity := .occurrenceTagged }.extract g).map Feature.id).Nodup)
    ∧ (CollisionFree ((extractor.reference g).filter (·.earlier = 0)) →
      (({ extractor with multiplicity := .once }.extract g).map Feature.id).Nodup) := by
  have hnumber := number_keys (Flowgraph.wellFormed_built hg) extractor
  have htagged : { extractor with multiplicity := .occurrenceTagged }.extract g
      = (extractor.reference g).map Occurrence.feature := by
    rw [← hnumber]
    rfl
  have honce : { extractor with multiplicity := .once }.extract g
      = ((extractor.reference g).filter (·.earlier = 0)).map Occurrence.feature := by
    rw [← hnumber]
    rfl
  have hascending : (extractor.reference g).Pairwise fun a b => a.key = b.key → a.earlier < b.earlier :=
    numbered_ascending _
  refine ⟨g.pairwise_nodes, ⟨htagged, honce⟩, fun hfree hword => ?_, fun hfree => ?_⟩
  · rw [htagged]
    refine nodup_ids hfree (hascending.imp_of_mem fun {a b} ha hb hlater hsame => ?_)
    obtain ⟨hkey, hnumber⟩ := message_injective (hword a ha) (hword b hb) hsame
    exact absurd hnumber (Nat.ne_of_lt (hlater hkey))
  · rw [honce]
    refine nodup_ids hfree ((hascending.sublist List.filter_sublist).imp_of_mem
      fun {a b} ha hb hlater hsame => ?_)
    have hfirst : a.earlier = 0 := of_decide_eq_true (List.mem_filter.mp ha).2
    have hfirst' : b.earlier = 0 := of_decide_eq_true (List.mem_filter.mp hb).2
    obtain ⟨hkey, -⟩ := message_injective (by omega) (by omega) hsame
    have hlt := hlater hkey
    omega

end Identities

/-- A block that pushes four times. -/
def fourPushes : Flowgraph :=
  { (Flowgraph.empty .autoCreate).withNode 1 with
    code := (∅ : ExtTreeMap Address (List Instruction)).insert 1 (List.replicate 4 ⟨"push", []⟩) }

theorem built_fourPushes : fourPushes.Built := by
  have hnode : ((Flowgraph.empty .autoCreate).withNode 1).Built := .addNode (.empty .autoCreate) 1
  have hset : ((Flowgraph.empty .autoCreate).withNode 1).setInstructions 1
      (List.replicate 4 ⟨"push", []⟩) = .ok fourPushes := by
    rw [Flowgraph.setInstructions, if_pos (Flowgraph.hasNode_withNode.mpr (.inl rfl))]
    rfl
  exact .setInstructions hnode hset

/-- The shape of the block comes up at each of three distances, and the mnemonics at two places. -/
theorem extract_reference_pushes :
    fourPushes.Built
      ∧ ((({} : Extractor).extract fourPushes).map Feature.id).Nodup
      ∧ (({} : Extractor).extract fourPushes).length = 5
      ∧ ((({ multiplicity := .once } : Extractor).extract fourPushes).map Feature.id).Nodup
      ∧ (({ multiplicity := .once } : Extractor).extract fourPushes).length = 2 := by
  obtain ⟨-, -, htagged, honce⟩ := extract_reference built_fourPushes {}
  rw [← number_keys (Flowgraph.wellFormed_built built_fourPushes)] at htagged honce
  have hfree : CollisionFree (number ∅ (({} : Extractor).keys fourPushes)) := by decide +kernel
  have hword : ∀ o ∈ number ∅ (({} : Extractor).keys fourPushes), o.earlier < 2 ^ 32 := by
    decide +kernel
  refine ⟨built_fourPushes, htagged hfree hword, by decide +kernel, honce ?_, by decide +kernel⟩
  intro a ha b hb
  exact hfree a (List.mem_of_mem_filter ha) b (List.mem_of_mem_filter hb)

end Flowprint.Extractor
