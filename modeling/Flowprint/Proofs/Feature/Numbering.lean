/-
  Flowprint.Proofs.Feature.Numbering
  ────────────────────────────────
  Occurrence numbers depend on how often keys come up, not on where.

  Keys that are numbered in another order get the same numbers in another order, as long as keys of
  one kind are numbered.  Blocks at other addresses come up in another order, but with the same
  neighbourhoods; so a graph keeps its graphlets whatever addresses its blocks get.

  Main statements:

      numbered_append       numbers go on from the keys before
      mem_numbered          a key has the numbers below the number of times it comes up
      numbered_perm         the order of the keys does not matter
      graphlets_renamed     blocks at other addresses have the same graphlets
-/
import Flowprint.Proofs.Feature.Extraction

namespace Flowprint.Extractor

/-! ## §1. Numbers. -/

section Numbers

variable {kind : FeatureKind} {keys others : List FeatureKey}

/-- Numbers go on from the keys before. -/
theorem numbered_append (first second : List (FeatureKind × FeatureKey)) :
    numbered (first ++ second) = numbered first ++ second.mapIdx fun i entry =>
      ⟨entry.1, entry.2, first.countP (·.2 = entry.2)
        + (second.take i).countP (·.2 = entry.2)⟩ := by
  rw [numbered, List.mapIdx_append]
  congr 1
  · refine List.mapIdx_eq_mapIdx_iff.mpr fun i hi => ?_
    rw [List.take_append_of_le_length hi.le]
  · refine List.mapIdx_eq_mapIdx_iff.mpr fun i _ => ?_
    rw [Nat.add_comm i, List.take_length_add_append, List.countP_append]

/-- Keys that do not come up before are numbered as on their own. -/
theorem numbered_apart {first second : List (FeatureKind × FeatureKey)}
    (h : ∀ a ∈ first, ∀ b ∈ second, a.2 ≠ b.2) :
    numbered (first ++ second) = numbered first ++ numbered second := by
  rw [numbered_append]
  congr 1
  refine List.mapIdx_eq_mapIdx_iff.mpr fun i hi => ?_
  have hnone : first.countP (·.2 = second[i].2) = 0 := by
    refine List.countP_eq_zero.mpr fun a ha => ?_
    simpa using h a ha _ (List.getElem_mem hi)
  rw [hnone, Nat.zero_add]

theorem countP_key (keys : List FeatureKey) (key : FeatureKey) :
    (keys.map (kind, ·)).countP (·.2 = key) = keys.count key := by
  rw [List.countP_map, List.count_eq_countP]
  refine List.countP_congr fun x _ => ?_
  rw [Function.comp_apply, decide_eq_true_eq, beq_iff_eq]

/-- A key has the numbers below the number of times it comes up. -/
theorem mem_numbered {k : FeatureKind} {x : FeatureKey} {n : Nat} :
    ⟨k, x, n⟩ ∈ numbered (keys.map (kind, ·)) ↔ k = kind ∧ n < keys.count x := by
  induction keys using List.reverseRecOn with
  | nil => simp [numbered]
  | append_singleton keys key ih =>
    rw [List.map_append, numbered_append, List.mem_append, ih]
    simp only [List.map_cons, List.map_nil, List.mapIdx_cons, List.mapIdx_nil, List.take_zero,
      List.countP_nil, Nat.add_zero, List.mem_singleton, Occurrence.mk.injEq, countP_key,
      List.count_append, List.count_singleton]
    -- the last key has the number of times that it came up before
    by_cases hkey : x = key
    · subst hkey
      simp only [beq_self_eq_true, if_true, true_and]
      rw [← and_or_left, Nat.lt_succ_iff_lt_or_eq]
    · simp only [hkey, false_and, and_false, or_false, beq_iff_eq, Ne.symm hkey, if_false, Nat.add_zero]

theorem nodup_numbered (keys : List (FeatureKind × FeatureKey)) : (numbered keys).Nodup := by
  refine (numbered_ascending keys).imp fun hlater heq => ?_
  subst heq
  exact absurd (hlater rfl) (Nat.lt_irrefl _)

/-- The order of the keys does not matter. -/
theorem numbered_perm (h : keys.Perm others) :
    (numbered (keys.map (kind, ·))).Perm (numbered (others.map (kind, ·))) := by
  refine (List.perm_ext_iff_of_nodup (nodup_numbered _) (nodup_numbered _)).mpr fun ⟨k, x, n⟩ => ?_
  rw [mem_numbered, mem_numbered, h.count_eq]

theorem select_perm {multiplicity : Multiplicity} {first second : List Occurrence}
    (h : first.Perm second) : (select multiplicity first).Perm (select multiplicity second) := by
  cases multiplicity with
  | occurrenceTagged => exact h
  | once => exact h.filter _

end Numbers

/-! ## §2. Blocks at other addresses. -/

section Renaming

variable {f : Address → Address} {g g' : Flowgraph}

/-- Blocks at other addresses have the same keys, in another order. -/
theorem graphletKeys_perm (h : Flowgraph.Renames f g g') (extractor : Extractor) :
    (extractor.graphletKeys g').Perm (extractor.graphletKeys g) := by
  unfold graphletKeys
  refine List.Perm.flatMap_left _ fun distance _ => ?_
  refine (h.nodes_perm.filterMap _).trans (List.Perm.of_eq ?_)
  rw [List.filterMap_map]
  refine List.filterMap_congr fun centre hcentre => ?_
  exact graphletKey?_image h (Flowgraph.mem_nodes.mp hcentre) _ _

/-- Without mnemonics all keys are those of graphlets. -/
theorem keys_graphlets {extractor : Extractor} (h : extractor.mnemonics = false) (g : Flowgraph) :
    extractor.keys g
      = (if extractor.graphlets then extractor.graphletKeys g else []).map
        (FeatureKind.graphlet, ·) := by
  rw [keys, h]
  cases extractor.graphlets with
  | true => exact List.append_nil _
  | false => rfl

/-- A graph that has the blocks and edges of another at other addresses. -/
theorem renames_of_perm (hg : g.WellFormed) (hg' : g'.WellFormed)
    (hinjective : ∀ a ∈ g.nodes, ∀ b ∈ g.nodes, f a = f b → a = b)
    (hnodes : g'.nodes.Perm (g.nodes.map f))
    (hedges : g'.edges.Perm (g.edges.map (Prod.map f f))) : Flowgraph.Renames f g g' where
  source := hg
  target := hg'
  injective ha hb := hinjective _ (Flowgraph.mem_nodes.mpr ha) _ (Flowgraph.mem_nodes.mpr hb)
  nodes := by
    intro b
    rw [← Flowgraph.mem_nodes, hnodes.mem_iff, List.mem_map]
    simp only [Flowgraph.mem_nodes]
  edges := by
    intro a b ha hb
    rw [← Flowgraph.mem_edges hg', ← Flowgraph.mem_edges hg, hedges.mem_iff, List.mem_map]
    constructor
    · rintro ⟨⟨x, y⟩, hedge, heq⟩
      obtain ⟨hx, hy⟩ := hg.ends ((Flowgraph.mem_edges hg).mp hedge)
      obtain ⟨hsource, htarget⟩ := Prod.mk.inj heq
      rw [← Flowgraph.mem_nodes] at ha hb hx hy
      rwa [← hinjective x hx a ha hsource, ← hinjective y hy b hb htarget]
    · intro hedge
      exact ⟨(a, b), hedge, rfl⟩

/-- Whatever addresses the blocks of a graph get, no two the same, the hash of the shape as seen from a
block stays the same, and so do the graphlets: there are the same keys as often, and the same features
as often, whether repeats count or not. -/
theorem graphlets_renamed (hg : g.Built) (hg' : g'.Built)
    (hinjective : ∀ a ∈ g.nodes, ∀ b ∈ g.nodes, f a = f b → a = b)
    (hnodes : g'.nodes.Perm (g.nodes.map f))
    (hedges : g'.edges.Perm (g.edges.map (Prod.map f f))) :
    (∀ start ∈ g.nodes, ∀ keys : Flowgraph.ShapeKeys,
      g'.shapeHash (f start) keys = g.shapeHash start keys)
    ∧ ∀ extractor : Extractor, extractor.mnemonics = false →
        (extractor.keys g').Perm (extractor.keys g)
          ∧ (extractor.extract g').Perm (extractor.extract g) := by
  have h := renames_of_perm (Flowgraph.wellFormed_built hg) (Flowgraph.wellFormed_built hg')
    hinjective hnodes hedges
  refine ⟨fun start hstart keys => h.shapeHash_image (Flowgraph.mem_nodes.mp hstart) keys,
    fun extractor hplain => ?_⟩
  have hkeys : (if extractor.graphlets then extractor.graphletKeys g' else []).Perm
      (if extractor.graphlets then extractor.graphletKeys g else []) := by
    split
    · exact graphletKeys_perm h extractor
    · exact .nil
  constructor
  · rw [keys_graphlets hplain, keys_graphlets hplain]
    exact hkeys.map _
  · rw [extract, extract, number_empty, number_empty, keys_graphlets hplain, keys_graphlets hplain]
    exact (select_perm (numbered_perm hkeys)).map _

end Renaming

/-- The addresses up to four in the opposite order. -/
def turned (a : Address) : Address :=
  5 - a

/-- The ring and the block behind it, with the addresses in the opposite order. -/
def turnedRing : Flowgraph :=
  .ofEdges [(4, 3), (3, 3), (3, 2), (2, 4), (2, 1)]

/-- The blocks come up in the opposite order, and so do their keys. -/
theorem graphlets_renamed_ring :
    Flowgraph.ring.Built ∧ turnedRing.Built
      ∧ turnedRing.shapeHash (turned 4) ⟨3, 5, 7⟩ = Flowgraph.ring.shapeHash 4 ⟨3, 5, 7⟩
      ∧ (({ mnemonics := false } : Extractor).keys turnedRing)
        ≠ (({ mnemonics := false } : Extractor).keys Flowgraph.ring)
      ∧ (({ mnemonics := false } : Extractor).keys turnedRing).Perm
          (({ mnemonics := false } : Extractor).keys Flowgraph.ring)
      ∧ (({ mnemonics := false, multiplicity := .once } : Extractor).extract turnedRing).Perm
          (({ mnemonics := false, multiplicity := .once } : Extractor).extract Flowgraph.ring) := by
  have hring : Flowgraph.ring.Built := Flowgraph.built_ofEdges _
  have hturned : turnedRing.Built := Flowgraph.built_ofEdges _
  have hinjective : ∀ a ∈ Flowgraph.ring.nodes, ∀ b ∈ Flowgraph.ring.nodes,
      turned a = turned b → a = b := fun _ _ _ _ hsame => (UInt64.sub_right_inj 5).mp hsame
  have hnodes : turnedRing.nodes.Perm (Flowgraph.ring.nodes.map turned) := by decide +kernel
  have hedges : turnedRing.edges.Perm (Flowgraph.ring.edges.map (Prod.map turned turned)) := by
    decide +kernel
  obtain ⟨hshape, hgraphlets⟩ := graphlets_renamed hring hturned hinjective hnodes hedges
  exact ⟨hring, hturned, hshape 4 (by decide +kernel) _, by decide +kernel,
    (hgraphlets { mnemonics := false } rfl).1,
    (hgraphlets { mnemonics := false, multiplicity := .once } rfl).2⟩

end Flowprint.Extractor
