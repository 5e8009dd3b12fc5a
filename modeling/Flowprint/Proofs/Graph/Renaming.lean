/-
  Flowprint.Proofs.Graph.Renaming
  ────────────────────────────────
  What stays the same when the blocks of a graph get other addresses.

  `Renames` says that a map carries the blocks and edges of one graph to those of another, and no two
  blocks to the same.  The order of the addresses may change.  Then walks are carried to walks, so
  that distances, neighbourhoods and degrees are carried over, and the hash of the shape, which adds
  up one word per edge, stays the same.

  Main statements:

      walk_image                walks are carried to walks
      getElem?_within_image     blocks keep their distances
      renames_induced           parts are carried to parts
      shapeHash_image           the hash of the shape stays the same
-/
import Flowprint.Graph.Shape
import Flowprint.Proofs.Graph.Queue

namespace Flowprint.Flowgraph

open Std

/-! ## §1. Lists and searches of one graph. -/

section General

variable {g : Flowgraph} {a start : Address} {direction : Direction} {n : Nat}

/-- A list that has the images of the members of another, no two the same, is its image in some
order. -/
theorem perm_image {α : Type} {f : α → α} {members images : List α} (hmembers : members.Nodup)
    (himages : images.Nodup)
    (hinjective : ∀ a ∈ members, ∀ b ∈ members, f a = f b → a = b)
    (h : ∀ b, b ∈ images ↔ ∃ a ∈ members, f a = b) : images.Perm (members.map f) := by
  have hmap : (members.map f).Nodup := by
    refine List.pairwise_map.mpr (hmembers.imp_of_mem fun {a b} ha hb hne heq => ?_)
    exact hne (hinjective a ha b hb heq)
  refine (List.perm_ext_iff_of_nodup himages hmap).mpr fun b => ?_
  rw [h, List.mem_map]

theorem nodup_toList (set : ExtTreeSet Address) : set.toList.Nodup :=
  set.distinct_toList.imp fun hne heq => hne (Std.compare_eq_iff_eq.mpr heq)

theorem nodup_nodes (g : Flowgraph) : g.nodes.Nodup :=
  g.outgoing.nodup_keys

theorem hasNode_of_walk (h : g.WellFormed) (hstart : g.hasNode start = true)
    (hwalk : Walk (g.neighbours direction) start n a) : g.hasNode a = true := by
  cases hwalk with
  | here => exact hstart
  | hop _ hb => exact hasNode_of_neighbour h hb

/-- The search finds blocks only. -/
theorem hasNode_of_within (h : g.WellFormed) {hops : Nat}
    (ha : a ∈ (g.within direction start hops).keys) : g.hasNode a = true := by
  rw [ExtTreeMap.mem_keys, ExtTreeMap.mem_iff_isSome_getElem?, Option.isSome_iff_exists] at ha
  obtain ⟨d, hd⟩ := ha
  obtain ⟨hstart, ⟨hwalk, -⟩, -⟩ := getElem?_within.mp hd
  exact hasNode_of_walk h hstart hwalk

/-- The word of an edge as seen from a block. -/
def wordFrom (g : Flowgraph) (start : Address) (keys : ShapeKeys) (edge : Address × Address) :
    UInt64 :=
  let seen := g.outlook (g.within .forward start g.nodeCount)
    (g.within .backward start g.nodeCount) (g.within .bidirectional start g.nodeCount)
  edgeWord keys (seen edge.1) (seen edge.2)

theorem shapeHash_eq (g : Flowgraph) (start : Address) (keys : ShapeKeys) :
    g.shapeHash start keys
      = (g.edges.map (g.wordFrom start keys)).foldl (fun sum word => sum + word) shapeSeed := by
  rw [List.foldl_map]
  rfl

end General

/-! ## §2. Renamed graphs. -/

/-- A map carries the blocks and edges of a graph to those of another, no two blocks to the same. -/
structure Renames (φ : Address → Address) (g g' : Flowgraph) : Prop where
  source : g.WellFormed
  target : g'.WellFormed
  injective : ∀ {a b}, g.hasNode a = true → g.hasNode b = true → φ a = φ b → a = b
  nodes : ∀ {b}, g'.hasNode b = true ↔ ∃ a, g.hasNode a = true ∧ φ a = b
  edges : ∀ {a b}, g.hasNode a = true → g.hasNode b = true →
    (φ b ∈ g'.successors (φ a) ↔ b ∈ g.successors a)

namespace Renames

variable {φ : Address → Address} {g g' : Flowgraph} {a b start : Address} {direction : Direction}
  {n d : Nat}

theorem hasNode_image (h : Renames φ g g') (ha : g.hasNode a = true) : g'.hasNode (φ a) = true :=
  h.nodes.mpr ⟨a, ha, rfl⟩

theorem mem_successors_image (h : Renames φ g g') (ha : g.hasNode a = true) :
    b ∈ g'.successors (φ a) ↔ ∃ c ∈ g.successors a, φ c = b := by
  constructor
  · intro hb
    obtain ⟨c, hc, rfl⟩ := h.nodes.mp (h.target.ends hb).2
    exact ⟨c, (h.edges ha hc).mp hb, rfl⟩
  · intro hex
    obtain ⟨c, hc, rfl⟩ := hex
    exact (h.edges ha (h.source.ends hc).2).mpr hc

theorem mem_predecessors_image (h : Renames φ g g') (ha : g.hasNode a = true) :
    b ∈ g'.predecessors (φ a) ↔ ∃ c ∈ g.predecessors a, φ c = b := by
  rw [← h.target.mirrored]
  -- edges are compared at their sources
  constructor
  · intro hb
    obtain ⟨c, hc, rfl⟩ := h.nodes.mp (h.target.ends hb).1
    exact ⟨c, h.source.mirrored.mp ((h.edges hc ha).mp hb), rfl⟩
  · intro hex
    obtain ⟨c, hc, rfl⟩ := hex
    have hedge := h.source.mirrored.mpr hc
    exact (h.edges (h.source.ends hedge).1 ha).mpr hedge

theorem mem_neighbours_image (h : Renames φ g g') (ha : g.hasNode a = true) :
    b ∈ g'.neighbours direction (φ a) ↔ ∃ c ∈ g.neighbours direction a, φ c = b := by
  cases direction with
  | forward => exact h.mem_successors_image ha
  | backward => exact h.mem_predecessors_image ha
  | bidirectional =>
    show b ∈ g'.successors (φ a) ++ g'.predecessors (φ a)
      ↔ ∃ c ∈ g.successors a ++ g.predecessors a, φ c = b
    simp only [List.mem_append, h.mem_successors_image ha, h.mem_predecessors_image ha, or_and_right,
      exists_or]

/-! ## §3. Walks and distances. -/

/-- Walks are carried to walks. -/
theorem walk_image (h : Renames φ g g') (hstart : g.hasNode start = true) :
    Walk (g'.neighbours direction) (φ start) n b
      ↔ ∃ a, Walk (g.neighbours direction) start n a ∧ φ a = b := by
  -- by induction all hops but the last are carried over, and the last goes to a neighbour
  induction n generalizing b with
  | zero =>
    constructor
    · intro hwalk
      cases hwalk
      exact ⟨start, .here, rfl⟩
    · intro hex
      obtain ⟨a, hwalk, rfl⟩ := hex
      cases hwalk
      exact .here
  | succ n ih =>
    constructor
    · intro hwalk
      cases hwalk with
      | hop hbefore hlast =>
        obtain ⟨c, hc, rfl⟩ := ih.mp hbefore
        obtain ⟨a, ha, rfl⟩ :=
          (h.mem_neighbours_image (hasNode_of_walk h.source hstart hc)).mp hlast
        exact ⟨a, .hop hc ha, rfl⟩
    · intro hex
      obtain ⟨a, hwalk, rfl⟩ := hex
      cases hwalk with
      | hop hbefore hlast =>
        have hnode := hasNode_of_walk h.source hstart hbefore
        exact .hop (ih.mpr ⟨_, hbefore, rfl⟩) ((h.mem_neighbours_image hnode).mpr ⟨a, hlast, rfl⟩)

theorem walk_image_node (h : Renames φ g g') (hstart : g.hasNode start = true)
    (ha : g.hasNode a = true) :
    Walk (g'.neighbours direction) (φ start) n (φ a) ↔ Walk (g.neighbours direction) start n a := by
  rw [h.walk_image hstart]
  constructor
  · intro hex
    obtain ⟨c, hwalk, heq⟩ := hex
    rw [← h.injective (hasNode_of_walk h.source hstart hwalk) ha heq]
    exact hwalk
  · intro hwalk
    exact ⟨a, hwalk, rfl⟩

theorem isDistance_image (h : Renames φ g g') (hstart : g.hasNode start = true)
    (ha : g.hasNode a = true) :
    IsDistance (g'.neighbours direction) (φ start) (φ a) d
      ↔ IsDistance (g.neighbours direction) start a d := by
  unfold IsDistance
  simp only [h.walk_image_node hstart ha]

/-! ## §4. Counts. -/

theorem nodes_perm (h : Renames φ g g') : g'.nodes.Perm (g.nodes.map φ) := by
  refine perm_image (nodup_nodes g) (nodup_nodes g') ?_ ?_
  · intro a ha b hb
    exact h.injective (mem_nodes.mp ha) (mem_nodes.mp hb)
  · intro b
    simp only [mem_nodes]
    exact h.nodes

theorem nodeCount_image (h : Renames φ g g') : g'.nodeCount = g.nodeCount := by
  have hlength := h.nodes_perm.length_eq
  rw [List.length_map] at hlength
  show g'.outgoing.size = g.outgoing.size
  rw [← ExtTreeMap.length_keys, ← ExtTreeMap.length_keys]
  exact hlength

theorem successors_perm (h : Renames φ g g') (ha : g.hasNode a = true) :
    (g'.successors (φ a)).Perm ((g.successors a).map φ) := by
  refine perm_image (nodup_toList _) (nodup_toList _) ?_ fun b => h.mem_successors_image ha
  intro b hb c hc
  exact h.injective (h.source.ends hb).2 (h.source.ends hc).2

theorem predecessors_perm (h : Renames φ g g') (ha : g.hasNode a = true) :
    (g'.predecessors (φ a)).Perm ((g.predecessors a).map φ) := by
  refine perm_image (nodup_toList _) (nodup_toList _) ?_ fun b => h.mem_predecessors_image ha
  intro b hb c hc
  exact h.injective (h.source.ends (h.source.mirrored.mpr hb)).1
    (h.source.ends (h.source.mirrored.mpr hc)).1

theorem outDegree_image (h : Renames φ g g') (ha : g.hasNode a = true) :
    g'.outDegree (φ a) = g.outDegree a := by
  have hlength := (h.successors_perm ha).length_eq
  rw [List.length_map] at hlength
  rw [outDegree, outDegree, ← ExtTreeSet.length_toList, ← ExtTreeSet.length_toList]
  exact hlength

theorem inDegree_image (h : Renames φ g g') (ha : g.hasNode a = true) :
    g'.inDegree (φ a) = g.inDegree a := by
  have hlength := (h.predecessors_perm ha).length_eq
  rw [List.length_map] at hlength
  rw [inDegree, inDegree, ← ExtTreeSet.length_toList, ← ExtTreeSet.length_toList]
  exact hlength

theorem edges_perm (h : Renames φ g g') : g'.edges.Perm (g.edges.map (Prod.map φ φ)) := by
  have hends : (g.nodes.map φ).flatMap (fun a => (g'.successors a).map fun b => (a, b))
      = g.nodes.flatMap fun a => (g'.successors (φ a)).map fun b => (φ a, b) := by
    rw [List.flatMap_map]
  -- first the sources in their other order, then the targets of each
  refine (h.nodes_perm.flatMap_right _).trans ?_
  rw [hends, Flowgraph.edges, List.map_flatMap]
  refine List.Perm.flatMap_left _ fun a ha => ?_
  have hperm := (h.successors_perm (mem_nodes.mp ha)).map fun b => (φ a, b)
  rw [List.map_map] at hperm ⊢
  exact hperm

/-! ## §5. Search, neighbourhoods and the hash of the shape. -/

/-- Blocks keep their distances. -/
theorem getElem?_within_image (h : Renames φ g g') (hstart : g.hasNode start = true) (hops : Nat)
    (ha : g.hasNode a = true) :
    (g'.within direction (φ start) hops)[φ a]? = (g.within direction start hops)[a]? := by
  apply Option.ext
  intro d
  rw [getElem?_within, getElem?_within, h.isDistance_image hstart ha, h.nodeCount_image,
    h.hasNode_image hstart, hstart]

theorem contains_within_image (h : Renames φ g g') (hstart : g.hasNode start = true) (hops : Nat)
    (ha : g.hasNode a = true) :
    (g'.within direction (φ start) hops).contains (φ a)
      = (g.within direction start hops).contains a := by
  rw [ExtTreeMap.contains_eq_isSome_getElem?, ExtTreeMap.contains_eq_isSome_getElem?,
    h.getElem?_within_image hstart hops ha]

theorem size_within_image (h : Renames φ g g') (hstart : g.hasNode start = true) (hops : Nat) :
    (g'.within direction (φ start) hops).size = (g.within direction start hops).size := by
  -- the blocks within reach are carried to the blocks within reach
  have hmem : ∀ b, b ∈ (g'.within direction (φ start) hops).keys
      ↔ ∃ a ∈ (g.within direction start hops).keys, φ a = b := by
    intro b
    constructor
    · intro hb
      obtain ⟨a, ha, rfl⟩ := h.nodes.mp (hasNode_of_within h.target hb)
      refine ⟨a, ?_, rfl⟩
      rw [ExtTreeMap.mem_keys, ← ExtTreeMap.contains_iff_mem] at hb ⊢
      rw [← h.contains_within_image hstart hops ha]
      exact hb
    · intro hex
      obtain ⟨a, ha, rfl⟩ := hex
      have hnode := hasNode_of_within h.source ha
      rw [ExtTreeMap.mem_keys, ← ExtTreeMap.contains_iff_mem] at ha ⊢
      rw [h.contains_within_image hstart hops hnode]
      exact ha
  have hperm := perm_image ExtTreeMap.nodup_keys ExtTreeMap.nodup_keys
    (fun a ha b hb => h.injective (hasNode_of_within h.source ha) (hasNode_of_within h.source hb))
    hmem
  have hlength := hperm.length_eq
  rw [List.length_map, ExtTreeMap.length_keys, ExtTreeMap.length_keys] at hlength
  exact hlength

/-- Parts are carried to parts, if the same blocks are kept. -/
theorem renames_induced (h : Renames φ g g') {keep keep' : Address → Bool}
    (hkeep : ∀ {a}, g.hasNode a = true → keep' (φ a) = keep a) :
    Renames φ (g.induced keep) (g'.induced keep') where
  source := wellFormed_induced h.source keep
  target := wellFormed_induced h.target keep'
  injective := by
    intro a b ha hb
    rw [hasNode_induced, Bool.and_eq_true] at ha hb
    exact h.injective ha.1 hb.1
  nodes := by
    intro b
    rw [hasNode_induced, Bool.and_eq_true, h.nodes]
    constructor
    · intro hex
      obtain ⟨⟨a, ha, rfl⟩, hb⟩ := hex
      rw [hkeep ha] at hb
      exact ⟨a, by rw [hasNode_induced, ha, hb]; rfl, rfl⟩
    · intro hex
      obtain ⟨a, ha, rfl⟩ := hex
      rw [hasNode_induced, Bool.and_eq_true] at ha
      exact ⟨⟨a, ha.1, rfl⟩, by rw [hkeep ha.1]; exact ha.2⟩
  edges := by
    intro a b ha hb
    rw [hasNode_induced, Bool.and_eq_true] at ha hb
    rw [mem_successors_induced, mem_successors_induced, hkeep ha.1, hkeep hb.1, h.edges ha.1 hb.1]

/-- What is seen of a block stays the same. -/
theorem outlook_image (h : Renames φ g g') (hstart : g.hasNode start = true) (hops : Nat)
    (ha : g.hasNode a = true) :
    g'.outlook (g'.within .forward (φ start) hops) (g'.within .backward (φ start) hops)
        (g'.within .bidirectional (φ start) hops) (φ a)
      = g.outlook (g.within .forward start hops) (g.within .backward start hops)
        (g.within .bidirectional start hops) a := by
  simp only [outlook, h.getElem?_within_image hstart hops ha, h.inDegree_image ha,
    h.outDegree_image ha]

/-- Edges keep their words. -/
theorem wordFrom_image (h : Renames φ g g') (hstart : g.hasNode start = true) (keys : ShapeKeys)
    (ha : g.hasNode a = true) (hb : g.hasNode b = true) :
    g'.wordFrom (φ start) keys (φ a, φ b) = g.wordFrom start keys (a, b) := by
  simp only [wordFrom, h.nodeCount_image, h.outlook_image hstart g.nodeCount ha,
    h.outlook_image hstart g.nodeCount hb]

/-- The hash of the shape stays the same. -/
theorem shapeHash_image (h : Renames φ g g') (hstart : g.hasNode start = true) (keys : ShapeKeys) :
    g'.shapeHash (φ start) keys = g.shapeHash start keys := by
  have hsame : (g.edges.map (Prod.map φ φ)).map (g'.wordFrom (φ start) keys)
      = g.edges.map (g.wordFrom start keys) := by
    rw [List.map_map]
    refine List.map_congr_left fun (source, target) hedge => ?_
    obtain ⟨hsource, htarget⟩ := h.source.ends ((mem_edges h.source).mp hedge)
    rw [Function.comp_apply, Prod.map_apply]
    exact h.wordFrom_image hstart keys hsource htarget
  -- the sum does not depend on the order of the edges
  rw [shapeHash_eq, shapeHash_eq, ← hsame]
  refine (h.edges_perm.map _).foldl_eq' (fun x _ y _ sum => ?_) shapeSeed
  rw [UInt64.add_assoc, UInt64.add_assoc, UInt64.add_comm y x]

/-- Neighbourhoods are carried to neighbourhoods, and are too large at the same time. -/
theorem neighbourhood_image (h : Renames φ g g') {centre : Address}
    (hcentre : g.hasNode centre = true) (hops maxSize : Nat) :
    (g.neighbourhood? centre hops maxSize = none ∧ g'.neighbourhood? (φ centre) hops maxSize = none)
      ∨ ∃ part part', g.neighbourhood? centre hops maxSize = some part
        ∧ g'.neighbourhood? (φ centre) hops maxSize = some part' ∧ Renames φ part part'
        ∧ part.hasNode centre = true := by
  have hball : (g'.within .bidirectional (φ centre) hops).size
      = (g.within .bidirectional centre hops).size := h.size_within_image hcentre hops
  -- as many blocks are within reach in both graphs, so that the limit is the same to both
  rw [neighbourhood?_eq_within h.source, neighbourhood?_eq_within h.target, hball, hcentre,
    h.hasNode_image hcentre]
  by_cases hsmall : (g.within .bidirectional centre hops).size ≤ max maxSize 1
  · right
    rw [if_pos ⟨rfl, hsmall⟩, if_pos ⟨rfl, hsmall⟩]
    refine ⟨_, _, rfl, rfl, h.renames_induced (h.contains_within_image hcentre hops), ?_⟩
    have hself : (g.within .bidirectional centre hops)[centre]? = some 0 :=
      getElem?_within.mpr ⟨hcentre, isDistance_zero.mpr rfl, Nat.zero_le _⟩
    rw [hasNode_induced, hcentre, ExtTreeMap.contains_eq_isSome_getElem?, hself]
    rfl
  · left
    rw [if_neg fun hboth => hsmall hboth.2, if_neg fun hboth => hsmall hboth.2]
    exact ⟨rfl, rfl⟩

end Renames

end Flowprint.Flowgraph
