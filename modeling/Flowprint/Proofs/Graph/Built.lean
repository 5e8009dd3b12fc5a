/-
  Flowprint.Proofs.Graph.Built
  ────────────────────────────────
  Graphs that the operations build, and what always holds of them.

  A graph keeps its edges twice, once at each end.  The operations keep the two records in step:
  every graph they build has the same blocks in both, an edge at its target exactly if it is at its
  source, only edges between blocks, and only code of blocks.

  Main statements:

      mem_successors_withEdge     an edge more is one successor more
      wellFormed_addEdge          an edge keeps a graph well formed
      wellFormed_built            the operations build well-formed graphs only
-/
import Flowprint.Graph.Neighbourhood

namespace Flowprint.Flowgraph

open Std

/-! ## §1. Sets at keys. -/

section Maps

variable {map : ExtTreeMap Address (ExtTreeSet Address)} {a b key member : Address}

/-- A key that is new has an empty set, as it had before. -/
theorem getD_insertIfNew_empty : (map.insertIfNew key ∅).getD a ∅ = map.getD a ∅ := by
  rw [ExtTreeMap.getD_insertIfNew]
  split
  next h =>
    obtain rfl := Std.compare_eq_iff_eq.mp h.1
    -- a key that is not there reads as the empty set too
    rw [ExtTreeMap.getD_eq_fallback h.2]
  next => rfl

theorem mem_getD_linked :
    b ∈ (linked map key member).getD a ∅ ↔ a = key ∧ b = member ∨ b ∈ map.getD a ∅ := by
  rw [linked, ExtTreeMap.getD_insert]
  by_cases h : key = a
  · subst h
    rw [if_pos (Std.compare_eq_iff_eq.mpr rfl), ExtTreeSet.mem_insert, Std.compare_eq_iff_eq]
    constructor
    · intro hcase
      rcases hcase with rfl | hold
      · exact .inl ⟨rfl, rfl⟩
      · exact .inr hold
    · intro hcase
      rcases hcase with ⟨-, rfl⟩ | hold
      · exact .inl rfl
      · exact .inr hold
  · rw [if_neg fun heq => h (Std.compare_eq_iff_eq.mp heq)]
    constructor
    · exact .inr
    · intro hcase
      rcases hcase with ⟨rfl, -⟩ | hold
      · exact absurd rfl h
      · exact hold

theorem getD_keepEdges {keep : Address → Bool} :
    (keepEdges keep map).getD a ∅ = if keep a then (map.getD a ∅).filter keep else ∅ := by
  rw [keepEdges, ExtTreeMap.getD_eq_getD_getElem?, ExtTreeMap.getElem?_map,
    ExtTreeMap.getElem?_filter', ExtTreeMap.getD_eq_getD_getElem?]
  cases map[a]? with
  | none =>
    split
    · rfl
    · rfl
  | some ends =>
    rw [Option.filter_some]
    split
    · rfl
    · rfl

theorem mem_getD_keepEdges {keep : Address → Bool} :
    b ∈ (keepEdges keep map).getD a ∅ ↔ keep a = true ∧ keep b = true ∧ b ∈ map.getD a ∅ := by
  rw [getD_keepEdges]
  split
  next h =>
    rw [ExtTreeSet.mem_filter]
    constructor
    · intro hboth
      obtain ⟨hmem, hkeep⟩ := hboth
      exact ⟨h, by simpa using hkeep, hmem⟩
    · intro hboth
      obtain ⟨-, hkeep, hmem⟩ := hboth
      exact ⟨hmem, by simpa using hkeep⟩
  next h =>
    constructor
    · intro hmem
      exact absurd hmem ExtTreeSet.not_mem_empty
    · intro hboth
      obtain ⟨hkeep, -⟩ := hboth
      exact absurd hkeep h

theorem contains_keepEdges {keep : Address → Bool} :
    (keepEdges keep map).contains a = (map.contains a && keep a) := by
  rw [keepEdges, ExtTreeMap.contains_map, Bool.eq_iff_iff, ExtTreeMap.contains_iff_mem,
    ExtTreeMap.mem_filter, Bool.and_eq_true, ExtTreeMap.contains_iff_mem]
  constructor
  · intro hboth
    obtain ⟨hmem, hkeep⟩ := hboth
    exact ⟨hmem, by simpa using hkeep⟩
  · intro hboth
    obtain ⟨hmem, hkeep⟩ := hboth
    exact ⟨hmem, by simpa using hkeep⟩

end Maps

/-- Maps with the same keys and the same sets at them are equal. -/
theorem maps_eq {map other : ExtTreeMap Address (ExtTreeSet Address)}
    (hkeys : ∀ a, map.contains a = other.contains a)
    (hsets : ∀ a b, b ∈ map.getD a ∅ ↔ b ∈ other.getD a ∅) : map = other := by
  refine ExtTreeMap.ext_getElem? ?_
  intro a
  have hset : map.getD a ∅ = other.getD a ∅ := ExtTreeSet.ext_mem (hsets a)
  cases hmap : map.contains a with
  | true =>
    have hother : other.contains a = true := by rw [← hkeys, hmap]
    rw [ExtTreeMap.getElem?_eq_some_getD_of_contains hmap,
      ExtTreeMap.getElem?_eq_some_getD_of_contains hother, hset]
  | false =>
    have hother : other.contains a = false := by rw [← hkeys, hmap]
    rw [ExtTreeMap.getElem?_eq_none_of_contains_eq_false hmap,
      ExtTreeMap.getElem?_eq_none_of_contains_eq_false hother]

/-! ## §2. Blocks and edges after each change. -/

section Changes

variable {g : Flowgraph} {a b source target : Address}

theorem mem_nodes : a ∈ g.nodes ↔ g.hasNode a = true := by
  rw [nodes, ExtTreeMap.mem_keys, hasNode, ExtTreeMap.contains_iff_mem]

theorem mem_successors : b ∈ g.successors a ↔ b ∈ g.outgoing.getD a ∅ := by
  rw [successors, ExtTreeSet.mem_toList]

theorem mem_predecessors : b ∈ g.predecessors a ↔ b ∈ g.incoming.getD a ∅ := by
  rw [predecessors, ExtTreeSet.mem_toList]

theorem hasNode_withNode {new : Address} :
    (g.withNode new).hasNode a = true ↔ a = new ∨ g.hasNode a = true := by
  have hadd := hasNode_addNode g new a
  rw [show (g.withNode new).hasNode a = (new == a || g.hasNode a) from hadd, Bool.or_eq_true,
    beq_iff_eq, eq_comm]

theorem mem_successors_withNode {new : Address} :
    b ∈ (g.withNode new).successors a ↔ b ∈ g.successors a := by
  rw [mem_successors, mem_successors]
  show b ∈ (g.outgoing.insertIfNew new ∅).getD a ∅ ↔ _
  rw [getD_insertIfNew_empty]

theorem mem_predecessors_withNode {new : Address} :
    b ∈ (g.withNode new).predecessors a ↔ b ∈ g.predecessors a := by
  rw [mem_predecessors, mem_predecessors]
  show b ∈ (g.incoming.insertIfNew new ∅).getD a ∅ ↔ _
  rw [getD_insertIfNew_empty]

theorem hasNode_withEdge :
    (g.withEdge source target).hasNode a = true ↔ a = source ∨ g.hasNode a = true := by
  show (linked g.outgoing source target).contains a = true ↔ _
  rw [linked, ExtTreeMap.contains_insert, Bool.or_eq_true, beq_iff_eq, Std.compare_eq_iff_eq,
    eq_comm]
  rfl

/-- An edge more is one successor more. -/
theorem mem_successors_withEdge :
    b ∈ (g.withEdge source target).successors a
      ↔ a = source ∧ b = target ∨ b ∈ g.successors a := by
  rw [mem_successors, mem_successors]
  exact mem_getD_linked

theorem mem_predecessors_withEdge :
    b ∈ (g.withEdge source target).predecessors a
      ↔ a = target ∧ b = source ∨ b ∈ g.predecessors a := by
  rw [mem_predecessors, mem_predecessors]
  exact mem_getD_linked

theorem mem_successors_induced {keep : Address → Bool} :
    b ∈ (g.induced keep).successors a ↔ keep a = true ∧ keep b = true ∧ b ∈ g.successors a := by
  rw [mem_successors, mem_successors]
  exact mem_getD_keepEdges

theorem mem_predecessors_induced {keep : Address → Bool} :
    b ∈ (g.induced keep).predecessors a
      ↔ keep a = true ∧ keep b = true ∧ b ∈ g.predecessors a := by
  rw [mem_predecessors, mem_predecessors]
  exact mem_getD_keepEdges

/-- What it takes to add an edge: its ends are made ready, and joined. -/
theorem addEdge_eq_ok {isNew : Bool} {g' : Flowgraph}
    (h : g.addEdge source target = .ok (isNew, g')) :
    g' = ((g.withNode source).withNode target).withEdge source target := by
  unfold addEdge at h
  split at h
  · exact absurd h (by simp)
  · exact (Prod.mk.inj (Except.ok.inj h)).2.symm

/-- A graph that brings the ends of its edges with them takes any edge. -/
theorem addEdge_autoCreate (hpolicy : g.policy = .autoCreate) (source target : Address) :
    ∃ isNew, g.addEdge source target
      = .ok (isNew, ((g.withNode source).withNode target).withEdge source target) := by
  simp only [addEdge, missingEnds, hpolicy]
  exact ⟨_, rfl⟩

/-- What it takes to replace the instructions of a block. -/
theorem setInstructions_eq_ok {insns : List Instruction} {g' : Flowgraph}
    (h : g.setInstructions a insns = .ok g') :
    g.hasNode a = true
      ∧ g' = { g with code := if insns.isEmpty then g.code.erase a else g.code.insert a insns } := by
  unfold setInstructions at h
  split at h
  next hnode => exact ⟨hnode, (Except.ok.inj h).symm⟩
  next => exact absurd h (by simp)

end Changes

/-! ## §3. Well-formed graphs. -/

/-- Blocks and edges are recorded alike at both ends, edges are between blocks, and code belongs to
blocks. -/
structure WellFormed (g : Flowgraph) : Prop where
  keys : ∀ a, g.incoming.contains a = g.outgoing.contains a
  mirrored : ∀ {a b}, b ∈ g.successors a ↔ a ∈ g.predecessors b
  ends : ∀ {a b}, b ∈ g.successors a → g.hasNode a = true ∧ g.hasNode b = true
  code : ∀ {a insns}, g.code[a]? = some insns → g.hasNode a = true ∧ insns ≠ []

section WellFormed

variable {g : Flowgraph}

theorem wellFormed_empty (policy : EdgePolicy) : (empty policy).WellFormed where
  keys := fun _ => rfl
  mirrored := by
    intro a b
    rw [mem_successors, mem_predecessors]
    rfl
  ends := by
    intro a b h
    rw [mem_successors] at h
    exact absurd h ExtTreeSet.not_mem_empty
  code := by
    intro a insns h
    exact absurd h (by simp [empty])

theorem wellFormed_withNode (h : g.WellFormed) (new : Address) : (g.withNode new).WellFormed where
  keys := by
    intro a
    show (g.incoming.insertIfNew new ∅).contains a = (g.outgoing.insertIfNew new ∅).contains a
    rw [ExtTreeMap.contains_insertIfNew, ExtTreeMap.contains_insertIfNew, h.keys]
  mirrored := by
    intro a b
    rw [mem_successors_withNode, mem_predecessors_withNode]
    exact h.mirrored
  ends := by
    intro a b hedge
    obtain ⟨hsource, htarget⟩ := h.ends (mem_successors_withNode.mp hedge)
    exact ⟨hasNode_withNode.mpr (.inr hsource), hasNode_withNode.mpr (.inr htarget)⟩
  code := by
    intro a insns hcode
    obtain ⟨hnode, hsome⟩ := h.code hcode
    exact ⟨hasNode_withNode.mpr (.inr hnode), hsome⟩

theorem wellFormed_withEdge (h : g.WellFormed) {source target : Address}
    (hsource : g.hasNode source = true) (htarget : g.hasNode target = true) :
    (g.withEdge source target).WellFormed where
  keys := by
    intro a
    show (linked g.incoming target source).contains a = (linked g.outgoing source target).contains a
    rw [linked, linked, ExtTreeMap.contains_insert, ExtTreeMap.contains_insert, h.keys,
      Bool.eq_iff_iff, Bool.or_eq_true, Bool.or_eq_true, beq_iff_eq, beq_iff_eq,
      Std.compare_eq_iff_eq, Std.compare_eq_iff_eq]
    -- neither end is new
    constructor
    · intro hcase
      rcases hcase with rfl | hold
      · exact .inr htarget
      · exact .inr hold
    · intro hcase
      rcases hcase with rfl | hold
      · exact .inr hsource
      · exact .inr hold
  mirrored := by
    intro a b
    rw [mem_successors_withEdge, mem_predecessors_withEdge, h.mirrored, and_comm]
  ends := by
    intro a b hedge
    rw [hasNode_withEdge, hasNode_withEdge]
    rcases mem_successors_withEdge.mp hedge with ⟨rfl, rfl⟩ | hold
    · exact ⟨.inl rfl, .inr htarget⟩
    · exact ⟨.inr (h.ends hold).1, .inr (h.ends hold).2⟩
  code := by
    intro a insns hcode
    obtain ⟨hnode, hsome⟩ := h.code hcode
    exact ⟨hasNode_withEdge.mpr (.inr hnode), hsome⟩

theorem wellFormed_addEdge (h : g.WellFormed) {source target : Address} {isNew : Bool}
    {g' : Flowgraph} (hadd : g.addEdge source target = .ok (isNew, g')) : g'.WellFormed := by
  rw [addEdge_eq_ok hadd]
  -- both ends are blocks when they are joined
  refine wellFormed_withEdge (wellFormed_withNode (wellFormed_withNode h source) target) ?_ ?_
  · exact hasNode_withNode.mpr (.inr (hasNode_withNode.mpr (.inl rfl)))
  · exact hasNode_withNode.mpr (.inl rfl)

theorem wellFormed_setInstructions (h : g.WellFormed) {a : Address} {insns : List Instruction}
    {g' : Flowgraph} (hset : g.setInstructions a insns = .ok g') : g'.WellFormed := by
  obtain ⟨hnode, rfl⟩ := setInstructions_eq_ok hset
  refine ⟨h.keys, h.mirrored, h.ends, ?_⟩
  intro b found hcode
  change (if insns.isEmpty then g.code.erase a else g.code.insert a insns)[b]? = some found at hcode
  show g.hasNode b = true ∧ found ≠ []
  -- an empty list of instructions is no entry at all
  split at hcode
  · rw [ExtTreeMap.getElem?_erase] at hcode
    split at hcode
    · exact absurd hcode (by simp)
    · exact h.code hcode
  next hsome =>
    rw [ExtTreeMap.getElem?_insert] at hcode
    split at hcode
    next heq =>
      obtain rfl := Std.compare_eq_iff_eq.mp heq
      refine ⟨hnode, ?_⟩
      rw [← Option.some.inj hcode]
      exact fun hempty => hsome (List.isEmpty_iff.mpr hempty)
    · exact h.code hcode

theorem wellFormed_induced (h : g.WellFormed) (keep : Address → Bool) :
    (g.induced keep).WellFormed where
  keys := by
    intro a
    show (keepEdges keep g.incoming).contains a = (keepEdges keep g.outgoing).contains a
    rw [contains_keepEdges, contains_keepEdges, h.keys]
  mirrored := by
    intro a b
    rw [mem_successors_induced, mem_predecessors_induced, h.mirrored]
    exact and_left_comm
  ends := by
    intro a b hedge
    obtain ⟨ha, hb, hold⟩ := mem_successors_induced.mp hedge
    rw [hasNode_induced, hasNode_induced, (h.ends hold).1, (h.ends hold).2, ha, hb]
    exact ⟨rfl, rfl⟩
  code := by
    -- a part has no code
    intro a insns hcode
    exact absurd hcode (by simp [induced])

/-- The edges of a graph are its blocks with their successors. -/
theorem mem_edges (h : g.WellFormed) {a b : Address} :
    (a, b) ∈ g.edges ↔ b ∈ g.successors a := by
  rw [edges, List.mem_flatMap]
  constructor
  · rintro ⟨source, -, hmem⟩
    obtain ⟨target, htarget, heq⟩ := List.mem_map.mp hmem
    obtain ⟨rfl, rfl⟩ := Prod.mk.inj heq
    exact htarget
  · intro hmem
    exact ⟨a, mem_nodes.mpr (h.ends hmem).1, List.mem_map.mpr ⟨b, hmem, rfl⟩⟩

end WellFormed

/-- Well-formed graphs with the same blocks and edges record them alike. -/
theorem edges_eq {g other : Flowgraph} (hg : g.WellFormed) (hother : other.WellFormed)
    (hnodes : ∀ a, g.hasNode a = true ↔ other.hasNode a = true)
    (hsuccessors : ∀ a b, b ∈ g.successors a ↔ b ∈ other.successors a) :
    g.outgoing = other.outgoing ∧ g.incoming = other.incoming := by
  have hkeys : ∀ a, g.outgoing.contains a = other.outgoing.contains a :=
    fun a => Bool.eq_iff_iff.mpr (hnodes a)
  constructor
  · refine maps_eq hkeys ?_
    intro a b
    rw [← mem_successors, ← mem_successors]
    exact hsuccessors a b
  · refine maps_eq ?_ ?_
    · intro a
      rw [hg.keys, hother.keys]
      exact hkeys a
    · intro a b
      rw [← mem_predecessors, ← mem_predecessors, ← hg.mirrored, ← hother.mirrored]
      exact hsuccessors b a

/-! ## §4. Graphs that the operations build. -/

/-- Graphs that the operations build. -/
inductive Built : Flowgraph → Prop
  | empty (policy : EdgePolicy) : Built (.empty policy)
  | addNode {g : Flowgraph} (h : Built g) (a : Address) : Built (g.addNode a).2
  | addEdge {g g' : Flowgraph} {source target : Address} {isNew : Bool} (h : Built g)
      (hadd : g.addEdge source target = .ok (isNew, g')) : Built g'
  | setInstructions {g g' : Flowgraph} {a : Address} {insns : List Instruction} (h : Built g)
      (hset : g.setInstructions a insns = .ok g') : Built g'
  | neighbourhood {g part : Flowgraph} {centre : Address} {hops maxSize : Nat} (h : Built g)
      (hpart : g.neighbourhood? centre hops maxSize = some part) : Built part

/-- Neighbourhoods are parts. -/
theorem neighbourhood?_eq_some {g part : Flowgraph} {centre : Address} {hops maxSize : Nat}
    (h : g.neighbourhood? centre hops maxSize = some part) : ∃ keep, part = g.induced keep := by
  rw [neighbourhood?, Option.ite_none_right_eq_some, Option.map_eq_some_iff] at h
  obtain ⟨-, reached, -, rfl⟩ := h
  exact ⟨_, rfl⟩

/-- The operations build well-formed graphs only. -/
theorem wellFormed_built {g : Flowgraph} (h : Built g) : g.WellFormed := by
  induction h with
  | empty policy => exact wellFormed_empty policy
  | addNode _ a ih => exact wellFormed_withNode ih a
  | addEdge _ hadd ih => exact wellFormed_addEdge ih hadd
  | setInstructions _ hset ih => exact wellFormed_setInstructions ih hset
  | neighbourhood _ hpart ih =>
    obtain ⟨keep, rfl⟩ := neighbourhood?_eq_some hpart
    exact wellFormed_induced ih keep

end Flowprint.Flowgraph
