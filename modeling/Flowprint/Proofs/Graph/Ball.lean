/-
  Flowprint.Proofs.Graph.Ball
  ────────────────────────────────
  Neighbourhoods are balls.

  Without the direction of its edges a graph is an undirected one, in which two blocks are as far
  apart as a shortest walk between them is long.  These are the distances that the search finds.  So
  the neighbourhood of a block is the part of the graph in the ball around it, and a shortest walk to a
  block of the ball stays in the ball.

  Main statements:

      getElem?_within_undirected   the search finds the distances of the undirected graph
      edist_le_of_ball             a graph with the edges of a ball has its distances
      neighbourhood?_ball          a neighbourhood is the part of the graph in a ball
-/
import Flowprint.Proofs.Graph.Queue
import Mathlib.Combinatorics.SimpleGraph.Metric
import Mathlib.Data.Set.Card

namespace Flowprint.Flowgraph

open Std (ExtTreeMap ExtTreeSet)

/-! ## §1. Undirected graphs. -/

/-- The blocks of a graph, two of them joined if there is an edge from one to the other. -/
def undirected (g : Flowgraph) : SimpleGraph Address :=
  SimpleGraph.fromRel fun a b => (a, b) ∈ g.edges

/-- The blocks within a number of hops of a block, whatever the direction of the edges. -/
def ball (g : Flowgraph) (centre : Address) (hops : Nat) : Set Address :=
  {a | g.hasNode a = true ∧ g.undirected.edist centre a ≤ hops}

section Undirected

variable {g : Flowgraph} {a b start : Address} {n d : Nat}

theorem adj_undirected :
    g.undirected.Adj a b ↔ a ≠ b ∧ ((a, b) ∈ g.edges ∨ (b, a) ∈ g.edges) :=
  SimpleGraph.fromRel_adj _ a b

/-- The neighbours of a block are the blocks that an edge joins to it. -/
theorem mem_neighbours_bidirectional (h : g.WellFormed) :
    b ∈ g.neighbours .bidirectional a ↔ (a, b) ∈ g.edges ∨ (b, a) ∈ g.edges := by
  rw [mem_edges h, mem_edges h]
  exact List.mem_append.trans (or_congr_right h.mirrored.symm)

/-- A walk of the search, and on along the undirected graph. -/
theorem walk_append (h : g.WellFormed) (hwalk : Walk (g.neighbours .bidirectional) start n a)
    (path : g.undirected.Walk a b) :
    Walk (g.neighbours .bidirectional) start (n + path.length) b := by
  induction path generalizing n with
  | nil => exact hwalk
  | cons hadj path ih =>
    have hhop := (mem_neighbours_bidirectional h).mpr (adj_undirected.mp hadj).2
    rw [SimpleGraph.Walk.length_cons, Nat.add_comm path.length, ← Nat.add_assoc]
    exact ih (.hop hwalk hhop)

/-- A walk of the search is one of the undirected graph, apart from hops that stay where they are. -/
theorem exists_path (h : g.WellFormed) (hwalk : Walk (g.neighbours .bidirectional) start n a) :
    ∃ path : g.undirected.Walk start a, path.length ≤ n := by
  induction hwalk with
  | here => exact ⟨.nil, Nat.le_refl 0⟩
  | @hop n a b _ hb ih =>
    obtain ⟨path, hlength⟩ := ih
    by_cases hsame : a = b
    · subst hsame
      exact ⟨path, by omega⟩
    · refine ⟨path.concat (adj_undirected.mpr ⟨hsame, (mem_neighbours_bidirectional h).mp hb⟩), ?_⟩
      rw [SimpleGraph.Walk.length_concat]
      omega

/-- A block is as near as there are walks of the search to it. -/
theorem edist_le_iff (h : g.WellFormed) :
    g.undirected.edist start a ≤ n ↔ ∃ m ≤ n, Walk (g.neighbours .bidirectional) start m a := by
  constructor
  · intro hle
    obtain ⟨path, hpath⟩ := SimpleGraph.exists_walk_of_edist_ne_top
      (ne_top_of_le_ne_top (ENat.natCast_ne_top n) hle)
    rw [← hpath, Nat.cast_le] at hle
    have hwalk := walk_append h .here path
    rw [Nat.zero_add] at hwalk
    exact ⟨path.length, hle, hwalk⟩
  · intro hex
    obtain ⟨m, hm, hwalk⟩ := hex
    obtain ⟨path, hpath⟩ := exists_path h hwalk
    exact (SimpleGraph.edist_le path).trans (by exact_mod_cast hpath.trans hm)

/-- The distances of the search are those of the undirected graph. -/
theorem isDistance_iff (h : g.WellFormed) :
    IsDistance (g.neighbours .bidirectional) start a d ↔ g.undirected.edist start a = d := by
  constructor
  · intro hd
    refine le_antisymm ((edist_le_iff h).mpr ⟨d, Nat.le_refl d, hd.1⟩) ?_
    by_contra hless
    -- a nearer block would be at the end of a shorter walk
    obtain ⟨m, hm⟩ := ENat.ne_top_iff_exists.mp (ne_top_of_lt (not_le.mp hless))
    rw [not_le, ← hm, Nat.cast_lt] at hless
    obtain ⟨k, hk, hwalk⟩ := (edist_le_iff h).mp (le_of_eq hm.symm)
    exact hd.2 k (by omega) hwalk
  · intro hd
    obtain ⟨m, hm, hwalk⟩ := (edist_le_iff h).mp (le_of_eq hd)
    have hleast : ∀ k < d, ¬ Walk (g.neighbours .bidirectional) start k a := by
      intro k hk hshort
      have hle := (edist_le_iff h).mpr ⟨k, Nat.le_refl k, hshort⟩
      rw [hd, Nat.cast_le] at hle
      omega
    have hnot : ¬ m < d := fun hlt => hleast m hlt hwalk
    obtain rfl : m = d := by omega
    exact ⟨hwalk, hleast⟩

end Undirected

/-! ## §2. Balls. -/

section Balls

variable {g : Flowgraph} {a b start : Address} {n d hops : Nat}

theorem hasNode_of_mem_support (h : g.WellFormed) (ha : g.hasNode a = true)
    (path : g.undirected.Walk a b) {c : Address} (hc : c ∈ path.support) : g.hasNode c = true := by
  induction path with
  | nil =>
    rw [SimpleGraph.Walk.support_nil, List.mem_singleton] at hc
    rw [hc]
    exact ha
  | cons hadj path ih =>
    rw [SimpleGraph.Walk.support_cons, List.mem_cons] at hc
    rcases hc with rfl | hc
    · exact ha
    · have hnext := (mem_neighbours_bidirectional h).mpr (adj_undirected.mp hadj).2
      exact ih (hasNode_of_neighbour h hnext) hc

/-- The search finds the distances of the undirected graph, up to the number of hops. -/
theorem getElem?_within_undirected (h : g.WellFormed) (hstart : g.hasNode start = true) :
    (g.within .bidirectional start hops)[a]? = some d
      ↔ g.undirected.edist start a = d ∧ d ≤ hops := by
  rw [within_eq_spread h hstart, getElem?_spread atLevel_start, isDistance_iff h, Nat.zero_add]

/-- What is within reach of a block is a block. -/
theorem mem_ball (h : g.WellFormed) (hstart : g.hasNode start = true) :
    a ∈ g.ball start hops ↔ g.undirected.edist start a ≤ hops := by
  refine ⟨fun hball => hball.2, fun hle => ⟨?_, hle⟩⟩
  obtain ⟨path, -⟩ := SimpleGraph.exists_walk_of_edist_ne_top
    (ne_top_of_le_ne_top (ENat.natCast_ne_top hops) hle)
  exact hasNode_of_mem_support h hstart path path.end_mem_support

/-- The blocks that the search finds are those of a ball. -/
theorem contains_within (h : g.WellFormed) (hstart : g.hasNode start = true) :
    (g.within .bidirectional start hops).contains a = true ↔ a ∈ g.ball start hops := by
  rw [ExtTreeMap.contains_eq_isSome_getElem?, Option.isSome_iff_exists, mem_ball h hstart]
  constructor
  · intro hex
    obtain ⟨d, hd⟩ := hex
    obtain ⟨hdist, hle⟩ := (getElem?_within_undirected h hstart).mp hd
    rw [hdist, Nat.cast_le]
    exact hle
  · intro hle
    obtain ⟨d, hd⟩ := ENat.ne_top_iff_exists.mp (ne_top_of_le_ne_top (ENat.natCast_ne_top hops) hle)
    rw [← hd, Nat.cast_le] at hle
    exact ⟨d, (getElem?_within_undirected h hstart).mpr ⟨hd.symm, hle⟩⟩

/-- The search finds as many blocks as a ball has. -/
theorem size_within (h : g.WellFormed) (hstart : g.hasNode start = true) :
    (g.within .bidirectional start hops).size = (g.ball start hops).ncard := by
  have hball : g.ball start hops = ((g.within .bidirectional start hops).keys.toFinset : Set _) := by
    ext a
    rw [List.coe_toFinset, Set.mem_ofPred_eq, ExtTreeMap.mem_keys, ← ExtTreeMap.contains_iff_mem,
      contains_within h hstart]
  rw [hball, Set.ncard_coe_finset, List.toFinset_card_of_nodup ExtTreeMap.nodup_keys,
    ExtTreeMap.length_keys]

end Balls

/-! ## §3. Parts of a graph. -/

section Parts

variable {g other : Flowgraph} {a b centre : Address} {hops : Nat}

/-- The blocks that a walk passes are as near as the walk is long. -/
theorem edist_le_of_mem_support (path : g.undirected.Walk a b) {c : Address}
    (hc : c ∈ path.support) : g.undirected.edist a c ≤ path.length := by
  classical
  refine (SimpleGraph.edist_le (path.takeUntil c hc)).trans ?_
  exact_mod_cast path.length_takeUntil_le_length hc

/-- A graph that has the edges within a ball has its distances from the centre, or smaller ones. -/
theorem edist_le_of_ball (h : g.WellFormed) (hcentre : g.hasNode centre = true)
    (hedges : ∀ {x y}, (x, y) ∈ g.edges → x ∈ g.ball centre hops → y ∈ g.ball centre hops →
      (x, y) ∈ other.edges)
    (ha : a ∈ g.ball centre hops) :
    other.undirected.edist centre a ≤ g.undirected.edist centre a := by
  obtain ⟨path, hpath⟩ := SimpleGraph.exists_walk_of_edist_ne_top
    (ne_top_of_le_ne_top (ENat.natCast_ne_top hops) ha.2)
  -- a shortest walk does not leave the ball
  have hinside : ∀ c ∈ path.support, c ∈ g.ball centre hops := by
    intro c hc
    refine ⟨hasNode_of_mem_support h hcentre path hc, (edist_le_of_mem_support path hc).trans ?_⟩
    rw [hpath]
    exact ha.2
  have htransfer : ∀ e ∈ path.edges, e ∈ other.undirected.edgeSet := by
    intro e
    induction e with
    | h x y =>
      intro he
      have hx := hinside x (path.fst_mem_support_of_mem_edges he)
      have hy := hinside y (path.snd_mem_support_of_mem_edges he)
      obtain ⟨hne, hedge⟩ := adj_undirected.mp (path.adj_of_mem_edges he)
      refine adj_undirected.mpr ⟨hne, hedge.imp (fun hxy => hedges hxy hx hy) fun hyx => ?_⟩
      exact hedges hyx hy hx
  have hle := SimpleGraph.edist_le (path.transfer other.undirected htransfer)
  rwa [SimpleGraph.Walk.length_transfer, hpath] at hle

theorem mem_edges_induced (h : g.WellFormed) {keep : Address → Bool} :
    (a, b) ∈ (g.induced keep).edges ↔ (a, b) ∈ g.edges ∧ keep a = true ∧ keep b = true := by
  rw [mem_edges (wellFormed_induced h keep), mem_edges h, mem_successors_induced]
  constructor
  · intro hall
    obtain ⟨ha, hb, hedge⟩ := hall
    exact ⟨hedge, ha, hb⟩
  · intro hall
    obtain ⟨hedge, ha, hb⟩ := hall
    exact ⟨ha, hb, hedge⟩

/-- Fewer edges make no distance smaller. -/
theorem undirected_le (hedges : ∀ {x y}, (x, y) ∈ g.edges → (x, y) ∈ other.edges) :
    g.undirected ≤ other.undirected := by
  intro x y hadj
  obtain ⟨hne, hedge⟩ := adj_undirected.mp hadj
  exact adj_undirected.mpr ⟨hne, hedge.imp hedges hedges⟩

/-- The program's table of distances lists those of the undirected graph. -/
theorem mem_distances (h : g.WellFormed) (hcentre : g.hasNode centre = true) {d : Nat} :
    (a, some d) ∈ g.distances centre .bidirectional
      ↔ g.hasNode a = true ∧ g.undirected.edist centre a = d := by
  rw [mem_distances_iff, getElem?_within_all h hcentre, isDistance_iff h]

/-- A graph is the part of another in the ball around a block. -/
structure IsBallOf (g : Flowgraph) (centre : Address) (hops : Nat) (part : Flowgraph) : Prop where
  nodes : ∀ {a}, a ∈ part.nodes ↔ a ∈ g.ball centre hops
  edges : ∀ {a b}, (a, b) ∈ part.edges
    ↔ (a, b) ∈ g.edges ∧ a ∈ g.ball centre hops ∧ b ∈ g.ball centre hops
  predecessors : ∀ {a b}, a ∈ part.predecessors b ↔ (a, b) ∈ part.edges
  wellFormed : part.WellFormed
  code : part.code = ∅
  policy : part.policy = .autoCreate
  undirected : ∀ {a}, a ∈ part.nodes →
    part.undirected.edist centre a = g.undirected.edist centre a
  distances : ∀ {a d}, (a, some d) ∈ part.distances centre .bidirectional
    ↔ (a, some d) ∈ g.distances centre .bidirectional ∧ d ≤ hops

/-- The part of a graph that the search around a block finds. -/
def around (g : Flowgraph) (centre : Address) (hops : Nat) : Flowgraph :=
  g.induced (g.within .bidirectional centre hops).contains

theorem hasNode_around (h : g.WellFormed) (hcentre : g.hasNode centre = true) :
    (g.around centre hops).hasNode a = true ↔ a ∈ g.ball centre hops := by
  rw [around, hasNode_induced, Bool.and_eq_true, contains_within h hcentre]
  exact ⟨fun hboth => hboth.2, fun hball => ⟨hball.1, hball⟩⟩

theorem mem_edges_around (h : g.WellFormed) (hcentre : g.hasNode centre = true) :
    (a, b) ∈ (g.around centre hops).edges
      ↔ (a, b) ∈ g.edges ∧ a ∈ g.ball centre hops ∧ b ∈ g.ball centre hops := by
  rw [around, mem_edges_induced h, contains_within h hcentre, contains_within h hcentre]

/-- Within a ball the distances from its centre are those of the whole graph. -/
theorem edist_around (h : g.WellFormed) (hcentre : g.hasNode centre = true)
    (ha : a ∈ g.ball centre hops) :
    (g.around centre hops).undirected.edist centre a = g.undirected.edist centre a := by
  refine le_antisymm (edist_le_of_ball h hcentre ?_ ha) (SimpleGraph.edist_anti (undirected_le ?_))
  · intro x y hedge hx hy
    exact (mem_edges_around h hcentre).mpr ⟨hedge, hx, hy⟩
  · intro x y hedge
    exact ((mem_edges_around h hcentre).mp hedge).1

theorem centre_mem_ball (hcentre : g.hasNode centre = true) : centre ∈ g.ball centre hops :=
  ⟨hcentre, by simp⟩

/-- What the search finds makes up the part of a graph in a ball. -/
theorem isBallOf_around (h : g.WellFormed) (hcentre : g.hasNode centre = true) (hops : Nat) :
    IsBallOf g centre hops (g.around centre hops) where
  nodes := mem_nodes.trans (hasNode_around h hcentre)
  edges := mem_edges_around h hcentre
  predecessors := by
    intro a b
    have hpart : (g.around centre hops).WellFormed := wellFormed_induced h _
    rw [mem_edges hpart, hpart.mirrored]
  wellFormed := wellFormed_induced h _
  code := rfl
  policy := rfl
  undirected ha := edist_around h hcentre ((hasNode_around h hcentre).mp (mem_nodes.mp ha))
  distances := by
    intro a d
    have hpart : (g.around centre hops).WellFormed := wellFormed_induced h _
    have hself : (g.around centre hops).hasNode centre = true :=
      (hasNode_around h hcentre).mpr (centre_mem_ball hcentre)
    rw [mem_distances hpart hself, mem_distances h hcentre, hasNode_around h hcentre]
    constructor
    · intro hboth
      obtain ⟨hball, hd⟩ := hboth
      rw [edist_around h hcentre hball] at hd
      have hle := hball.2
      rw [hd, Nat.cast_le] at hle
      exact ⟨⟨hball.1, hd⟩, hle⟩
    · intro hboth
      obtain ⟨⟨hnode, hd⟩, hle⟩ := hboth
      have hball : a ∈ g.ball centre hops := ⟨hnode, by rw [hd, Nat.cast_le]; exact hle⟩
      exact ⟨hball, by rw [edist_around h hcentre hball, hd]⟩

end Parts

/-! ## §4. Neighbourhoods. -/

section Neighbourhoods

variable {g : Flowgraph} {centre : Address}

/-- The neighbourhood of a block is what the search finds, unless the ball is too large. -/
theorem neighbourhood?_eq (h : g.WellFormed) (hcentre : g.hasNode centre = true)
    (hops maxSize : Nat) :
    g.neighbourhood? centre hops maxSize
      = if (g.ball centre hops).ncard ≤ max maxSize 1 then some (g.around centre hops)
        else none := by
  rw [neighbourhood?_eq_within h, ← size_within h hcentre]
  simp only [hcentre, true_and]
  rfl

/-- The neighbourhood of a block is the part of the graph in the ball around it.  There is none if the
block is not there or the ball has more blocks than it may have.  The search for it halts, and finds
the same as without a limit to its turns. -/
theorem neighbourhood?_ball (hg : g.Built) (centre : Address) (hops maxSize : Nat) :
    (g.neighbourhood? centre hops maxSize = none
        ↔ g.hasNode centre = false ∨ max maxSize 1 < (g.ball centre hops).ncard)
      ∧ (∀ {part}, g.neighbourhood? centre hops maxSize = some part →
          IsBallOf g centre hops part)
      ∧ (g.hasNode centre = true → ∃ found,
          Halts (g.neighbours .bidirectional) hops maxSize [centre] ((∅ : Reached).insert centre 0)
              found
            ∧ g.neighbourhood? centre hops maxSize
              = found.map fun reached => g.induced reached.contains) := by
  have h := wellFormed_built hg
  cases hcentre : g.hasNode centre with
  | false =>
    have hnone : g.neighbourhood? centre hops maxSize = none := by
      rw [neighbourhood?, hcentre]
      rfl
    rw [hnone]
    exact ⟨⟨fun _ => .inl rfl, fun _ => rfl⟩, fun hpart => absurd hpart (by simp),
      fun hthere => absurd hthere (by simp)⟩
  | true =>
    refine ⟨?_, ?_, fun _ => ⟨_, halts_search h hcentre hops maxSize, ?_⟩⟩
    · rw [neighbourhood?_eq h hcentre, ite_eq_right_iff]
      constructor
      · intro hlarge
        exact .inr (Nat.lt_of_not_le fun hsmall => absurd (hlarge hsmall) (by simp))
      · rintro (hmissing | hlarge) hsmall
        · exact absurd hmissing (by simp)
        · exact absurd hsmall (Nat.not_le_of_lt hlarge)
    · intro part hpart
      rw [neighbourhood?_eq h hcentre, Option.ite_none_right_eq_some] at hpart
      rw [← Option.some.inj hpart.2]
      exact isBallOf_around h hcentre hops
    · rw [neighbourhood?, if_pos hcentre]

end Neighbourhoods

/-- The graph of some edges. -/
def ofEdges (edges : List (Address × Address)) : Flowgraph :=
  edges.foldl (fun g (source, target) => ((g.withNode source).withNode target).withEdge source target)
    (empty .autoCreate)

theorem built_ofEdges (edges : List (Address × Address)) : (ofEdges edges).Built := by
  suffices hall : ∀ g : Flowgraph, g.Built → g.policy = .autoCreate →
      (edges.foldl (fun g (source, target) =>
        ((g.withNode source).withNode target).withEdge source target) g).Built from
    hall _ (.empty .autoCreate) rfl
  induction edges with
  | nil => exact fun g hg _ => hg
  | cons edge edges ih =>
    intro g hg hpolicy
    obtain ⟨isNew, hadd⟩ := addEdge_autoCreate hpolicy edge.1 edge.2
    exact ih _ (.addEdge hg hadd) hpolicy

/-- Three blocks in a ring, the second with an edge to itself, and a fourth behind the third. -/
def ring : Flowgraph :=
  ofEdges [(1, 2), (2, 2), (2, 3), (3, 1), (3, 4)]

theorem neighbourhood?_ball_ring :
    ring.Built ∧ 2 < (ring.ball 1 1).ncard ∧ ∃ part, ring.neighbourhood? 1 1 3 = some part
      ∧ part.edges = [(1, 2), (2, 2), (2, 3), (3, 1)] ∧ IsBallOf ring 1 1 part := by
  have hring : ring.Built := built_ofEdges _
  have hnone : ring.neighbourhood? 1 1 2 = none := by decide +kernel
  have hedges : (ring.neighbourhood? 1 1 3).map edges = some [(1, 2), (2, 2), (2, 3), (3, 1)] := by
    decide +kernel
  obtain ⟨part, hpart, hpartEdges⟩ := Option.map_eq_some_iff.mp hedges
  refine ⟨hring, ?_, part, hpart, hpartEdges, (neighbourhood?_ball hring 1 1 3).2.1 hpart⟩
  exact ((neighbourhood?_ball hring 1 1 2).1.mp hnone).resolve_left (by decide +kernel)

end Flowprint.Flowgraph
