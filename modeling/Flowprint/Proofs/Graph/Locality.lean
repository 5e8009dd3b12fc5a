/-
  Flowprint.Proofs.Graph.Locality
  ────────────────────────────────
  What a new edge changes, and what it leaves alone.

  A new edge may bring new blocks, shorten walks and join blocks that were there.  But a walk that uses
  it passes both of its ends.  So around a block that is not near both of them nothing changes: the
  same blocks are near, at the same distances and with the same edges between them.

  Main statements:

      Gains.ball_eq         the same blocks are near
      Gains.around_eq       they make up the same part
      addEdge_local         neighbourhoods and their keys stay the same
-/
import Flowprint.Feature.Extract
import Flowprint.Proofs.Graph.Ball

namespace Flowprint.Flowgraph

open Std (ExtTreeMap)

/-! ## §1. An edge more. -/

/-- A graph has the blocks and edges of another, an edge and the ends of that edge. -/
structure Gains (g g' : Flowgraph) (source target : Address) : Prop where
  before : g.WellFormed
  after : g'.WellFormed
  nodes : ∀ {a}, g.hasNode a = true → g'.hasNode a = true
  edges : ∀ {a b}, (a, b) ∈ g'.edges ↔ a = source ∧ b = target ∨ (a, b) ∈ g.edges

theorem gains_addEdge {g g' : Flowgraph} {source target : Address} {isNew : Bool}
    (h : g.WellFormed) (hadd : g.addEdge source target = .ok (isNew, g')) :
    Gains g g' source target where
  before := h
  after := wellFormed_addEdge h hadd
  nodes := by
    intro a ha
    rw [addEdge_eq_ok hadd, hasNode_withEdge, hasNode_withNode, hasNode_withNode]
    exact .inr (.inr (.inr ha))
  edges := by
    intro a b
    rw [mem_edges (wellFormed_addEdge h hadd), mem_edges h, addEdge_eq_ok hadd,
      mem_successors_withEdge, mem_successors_withNode, mem_successors_withNode]

/-! ## §2. What is near stays near. -/

namespace Gains

variable {g g' : Flowgraph} {source target centre a b : Address} {hops : Nat}

/-- Between blocks near another the edges are the same, if not both ends of the new one are there. -/
theorem mem_edges_iff (h : Gains g g' source target)
    (hfar : ¬ (source ∈ g'.ball centre hops ∧ target ∈ g'.ball centre hops))
    (ha : a ∈ g'.ball centre hops) (hb : b ∈ g'.ball centre hops) :
    (a, b) ∈ g'.edges ↔ (a, b) ∈ g.edges := by
  rw [h.edges]
  refine or_iff_right fun hboth => ?_
  obtain ⟨rfl, rfl⟩ := hboth
  exact hfar ⟨ha, hb⟩

/-- The same blocks are near. -/
theorem ball_eq (h : Gains g g' source target) (hcentre : g.hasNode centre = true)
    (hfar : ¬ (source ∈ g'.ball centre hops ∧ target ∈ g'.ball centre hops)) :
    g'.ball centre hops = g.ball centre hops := by
  ext a
  constructor
  · intro ha
    -- a walk within the ball does not use the new edge
    have hle := edist_le_of_ball h.after (h.nodes hcentre)
      (fun hedge hx hy => (h.mem_edges_iff hfar hx hy).mp hedge) ha
    exact (mem_ball h.before hcentre).mpr (hle.trans ha.2)
  · intro ha
    have hfewer : g.undirected ≤ g'.undirected := undirected_le fun hedge => h.edges.mpr (.inr hedge)
    exact ⟨h.nodes ha.1, (SimpleGraph.edist_anti hfewer).trans ha.2⟩

/-- What is near makes up the same part. -/
theorem around_eq (h : Gains g g' source target) (hcentre : g.hasNode centre = true)
    (hfar : ¬ (source ∈ g'.ball centre hops ∧ target ∈ g'.ball centre hops)) :
    g'.around centre hops = g.around centre hops := by
  have hball := h.ball_eq hcentre hfar
  have hbefore : (g.around centre hops).WellFormed := wellFormed_induced h.before _
  have hafter : (g'.around centre hops).WellFormed := wellFormed_induced h.after _
  have hmaps := edges_eq hafter hbefore
    (fun a => by
      rw [hasNode_around h.after (h.nodes hcentre), hasNode_around h.before hcentre, hball])
    (fun a b => by
      rw [← mem_edges hafter, ← mem_edges hbefore, mem_edges_around h.after (h.nodes hcentre),
        mem_edges_around h.before hcentre, ← hball]
      exact and_congr_left fun hboth => h.mem_edges_iff hfar hboth.1 hboth.2)
  -- parts have no code, and take any edge
  exact Flowgraph.mk.injEq .. ▸ ⟨hmaps.1, hmaps.2, rfl, rfl⟩

theorem neighbourhood?_eq (h : Gains g g' source target) (hcentre : g.hasNode centre = true)
    (hfar : ¬ (source ∈ g'.ball centre hops ∧ target ∈ g'.ball centre hops)) (maxSize : Nat) :
    g'.neighbourhood? centre hops maxSize = g.neighbourhood? centre hops maxSize := by
  rw [Flowgraph.neighbourhood?_eq h.after (h.nodes hcentre),
    Flowgraph.neighbourhood?_eq h.before hcentre, h.ball_eq hcentre hfar, h.around_eq hcentre hfar]

end Gains

/-! ## §3. Neighbourhoods. -/

/-- A graph that brings the ends of its edges with them takes any edge.  The neighbourhood of a block
that was there stays what it was, or remains too large, unless both ends of the edge are near the
block then; and so does the key of its shape. -/
theorem addEdge_local {g : Flowgraph} (hg : g.Built) (hpolicy : g.policy = .autoCreate)
    (source target : Address) :
    ∃ isNew g', g.addEdge source target = .ok (isNew, g')
      ∧ ∀ {centre hops}, g.hasNode centre = true →
          ¬ (source ∈ g'.ball centre hops ∧ target ∈ g'.ball centre hops) → ∀ maxSize,
            g'.neighbourhood? centre hops maxSize = g.neighbourhood? centre hops maxSize
              ∧ ∀ distance : UInt32, distance.toNat = hops →
                  graphletKey? g' maxSize centre distance = graphletKey? g maxSize centre distance := by
  obtain ⟨isNew, hadd⟩ := addEdge_autoCreate hpolicy source target
  refine ⟨isNew, _, hadd, fun {centre hops} hcentre hfar maxSize => ?_⟩
  have hsame := (gains_addEdge (wellFormed_built hg) hadd).neighbourhood?_eq hcentre hfar maxSize
  refine ⟨hsame, fun distance hdistance => ?_⟩
  rw [graphletKey?, graphletKey?, hdistance, hsame]

/-- Four blocks in a row. -/
def row : Flowgraph :=
  ofEdges [(1, 2), (2, 3), (3, 4)]

/-- An edge from the last block near another to a new block is no matter to the other. -/
theorem addEdge_local_row :
    row.Built ∧ row.policy = .autoCreate ∧ ∃ g', row.addEdge 3 9 = .ok (true, g')
      ∧ 3 ∈ g'.ball 1 2 ∧ 9 ∉ g'.ball 1 2 ∧ (row.neighbourhood? 1 2 3).isSome = true
      ∧ g'.neighbourhood? 1 2 3 = row.neighbourhood? 1 2 3
      ∧ graphletKey? g' 3 1 2 = graphletKey? row 3 1 2 := by
  have hrow : row.Built := built_ofEdges _
  obtain ⟨isNew, g', hadd, hlocal⟩ := addEdge_local hrow rfl 3 9
  have hcomputed : row.addEdge 3 9 = .ok (true, ((row.withNode 3).withNode 9).withEdge 3 9) := rfl
  obtain ⟨rfl, rfl⟩ := Prod.mk.inj (Except.ok.inj (hcomputed.symm.trans hadd))
  have hg' := wellFormed_addEdge (wellFormed_built hrow) hadd
  have hnear : 3 ∈ (((row.withNode 3).withNode 9).withEdge 3 9).ball 1 2 :=
    (contains_within hg' (by decide +kernel)).mp (by decide +kernel)
  have hfar : 9 ∉ (((row.withNode 3).withNode 9).withEdge 3 9).ball 1 2 := fun hball =>
    absurd ((contains_within hg' (by decide +kernel)).mpr hball) (by decide +kernel)
  obtain ⟨hsame, hkey⟩ := hlocal (by decide +kernel) (fun hboth => hfar hboth.2) 3
  exact ⟨hrow, rfl, _, hadd, hnear, hfar, by decide +kernel, hsame, hkey 2 rfl⟩

end Flowprint.Flowgraph
