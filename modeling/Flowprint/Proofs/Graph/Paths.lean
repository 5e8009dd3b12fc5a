/-
  Flowprint.Proofs.Graph.Paths
  ────────────────────────────────
  Distances are lengths of shortest paths.

  A path is the list of its blocks, each of which an edge joins to the next: along the edges, against
  them, or either way.  Its length is the number of its edges.  The walks of the search are paths, so
  that the distances that it lists are the least lengths of paths.

  The search needs no limit to its turns.  `Empties` is the search with a queue as it goes on until
  the queue is empty; it comes to an end in every graph, since no block gets into the queue twice, and
  finds what the search by levels finds.

  Main statements:

      walk_iff_path           walks of the search are paths
      empties_within          the search with a queue ends with what is within reach
      distances_shortest      the table of distances lists lengths of shortest paths
-/
import Flowprint.Proofs.Graph.Ball

namespace Flowprint.Flowgraph

open Std (ExtTreeMap)

/-! ## §1. Paths. -/

/-- An edge joins a block to another, for one who may take edges in a direction. -/
def Joins (g : Flowgraph) : Direction → Address → Address → Prop
  | .forward, a, b => (a, b) ∈ g.edges
  | .backward, a, b => (b, a) ∈ g.edges
  | .bidirectional, a, b => (a, b) ∈ g.edges ∨ (b, a) ∈ g.edges

/-- The blocks of a path from one block to another. -/
structure IsPath (g : Flowgraph) (direction : Direction) (start a : Address)
    (path : List Address) : Prop where
  first : path.head? = some start
  last : path.getLast? = some a
  joined : path.IsChain (g.Joins direction)

/-- The numbers of edges of the paths from one block to another. -/
def pathLengths (g : Flowgraph) (direction : Direction) (start a : Address) : Set Nat :=
  {n | ∃ path, g.IsPath direction start a path ∧ path.length = n + 1}

section Paths

variable {g : Flowgraph} {direction : Direction} {start a b : Address} {n d : Nat}

theorem mem_neighbours (h : g.WellFormed) : b ∈ g.neighbours direction a ↔ g.Joins direction a b := by
  cases direction with
  | forward => exact (mem_edges h).symm
  | backward => exact h.mirrored.symm.trans (mem_edges h).symm
  | bidirectional => exact mem_neighbours_bidirectional h

/-- A path with a block more. -/
theorem IsPath.concat {path : List Address} (h : g.IsPath direction start a path)
    (hjoin : g.Joins direction a b) : g.IsPath direction start b (path ++ [b]) where
  first := by rw [List.head?_append, h.first, Option.some_or]
  last := List.getLast?_concat
  joined := by
    refine List.isChain_append.mpr ⟨h.joined, List.isChain_singleton b, fun x hx y hy => ?_⟩
    rw [h.last, Option.mem_some_iff] at hx
    rw [List.head?_cons, Option.mem_some_iff] at hy
    rwa [← hx, ← hy]

/-- Walks of the search are paths. -/
theorem walk_iff_path (h : g.WellFormed) :
    Walk (g.neighbours direction) start n a ↔ n ∈ g.pathLengths direction start a := by
  constructor
  · intro hwalk
    induction hwalk with
    | here => exact ⟨[start], ⟨rfl, rfl, List.isChain_singleton start⟩, rfl⟩
    | hop _ hb ih =>
      obtain ⟨path, hpath, hlength⟩ := ih
      refine ⟨_, hpath.concat ((mem_neighbours h).mp hb), ?_⟩
      rw [List.length_append, hlength, List.length_singleton]
  · rintro ⟨path, hpath, hlength⟩
    -- from the last block off, as walks are
    induction path using List.reverseRecOn generalizing n a with
    | nil => exact absurd hlength (by simp)
    | append_singleton path b ih =>
      obtain ⟨hfirst, hlast, hjoined⟩ := hpath
      obtain rfl : b = a := by rwa [List.getLast?_concat, Option.some_inj] at hlast
      rw [List.length_append, List.length_singleton, Nat.add_right_cancel_iff] at hlength
      cases hbefore : path.getLast? with
      | none =>
        obtain rfl := List.getLast?_eq_none_iff.mp hbefore
        obtain rfl : b = start := Option.some.inj hfirst
        obtain rfl : n = 0 := hlength.symm
        exact .here
      | some c =>
        obtain ⟨hchain, -, hjoin⟩ := List.isChain_append.mp hjoined
        have hne : path ≠ [] := fun hnil => by rw [hnil] at hbefore; exact absurd hbefore (by simp)
        obtain ⟨m, rfl⟩ := Nat.exists_eq_succ_of_ne_zero
          (hlength ▸ (List.length_pos_iff.mpr hne).ne')
        rw [List.head?_append_of_ne_nil _ hne] at hfirst
        exact .hop (ih ⟨hfirst, hbefore, hchain⟩ hlength)
          ((mem_neighbours h).mpr (hjoin c hbefore b rfl))

/-- The distances of the search are least lengths of paths. -/
theorem isDistance_iff_isLeast (h : g.WellFormed) :
    IsDistance (g.neighbours direction) start a d ↔ IsLeast (g.pathLengths direction start a) d := by
  refine and_congr (walk_iff_path h) ?_
  constructor
  · intro hnone n hn
    exact Nat.le_of_not_lt fun hlt => hnone n hlt ((walk_iff_path h).mpr hn)
  · intro hleast n hlt hwalk
    exact absurd (hleast ((walk_iff_path h).mp hwalk)) (Nat.not_le_of_lt hlt)

/-- A block that is not there is on no path to a block that is. -/
theorem pathLengths_unknown (h : g.WellFormed) (hstart : g.hasNode start = false)
    (ha : g.hasNode a = true) : g.pathLengths direction start a = ∅ := by
  refine Set.eq_empty_iff_forall_notMem.mpr fun n hn => ?_
  obtain ⟨path, ⟨hfirst, hlast, hjoined⟩, hlength⟩ := hn
  match path with
  | [] => exact absurd hlength (by simp)
  | [b] =>
    obtain rfl : b = start := Option.some.inj hfirst
    obtain rfl : b = a := Option.some.inj hlast
    rw [hstart] at ha
    exact Bool.noConfusion ha
  | b :: c :: rest =>
    obtain rfl : b = start := Option.some.inj hfirst
    -- the first edge would have the block at an end
    have hjoin := (List.isChain_cons_cons.mp hjoined).1
    have hnode : g.hasNode b = true := by
      cases direction with
      | forward => exact (h.ends ((mem_edges h).mp hjoin)).1
      | backward => exact (h.ends ((mem_edges h).mp hjoin)).2
      | bidirectional =>
        rcases hjoin with hafter | hbefore
        · exact (h.ends ((mem_edges h).mp hafter)).1
        · exact (h.ends ((mem_edges h).mp hbefore)).2
    rw [hstart] at hnode
    exact Bool.noConfusion hnode

end Paths

/-! ## §2. The search until its queue is empty. -/

/-- The search from the blocks of a queue ends, once the queue is empty, with what it has marked.  In
each turn the first block goes, and its neighbours without a mark get one and come to the end. -/
inductive Empties (next : Address → List Address) : List Address → Reached → Reached → Prop
  | done {reached : Reached} : Empties next [] reached reached
  | turn {a : Address} {queue fresh : List Address} {reached marked found : Reached}
      (hround : discover (reached.getD a 0 + 1) (next a) reached = (fresh, marked))
      (h : Empties next (queue ++ fresh) marked found) : Empties next (a :: queue) reached found

section Empties

variable {next : Address → List Address} {hops maxSize : Nat} {queue : List Address}
  {reached found found' : Reached}

/-- The search ends with one result. -/
theorem empties_unique (h : Empties next queue reached found)
    (h' : Empties next queue reached found') : found = found' := by
  induction h with
  | done =>
    cases h'
    rfl
  | turn hround _ ih =>
    cases h' with
    | turn hround' hrest =>
      obtain ⟨rfl, rfl⟩ := Prod.mk.inj (hround.symm.trans hround')
      exact ih hrest

/-- What a turn that finds room does. -/
theorem enqueue_eq_some {distance : Nat} {candidates queue queue' : List Address}
    {reached reached' : Reached}
    (h : enqueue maxSize distance candidates queue reached = some (queue', reached')) :
    queue' = queue ++ (discover distance candidates reached).1
      ∧ reached' = (discover distance candidates reached).2 := by
  rw [enqueue_eq, Option.ite_none_right_eq_some] at h
  obtain ⟨hqueue, hreached⟩ := Prod.mk.inj (Option.some.inj h.2)
  exact ⟨hqueue.symm, hreached.symm⟩

/-- Marks are not changed. -/
theorem Halts.getElem? (h : Halts next hops maxSize queue reached (some found)) {a : Address} {d : Nat}
    (ha : reached[a]? = some d) : found[a]? = some d := by
  generalize hresult : some found = result at h
  induction h with
  | idle =>
    obtain rfl := Option.some.inj hresult
    exact ha
  | far _ _ ih => exact ih ha hresult
  | near _ hroom _ ih =>
    obtain ⟨-, rfl⟩ := enqueue_eq_some hroom
    refine ih ?_ hresult
    rw [getElem?_discover, ha, Option.some_or]
  | full => exact absurd hresult (by simp)

/-- A search that finds nothing at its limit of hops, and that does not give up, has no limits. -/
theorem Halts.empties (h : Halts next hops maxSize queue reached (some found)) (hpos : 0 < hops)
    (hwithin : ∀ {a : Address} {d : Nat}, found[a]? = some d → d < hops) : Empties next queue reached found := by
  generalize hresult : some found = result at h
  induction h with
  | idle =>
    obtain rfl := Option.some.inj hresult
    exact .done
  | @far a queue reached _ hfar hrest =>
    subst hresult
    -- no block is too far, for its mark would be there in the end
    cases hmark : reached[a]? with
    | none =>
      rw [ExtTreeMap.getD_eq_getD_getElem?, hmark, Option.getD_none] at hfar
      exact absurd hpos (Nat.not_lt_of_le hfar)
    | some d =>
      rw [getD_reached hmark] at hfar
      exact absurd (hwithin (hrest.getElem? hmark)) (Nat.not_lt_of_le hfar)
  | near _ hroom _ ih =>
    obtain ⟨rfl, rfl⟩ := enqueue_eq_some hroom
    exact .turn rfl (ih hresult)
  | full => exact absurd hresult (by simp)

end Empties

section Search

variable {g : Flowgraph} {direction : Direction} {start : Address}

/-- The search with a queue ends with what is within reach. -/
theorem empties_within (h : g.WellFormed) (hstart : g.hasNode start = true) :
    Empties (g.neighbours direction) [start] ((∅ : Reached).insert start 0)
      (g.within direction start g.nodeCount) := by
  -- more hops than there are blocks, and room for all that is found, are no limits
  have hhops : g.within direction start g.nodeCount
      = spread (g.neighbours direction) (g.nodeCount + 1) 0 [start]
        ((∅ : Reached).insert start 0) := by
    rw [← within_eq_spread h hstart, within, within, Nat.min_self,
      Nat.min_eq_right (Nat.le_add_right ..)]
  have hhalts : Halts (g.neighbours direction) (g.nodeCount + 1)
      (g.within direction start g.nodeCount).size [start] ((∅ : Reached).insert start 0)
      (if (g.within direction start g.nodeCount).size
          ≤ max (g.within direction start g.nodeCount).size ((∅ : Reached).insert start 0).size then
        some (g.within direction start g.nodeCount)
      else none) := by
    rw [hhops]
    exact halts_spread (by omega) (level_start start)
  rw [if_pos (Nat.le_max_left ..)] at hhalts
  refine hhalts.empties (Nat.succ_pos _) fun {a d} hd => ?_
  have hle := (getElem?_within.mp hd).2.2
  omega

end Search

/-! ## §3. Distances. -/

section Distances

variable {g : Flowgraph} {direction : Direction} {start a : Address} {d : Nat}

theorem mem_distances_some (h : g.WellFormed) : (a, some d) ∈ g.distances start direction
    ↔ g.hasNode a = true ∧ IsLeast (g.pathLengths direction start a) d := by
  rw [mem_distances_iff]
  refine and_congr_right fun ha => ?_
  cases hstart : g.hasNode start with
  | false =>
    -- nothing is found, and there is no path either
    rw [within, if_neg (by simp [hstart]), pathLengths_unknown h hstart ha]
    constructor
    · intro hfound
      exact absurd hfound (by simp)
    · intro hleast
      exact absurd hleast.1 (Set.notMem_empty d)
  | true => rw [getElem?_within_all h hstart, isDistance_iff_isLeast h]

theorem mem_distances_none (h : g.WellFormed) : (a, none) ∈ g.distances start direction
    ↔ g.hasNode a = true ∧ g.pathLengths direction start a = ∅ := by
  rw [mem_distances_iff]
  refine and_congr_right fun ha => ?_
  have hsome : ∀ {d}, (g.within direction start g.nodeCount)[a]? = some d
      ↔ IsLeast (g.pathLengths direction start a) d := by
    intro d
    rw [← and_iff_right (b := _ = some d) ha, ← mem_distances_iff, mem_distances_some h,
      and_iff_right ha]
  constructor
  · intro hnone
    by_contra hpath
    have hleast := isLeast_csInf (Set.nonempty_iff_ne_empty.mpr hpath)
    rw [← hsome, hnone] at hleast
    exact absurd hleast (by simp)
  · intro hempty
    cases hfound : (g.within direction start g.nodeCount)[a]? with
    | none => rfl
    | some d =>
      have hleast := hsome.mp hfound
      rw [hempty] at hleast
      exact absurd hleast.1 (Set.notMem_empty d)

end Distances

/-- The table of distances has one entry for each block: the length of a shortest path to it, or none
if there is no path, as from a block that is not there.  It is what the search marks before its queue
is empty, and the queue gets empty in every graph. -/
theorem distances_shortest {g : Flowgraph} (hg : g.Built) (start : Address) (direction : Direction) :
    ((g.distances start direction).map Prod.fst = g.nodes ∧ g.nodes.Nodup)
    ∧ (∀ {a d}, (a, some d) ∈ g.distances start direction
        ↔ g.hasNode a = true ∧ IsLeast (g.pathLengths direction start a) d)
    ∧ (∀ {a}, (a, none) ∈ g.distances start direction
        ↔ g.hasNode a = true ∧ g.pathLengths direction start a = ∅)
    ∧ (g.hasNode start = false → ∀ entry ∈ g.distances start direction, entry.2 = none)
    ∧ (g.hasNode start = true → ∃! found,
        Empties (g.neighbours direction) [start] ((∅ : Reached).insert start 0) found
          ∧ g.distances start direction = g.nodes.map fun a => (a, found[a]?)) := by
  have h := wellFormed_built hg
  refine ⟨⟨distances_nodes g start direction, g.outgoing.nodup_keys⟩, mem_distances_some h,
    mem_distances_none h, fun hunknown entry hentry => ?_, fun hstart => ?_⟩
  · obtain ⟨a, distance⟩ := entry
    have hnode := (mem_distances_iff.mp hentry).1
    have hnone : (a, none) ∈ g.distances start direction :=
      (mem_distances_none h).mpr ⟨hnode, pathLengths_unknown h hunknown hnode⟩
    exact (mem_distances_iff.mp hentry).2.symm.trans (mem_distances_iff.mp hnone).2
  · have hends : Empties (g.neighbours direction) _ _ _ := empties_within h hstart
    exact ⟨_, ⟨hends, rfl⟩, fun other hother => empties_unique hother.1 hends⟩

/-- Against the edges the ring is passed the other way, and the block behind it has no way to it. -/
theorem distances_shortest_ring :
    ring.Built ∧ ring.hasNode 1 = true ∧ ring.hasNode 9 = false
      ∧ ring.distances 1 .backward = [(1, some 0), (2, some 2), (3, some 1), (4, none)]
      ∧ IsLeast (ring.pathLengths .backward 1 2) 2 ∧ ring.pathLengths .backward 1 4 = ∅
      ∧ (∀ entry ∈ ring.distances 9 .bidirectional, entry.2 = none)
      ∧ ∃! found, Empties (ring.neighbours .backward) [1] ((∅ : Reached).insert 1 0) found
        ∧ ring.distances 1 .backward = ring.nodes.map fun a => (a, found[a]?) := by
  have hring : ring.Built := built_ofEdges _
  have hthere : ring.hasNode 1 = true := by decide +kernel
  have hmissing : ring.hasNode 9 = false := by decide +kernel
  have htable : ring.distances 1 .backward = [(1, some 0), (2, some 2), (3, some 1), (4, none)] := by
    decide +kernel
  obtain ⟨-, hsome, hnone, -, hends⟩ := distances_shortest hring 1 .backward
  obtain ⟨-, -, -, hunknown, -⟩ := distances_shortest hring 9 .bidirectional
  refine ⟨hring, hthere, hmissing, htable, (hsome.mp ?_).2, (hnone.mp ?_).2, hunknown hmissing,
    hends hthere⟩
  · rw [htable]
    decide
  · rw [htable]
    decide

end Flowprint.Flowgraph
