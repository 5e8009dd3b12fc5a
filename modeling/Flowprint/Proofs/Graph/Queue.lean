/-
  Flowprint.Proofs.Graph.Queue
  ────────────────────────────────
  The search with a queue finds what the search by levels finds.

  `Halts` is the search with a queue as it is without a limit to its turns.  While the blocks of a
  level go from the front of the queue, those of the next come to its end; so by the time a level is
  gone the queue has made one round of the search by levels.  There may be too many blocks in the
  midst of a round or only at its end: since no block is unmarked again, it comes to the same.

  Neither search stops too early.  Every block that gets into the queue is marked for the first time
  then, and a round that marks nothing is the last.

  Main statements:

      enqueue_eq                 a turn is part of a round
      halts_spread               the search with a queue goes level by level
      halts_explore              it needs no more turns than there are blocks
      getElem?_within_all        with as many rounds as there are blocks all distances are found
      neighbourhood?_eq_within   whether a neighbourhood is too large depends on its size only
-/
import Flowprint.Proofs.Graph.Built
import Flowprint.Proofs.Graph.Search
import Mathlib.Data.List.Perm.Basic

namespace Flowprint.Flowgraph

open Std (ExtTreeMap)

/-! ## §1. Rounds and their parts. -/

section Parts

variable {distance maxSize : Nat} {a : Address} {candidates rest queue : List Address}
  {reached : Reached}

theorem discover_new (hnew : ¬ reached.contains a = true) :
    discover distance (a :: rest) reached
      = (a :: (discover distance rest (reached.insert a distance)).1,
        (discover distance rest (reached.insert a distance)).2) := by
  rw [discover, if_neg hnew]

theorem discover_old (hold : reached.contains a = true) :
    discover distance (a :: rest) reached = discover distance rest reached := by
  rw [discover, if_pos hold]

/-- A round can be made in two parts. -/
theorem discover_append (first second : List Address) :
    discover distance (first ++ second) reached
      = ((discover distance first reached).1
          ++ (discover distance second (discover distance first reached).2).1,
        (discover distance second (discover distance first reached).2).2) := by
  induction first generalizing reached with
  | nil => rfl
  | cons a rest ih =>
    rw [List.cons_append]
    by_cases hold : reached.contains a = true
    · rw [discover_old hold, discover_old hold, ih]
    · rw [discover_new hold, discover_new hold, ih, List.cons_append]

theorem size_insert_new (distance : Nat) (hnew : ¬ reached.contains a = true) :
    (reached.insert a distance).size = reached.size + 1 := by
  rw [ExtTreeMap.size_insert]
  exact if_neg hnew

/-- A round marks as many blocks more as it finds. -/
theorem size_discover (distance : Nat) (candidates : List Address) (reached : Reached) :
    (discover distance candidates reached).2.size
      = reached.size + (discover distance candidates reached).1.length := by
  induction candidates generalizing reached with
  | nil => rfl
  | cons a rest ih =>
    by_cases hold : reached.contains a = true
    · rw [discover_old hold, ih]
    · rw [discover_new hold, ih, size_insert_new distance hold, List.length_cons]
      omega

/-- What a round finds it marks with the distance. -/
theorem getElem?_fresh {fresh : List Address} {marked : Reached}
    (hround : discover distance candidates reached = (fresh, marked)) (h : a ∈ fresh) :
    marked[a]? = some distance := by
  obtain ⟨rfl, rfl⟩ := Prod.mk.inj hround
  obtain ⟨hmem, hnew⟩ := mem_discover.mp h
  rw [getElem?_discover, hnew, Option.none_or, if_pos hmem]

/-- A round that finds nothing marks nothing. -/
theorem discover_nothing (h : (discover distance candidates reached).1 = []) :
    (discover distance candidates reached).2 = reached := by
  induction candidates generalizing reached with
  | nil => rfl
  | cons a rest ih =>
    by_cases hold : reached.contains a = true
    · rw [discover_old hold] at h ⊢
      exact ih h
    · rw [discover_new hold] at h
      cases h

/-- A turn is part of a round, unless there are too many blocks after it. -/
theorem enqueue_eq :
    enqueue maxSize distance candidates queue reached
      = if (discover distance candidates reached).2.size ≤ max maxSize reached.size then
          some (queue ++ (discover distance candidates reached).1,
            (discover distance candidates reached).2)
        else none := by
  induction candidates generalizing queue reached with
  | nil => rw [enqueue, discover, if_pos (Nat.le_max_right ..), List.append_nil]
  | cons a rest ih =>
    rw [enqueue]
    by_cases hold : reached.contains a = true
    · rw [if_pos hold, discover_old hold, ih]
    · have hsize := size_insert_new distance hold
      have hrest := size_discover distance rest (reached.insert a distance)
      rw [if_neg hold, discover_new hold]
      dsimp only
      split
      next hfull => rw [if_neg (by omega)]
      next hroom =>
        rw [ih, List.append_assoc, List.singleton_append]
        exact if_congr (by omega) rfl rfl

theorem spread_succ (next : Address → List Address) (rounds level : Nat)
    (frontier : List Address) (reached : Reached) :
    spread next (rounds + 1) level frontier reached
      = spread next rounds (level + 1) (discover (level + 1) (frontier.flatMap next) reached).1
        (discover (level + 1) (frontier.flatMap next) reached).2 :=
  rfl

/-- Rounds unmark no block. -/
theorem size_le_spread (next : Address → List Address) (rounds level : Nat)
    (frontier : List Address) (reached : Reached) :
    reached.size ≤ (spread next rounds level frontier reached).size := by
  induction rounds generalizing level frontier reached with
  | zero => exact Nat.le_refl _
  | succ rounds ih =>
    refine Nat.le_trans ?_ (ih (level + 1) _ _)
    rw [size_discover]
    exact Nat.le_add_right ..

end Parts

/-! ## §2. Searches without a limit to their turns. -/

/-- The search from the blocks of a queue halts with what it has marked, or with nothing since it has
marked too many blocks. -/
inductive Halts (next : Address → List Address) (hops maxSize : Nat) :
    List Address → Reached → Option Reached → Prop
  | idle {reached : Reached} : Halts next hops maxSize [] reached (some reached)
  | far {a : Address} {queue : List Address} {reached : Reached} {found : Option Reached}
      (hfar : hops ≤ reached.getD a 0) (h : Halts next hops maxSize queue reached found) :
    Halts next hops maxSize (a :: queue) reached found
  | near {a : Address} {queue queue' : List Address} {reached reached' : Reached}
      {found : Option Reached} (hnear : reached.getD a 0 < hops)
      (hroom : enqueue maxSize (reached.getD a 0 + 1) (next a) queue reached
        = some (queue', reached'))
      (h : Halts next hops maxSize queue' reached' found) :
    Halts next hops maxSize (a :: queue) reached found
  | full {a : Address} {queue : List Address} {reached : Reached} (hnear : reached.getD a 0 < hops)
      (hfull : enqueue maxSize (reached.getD a 0 + 1) (next a) queue reached = none) :
    Halts next hops maxSize (a :: queue) reached none

section Halts

variable {next : Address → List Address} {hops maxSize level : Nat}
  {frontier later queue : List Address} {reached : Reached} {found found' : Option Reached}

/-- A search halts with one result. -/
theorem halts_unique (h : Halts next hops maxSize queue reached found)
    (h' : Halts next hops maxSize queue reached found') : found = found' := by
  induction h with
  | idle =>
    cases h'
    rfl
  | far hfar _ ih =>
    cases h' with
    | far _ hrest => exact ih hrest
    | near hnear => exact absurd hfar (Nat.not_le_of_lt hnear)
    | full hnear => exact absurd hfar (Nat.not_le_of_lt hnear)
  | near hnear hroom _ ih =>
    cases h' with
    | far hfar => exact absurd hfar (Nat.not_le_of_lt hnear)
    | near _ hroom' hrest =>
      obtain ⟨rfl, rfl⟩ := Prod.mk.inj (Option.some.inj (hroom.symm.trans hroom'))
      exact ih hrest
    | full _ hfull => exact absurd (hroom.symm.trans hfull) (by simp)
  | full hnear hfull =>
    cases h' with
    | far hfar => exact absurd hfar (Nat.not_le_of_lt hnear)
    | near _ hroom => exact absurd (hfull.symm.trans hroom) (by simp)
    | full => rfl

theorem getD_reached {a : Address} {d : Nat} (h : reached[a]? = some d) : reached.getD a 0 = d := by
  rw [ExtTreeMap.getD_eq_getD_getElem?, h, Option.getD_some]

/-- The blocks of a level go from the queue, and what a round finds comes to its end. -/
theorem halts_level {fresh : List Address} {marked : Reached} (hnear : level < hops)
    (hfrontier : ∀ a ∈ frontier, reached[a]? = some level)
    (hround : discover (level + 1) (frontier.flatMap next) reached = (fresh, marked))
    (hroom : marked.size ≤ max maxSize reached.size →
      Halts next hops maxSize (later ++ fresh) marked found)
    (hfull : max maxSize reached.size < marked.size → found = none) :
    Halts next hops maxSize (frontier ++ later) reached found := by
  induction frontier generalizing later reached fresh marked with
  | nil =>
    obtain ⟨rfl, rfl⟩ := Prod.mk.inj hround
    rw [← List.append_nil later]
    exact hroom (Nat.le_max_right ..)
  | cons a rest ih =>
    have hlevel := getD_reached (hfrontier a List.mem_cons_self)
    rw [List.flatMap_cons, discover_append] at hround
    obtain ⟨rfl, rfl⟩ := Prod.mk.inj hround
    have hfirst := size_discover (level + 1) (next a) reached
    have hrest := size_discover (level + 1) (rest.flatMap next)
      (discover (level + 1) (next a) reached).2
    rw [List.cons_append]
    by_cases hsmall : (discover (level + 1) (next a) reached).2.size ≤ max maxSize reached.size
    · refine .near (hlevel.symm ▸ hnear) (by rw [hlevel, enqueue_eq, if_pos hsmall]) ?_
      rw [List.append_assoc]
      refine ih (fun b hb => ?_) rfl (fun hle => ?_) fun hlt => hfull (by omega)
      · rw [getElem?_discover, hfrontier b (List.mem_cons_of_mem _ hb), Option.some_or]
      · rw [List.append_assoc]
        exact hroom (by omega)
    · -- too many blocks after a part of the round are too many after all of it
      obtain rfl := hfull (by omega)
      exact .full (hlevel.symm ▸ hnear) (by rw [hlevel, enqueue_eq, if_neg hsmall])

/-- The search with a queue goes level by level, and halts with nothing if there are too many blocks
in the end. -/
theorem halts_spread {rounds : Nat} (hrounds : level + rounds = max hops level)
    (hfrontier : ∀ a ∈ frontier, reached[a]? = some level) :
    Halts next hops maxSize frontier reached
      (if (spread next rounds level frontier reached).size ≤ max maxSize reached.size then
        some (spread next rounds level frontier reached)
      else none) := by
  induction rounds generalizing level frontier reached with
  | zero =>
    rw [spread, if_pos (Nat.le_max_right ..)]
    -- all that is left in the queue is too far
    induction frontier with
    | nil => exact .idle
    | cons a rest ih =>
      refine .far ?_ (ih fun b hb => hfrontier b (List.mem_cons_of_mem a hb))
      rw [getD_reached (hfrontier a List.mem_cons_self)]
      omega
  | succ rounds ih =>
    cases hround : discover (level + 1) (frontier.flatMap next) reached with
    | mk fresh marked =>
      have hfound := size_discover (level + 1) (frontier.flatMap next) reached
      have hmore := size_le_spread next rounds (level + 1) fresh marked
      rw [hround] at hfound
      dsimp only at hfound
      rw [spread_succ, hround, ← List.append_nil frontier]
      dsimp only
      refine halts_level (by omega) hfrontier hround (fun hle => ?_) fun hlt => if_neg (by omega)
      -- since there was room for this round, the limit is the same as from here on
      have hlimit : (spread next rounds (level + 1) fresh marked).size ≤ max maxSize marked.size
          ↔ (spread next rounds (level + 1) fresh marked).size ≤ max maxSize reached.size := by
        omega
      exact if_congr hlimit rfl rfl ▸ ih (by omega) fun a ha => getElem?_fresh hround ha

end Halts

/-! ## §3. As many turns as there are blocks. -/

section Turns

variable {g : Flowgraph} {a centre : Address} {direction : Direction} {hops maxSize turns level : Nat}
  {frontier queue : List Address} {reached : Reached}

theorem hasNode_of_neighbour (h : g.WellFormed) {b : Address}
    (hb : b ∈ g.neighbours direction a) : g.hasNode b = true := by
  cases direction with
  | forward => exact (h.ends hb).2
  | backward => exact (h.ends (h.mirrored.mpr hb)).1
  | bidirectional =>
    rcases List.mem_append.mp hb with hafter | hbefore
    · exact (h.ends hafter).2
    · exact (h.ends (h.mirrored.mpr hbefore)).1

/-- Only blocks of the graph are marked. -/
def Known (g : Flowgraph) (reached : Reached) : Prop :=
  ∀ a ∈ reached.keys, g.hasNode a = true

/-- There are no more marks than blocks. -/
theorem Known.size_le (h : g.Known reached) : reached.size ≤ g.nodeCount := by
  have hblocks : reached.keys ⊆ g.nodes := fun a ha => mem_nodes.mpr (h a ha)
  have hle := (List.subperm_of_subset ExtTreeMap.nodup_keys hblocks).length_le
  rwa [ExtTreeMap.length_keys, nodes, ExtTreeMap.length_keys] at hle

theorem known_start (hcentre : g.hasNode centre = true) : g.Known ((∅ : Reached).insert centre 0) := by
  intro a ha
  rw [ExtTreeMap.mem_keys, ExtTreeMap.mem_insert, Std.compare_eq_iff_eq] at ha
  rcases ha with rfl | hnone
  · exact hcentre
  · exact absurd hnone ExtTreeMap.not_mem_empty

/-- Rounds mark blocks of the graph. -/
theorem Known.discover (h : g.Known reached) {candidates : List Address} (distance : Nat)
    (hcandidates : ∀ a ∈ candidates, g.hasNode a = true) :
    g.Known (discover distance candidates reached).2 := by
  intro a ha
  rw [ExtTreeMap.mem_keys, ExtTreeMap.mem_iff_isSome_getElem?, getElem?_discover,
    Option.isSome_or] at ha
  by_cases hmem : a ∈ candidates
  · exact hcandidates a hmem
  · rw [if_neg hmem, Option.isSome_none, Bool.or_false, ← ExtTreeMap.mem_iff_isSome_getElem?] at ha
    exact h a (ExtTreeMap.mem_keys.mpr ha)

theorem Known.discover_neighbours (h : g.Known reached) (hg : g.WellFormed)
    (direction : Direction) (level : Nat) (frontier : List Address) :
    g.Known
      (Flowgraph.discover (level + 1) (frontier.flatMap (g.neighbours direction)) reached).2 := by
  refine h.discover (level + 1) fun b hb => ?_
  obtain ⟨a, -, hb⟩ := List.mem_flatMap.mp hb
  exact hasNode_of_neighbour hg hb

/-- The search halts before its turns are over. -/
theorem halts_explore (hg : g.WellFormed) (h : g.Known reached)
    (hturns : queue.length + g.nodeCount ≤ reached.size + turns) :
    Halts (g.neighbours direction) hops maxSize queue reached
      (explore (g.neighbours direction) hops maxSize turns queue reached) := by
  induction turns generalizing queue reached with
  | zero =>
    have hsize := h.size_le
    obtain rfl : queue = [] := List.eq_nil_of_length_eq_zero (by omega)
    exact .idle
  | succ turns ih =>
    cases queue with
    | nil => exact .idle
    | cons a queue =>
      rw [List.length_cons] at hturns
      rw [explore]
      split
      next hfar => exact .far hfar (ih h (by omega))
      next hnear =>
        rw [Nat.not_le] at hnear
        split
        next queue' reached' hroom =>
          refine .near hnear hroom ?_
          -- what comes to the queue is marked for the first time
          rw [enqueue_eq, Option.ite_none_right_eq_some] at hroom
          obtain ⟨-, heq⟩ := hroom
          obtain ⟨rfl, rfl⟩ := Prod.mk.inj (Option.some.inj heq)
          refine ih (h.discover _ fun b hb => hasNode_of_neighbour hg hb) ?_
          rw [List.length_append, size_discover]
          omega
        next hfull => exact .full hnear hfull

/-- After a round that finds nothing there is nothing more to find. -/
theorem spread_of_nothing (next : Address → List Address) (rounds : Nat)
    (h : (discover (level + 1) (frontier.flatMap next) reached).1 = []) :
    spread next rounds level frontier reached = reached := by
  cases rounds with
  | zero => rfl
  | succ rounds => rw [spread_succ, h, discover_nothing h, spread_nil]

/-- As many rounds as there are blocks without a mark find all there is. -/
theorem spread_enough (hg : g.WellFormed) (h : g.Known reached) {rounds more : Nat}
    (hrounds : g.nodeCount ≤ reached.size + rounds) (hmore : rounds ≤ more) :
    spread (g.neighbours direction) more level frontier reached
      = spread (g.neighbours direction) rounds level frontier reached := by
  induction rounds generalizing level frontier reached more with
  | zero =>
    have hround := (h.discover_neighbours hg direction level frontier).size_le
    rw [size_discover] at hround
    exact spread_of_nothing _ more (List.eq_nil_of_length_eq_zero (by omega))
  | succ rounds ih =>
    by_cases hidle :
        (discover (level + 1) (frontier.flatMap (g.neighbours direction)) reached).1 = []
    · rw [spread_of_nothing _ more hidle, spread_of_nothing _ (rounds + 1) hidle]
    · -- the round marks a block at least
      have hsome := List.length_pos_iff.mpr hidle
      obtain ⟨more, rfl⟩ := Nat.exists_eq_add_of_le' hmore
      refine ih (h.discover_neighbours hg direction level frontier) ?_ (Nat.le_add_left ..)
      rw [size_discover]
      omega

/-- The number of rounds of the search by levels is no limit to it. -/
theorem within_eq_spread (h : g.WellFormed) (hcentre : g.hasNode centre = true) :
    g.within direction centre hops
      = spread (g.neighbours direction) hops 0 [centre] ((∅ : Reached).insert centre 0) := by
  rw [within, if_pos hcentre]
  rcases Nat.le_total hops g.nodeCount with hle | hle
  · rw [Nat.min_eq_left hle]
  · rw [Nat.min_eq_right hle,
      spread_enough h (known_start hcentre) (Nat.le_add_left ..) hle]

end Turns

/-! ## §4. Distances. -/

section Distances

variable {g : Flowgraph} {direction : Direction} {start a : Address} {d : Nat}

/-- With as many rounds as there are blocks the search finds all distances. -/
theorem getElem?_within_all (h : g.WellFormed) (hstart : g.hasNode start = true) :
    (g.within direction start g.nodeCount)[a]? = some d
      ↔ IsDistance (g.neighbours direction) start a d := by
  -- more rounds than there are blocks are as many as there are blocks
  have hrounds : g.within direction start g.nodeCount
      = g.within direction start (max d g.nodeCount) := by
    rw [within, within, Nat.min_eq_right (Nat.le_max_right ..), Nat.min_self]
  rw [hrounds, within_eq_spread h hstart, getElem?_spread atLevel_start, Nat.zero_add]
  exact and_iff_left (Nat.le_max_left ..)

theorem mem_distances_iff {entry : Option Nat} : (a, entry) ∈ g.distances start direction
    ↔ g.hasNode a = true ∧ (g.within direction start g.nodeCount)[a]? = entry := by
  rw [distances, List.mem_map]
  constructor
  · rintro ⟨b, hb, heq⟩
    obtain ⟨rfl, hentry⟩ := Prod.mk.inj heq
    exact ⟨mem_nodes.mp hb, hentry⟩
  · rintro ⟨ha, rfl⟩
    exact ⟨a, mem_nodes.mpr ha, rfl⟩

end Distances

/-! ## §5. Neighbourhoods. -/

section Neighbourhoods

variable {g : Flowgraph} {centre : Address}

theorem size_start (centre : Address) : ((∅ : Reached).insert centre 0).size = 1 := by
  rw [size_insert_new 0 (by simp), ExtTreeMap.size_empty]

theorem level_start (centre : Address) :
    ∀ a ∈ [centre], ((∅ : Reached).insert centre 0)[a]? = some 0 := by
  intro a ha
  rw [List.mem_singleton.mp ha]
  exact ExtTreeMap.getElem?_insert_self

/-- The search around a block halts before its turns are over, whatever cycles there are. -/
theorem halts_search (h : g.WellFormed) (hcentre : g.hasNode centre = true) (hops maxSize : Nat) :
    Halts (g.neighbours .bidirectional) hops maxSize [centre] ((∅ : Reached).insert centre 0)
      (explore (g.neighbours .bidirectional) hops maxSize g.nodeCount [centre]
        ((∅ : Reached).insert centre 0)) := by
  refine halts_explore h (known_start hcentre) (Nat.le_of_eq ?_)
  rw [size_start, List.length_singleton]

/-- The search with a queue finds what the search by levels finds, unless it is too much. -/
theorem explore_eq (h : g.WellFormed) (hcentre : g.hasNode centre = true) (hops maxSize : Nat) :
    explore (g.neighbours .bidirectional) hops maxSize g.nodeCount [centre]
        ((∅ : Reached).insert centre 0)
      = if (g.within .bidirectional centre hops).size ≤ max maxSize 1 then
          some (g.within .bidirectional centre hops)
        else none := by
  rw [within_eq_spread h hcentre, ← size_start centre]
  exact halts_unique (halts_search h hcentre hops maxSize)
    (halts_spread (by omega) (level_start centre))

/-- Whether a neighbourhood is too large depends on its size only. -/
theorem neighbourhood?_eq_within (h : g.WellFormed) (hops maxSize : Nat) :
    g.neighbourhood? centre hops maxSize
      = if g.hasNode centre ∧ (g.within .bidirectional centre hops).size ≤ max maxSize 1 then
          some (g.induced (g.within .bidirectional centre hops).contains)
        else none := by
  rw [neighbourhood?]
  by_cases hcentre : g.hasNode centre = true
  · rw [if_pos hcentre, explore_eq h hcentre]
    by_cases hsmall : (g.within .bidirectional centre hops).size ≤ max maxSize 1
    · rw [if_pos hsmall, if_pos ⟨hcentre, hsmall⟩, Option.map_some]
    · rw [if_neg hsmall, if_neg fun hboth => hsmall hboth.2, Option.map_none]
  · rw [if_neg hcentre, if_neg fun hboth => hcentre hboth.1]

end Neighbourhoods

end Flowprint.Flowgraph
