/-
  Flowprint.Graph.Distance
  ────────────────────────────────
  Distances in hops: how many edges a shortest path takes, along the edges, against them, or
  ignoring their direction.

  The search goes level by level.  Each round takes the blocks found in the round before, collects
  the neighbours not found yet, and notes them one hop further away; after as many rounds as the
  graph has blocks nothing new can turn up.

  Main statements:

      spread_nil            without new blocks further rounds change nothing
      distances_nodes       there is one distance per block, in order
-/
import Flowprint.Graph.Basic

namespace Flowprint

open Std

/-- Which edges a path may take. -/
inductive Direction where
  | forward
  | backward
  | bidirectional
  deriving Repr, DecidableEq

namespace Flowgraph

/-- The blocks one hop away. -/
def neighbours (g : Flowgraph) : Direction → Address → List Address
  | .forward, a => g.successors a
  | .backward, a => g.predecessors a
  | .bidirectional, a => g.successors a ++ g.predecessors a

/-- The blocks found so far with their distances. -/
abbrev Reached := ExtTreeMap Address Nat

/-- Note blocks that are not found yet at a distance; gives these blocks and the finds. -/
def discover (distance : Nat) : List Address → Reached → List Address × Reached
  | [], reached => ([], reached)
  | a :: rest, reached =>
    if reached.contains a then discover distance rest reached
    else
      let (fresh, reached) := discover distance rest (reached.insert a distance)
      (a :: fresh, reached)

/-- Search on for a number of rounds from the blocks of the last round, which are `distance` hops
away. -/
def spread (next : Address → List Address) : Nat → Nat → List Address → Reached → Reached
  | 0, _, _, reached => reached
  | rounds + 1, distance, frontier, reached =>
    let (fresh, reached) := discover (distance + 1) (frontier.flatMap next) reached
    spread next rounds (distance + 1) fresh reached

/-- The blocks within a number of hops of a block, with their distances. -/
def within (g : Flowgraph) (direction : Direction) (start : Address) (hops : Nat) : Reached :=
  if g.hasNode start then
    spread (g.neighbours direction) (min hops g.nodeCount) 0 [start]
      ((∅ : Reached).insert start 0)
  else ∅

/-- The distance of every block from a block, ascending; none if there is no path. -/
def distances (g : Flowgraph) (start : Address) (direction : Direction) :
    List (Address × Option Nat) :=
  let reached := g.within direction start g.nodeCount
  g.nodes.map fun a => (a, reached[a]?)

theorem spread_nil (next : Address → List Address) (rounds distance : Nat) (reached : Reached) :
    spread next rounds distance [] reached = reached := by
  induction rounds generalizing distance with
  | zero => rfl
  | succ rounds ih => simpa [spread, discover] using ih (distance + 1)

/-- There is one distance per block, in the order of the blocks. -/
theorem distances_nodes (g : Flowgraph) (start : Address) (direction : Direction) :
    (g.distances start direction).map Prod.fst = g.nodes := by
  simp [distances, Function.comp_def]

end Flowgraph

end Flowprint
