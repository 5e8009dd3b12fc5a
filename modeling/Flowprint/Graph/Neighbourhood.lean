/-
  Flowprint.Graph.Neighbourhood
  ────────────────────────────────
  The part of a graph around a block: the blocks within a number of hops, whatever the direction of
  the edges, and all edges between them.

  The search takes the blocks one by one from a queue.  It gives up as soon as it has marked more
  blocks than the neighbourhood may have.  As no block gets into the queue twice, the queue is empty
  after as many turns as the graph has blocks.

  Main statements:

      hasNode_induced       an induced part has the kept blocks of the graph
-/
import Flowprint.Graph.Distance

namespace Flowprint.Flowgraph

open Std

/-- A map of edges without the blocks that are not kept. -/
def keepEdges (keep : Address → Bool) (map : ExtTreeMap Address (ExtTreeSet Address)) :
    ExtTreeMap Address (ExtTreeSet Address) :=
  (map.filter fun a _ => keep a).map fun _ ends => ends.filter keep

/-- The kept blocks and the edges between them, without instructions. -/
def induced (g : Flowgraph) (keep : Address → Bool) : Flowgraph :=
  { outgoing := keepEdges keep g.outgoing
    incoming := keepEdges keep g.incoming }

/-- Mark blocks that are not marked yet with a distance, and append them to the queue; none as soon as
more than `maxSize` blocks are marked. -/
def enqueue (maxSize distance : Nat) :
    List Address → List Address → Reached → Option (List Address × Reached)
  | [], queue, reached => some (queue, reached)
  | a :: rest, queue, reached =>
    if reached.contains a then enqueue maxSize distance rest queue reached
    else if maxSize < (reached.insert a distance).size then none
    else enqueue maxSize distance rest (queue ++ [a]) (reached.insert a distance)

/-- Search on from the blocks of a queue for a number of turns.  In each the first block of the queue
goes, and its neighbours are marked unless they are too far. -/
def explore (next : Address → List Address) (hops maxSize : Nat) :
    Nat → List Address → Reached → Option Reached
  | turns + 1, a :: queue, reached =>
    if hops ≤ reached.getD a 0 then explore next hops maxSize turns queue reached
    else
      match enqueue maxSize (reached.getD a 0 + 1) (next a) queue reached with
      | some (queue, reached) => explore next hops maxSize turns queue reached
      | none => none
  | _, _, reached => some reached

/-- The neighbourhood of a block, if the block is there and the neighbourhood has no more than
`maxSize` blocks; the block alone is never too much. -/
def neighbourhood? (g : Flowgraph) (centre : Address) (hops maxSize : Nat) : Option Flowgraph :=
  if g.hasNode centre then
    (explore (g.neighbours .bidirectional) hops maxSize g.nodeCount [centre]
      ((∅ : Reached).insert centre 0)).map fun reached => g.induced reached.contains
  else none

/-- An induced part has the kept blocks of the graph. -/
theorem hasNode_induced (g : Flowgraph) (keep : Address → Bool) (a : Address) :
    (g.induced keep).hasNode a = (g.hasNode a && keep a) := by
  simp only [hasNode, induced, keepEdges, ExtTreeMap.contains_map]
  rw [Bool.eq_iff_iff]
  simp only [ExtTreeMap.contains_iff_mem, ExtTreeMap.mem_filter, Bool.and_eq_true]
  simp

end Flowprint.Flowgraph
