/-
  Flowprint.Graph.Shape
  ────────────────────────────────
  A 64-bit hash of the shape of a graph as seen from one block.

  Each edge is described by ten numbers, five per end: its distances from the block along, against
  and across the edges, and its degrees.  The numbers are mixed with three keys into one word per
  edge, and the words are added up, so that neither addresses nor the order of edges matter.
-/
import Flowprint.Graph.Distance

namespace Flowprint.Flowgraph

/-- The word that the sum over the edges starts from. -/
def shapeSeed : UInt64 := 0x0baddeed600ddeed

/-- The word that the mix of an edge starts from. -/
def edgeSeed : UInt64 := 0x600ddeed0baddeed

/-- The three keys of a hash. -/
structure ShapeKeys where
  k0 : UInt64
  k1 : UInt64
  k2 : UInt64
  deriving Repr, DecidableEq

/-- A word rotated left by seven places. -/
def rotate7 (x : UInt64) : UInt64 :=
  x <<< 7 ||| x >>> 57

/-- A distance as a word; no path is all ones. -/
def distanceWord : Option Nat → UInt64
  | some d => .ofNat d
  | none => 0xffffffffffffffff

/-- What a shape hash sees of a block. -/
structure Outlook where
  forward : UInt64
  backward : UInt64
  across : UInt64
  inDegree : UInt64
  outDegree : UInt64
  deriving Repr, DecidableEq

/-- One number mixed into a word. -/
def mix (word : UInt64) (term : UInt64 × UInt64) : UInt64 :=
  rotate7 (word + term.1 * term.2)

/-- The word of an edge. -/
def edgeWord (keys : ShapeKeys) (source target : Outlook) : UInt64 :=
  [ (keys.k0, source.forward), (keys.k1, source.backward), (keys.k2, source.across),
    (keys.k0, source.inDegree), (keys.k1, source.outDegree), (keys.k2, target.forward),
    (keys.k0, target.backward), (keys.k1, target.across), (keys.k2, target.inDegree),
    (keys.k0, target.outDegree) ].foldl mix edgeSeed

/-- What is seen of a block, given the blocks reached in each direction. -/
def outlook (g : Flowgraph) (forward backward across : Reached) (a : Address) : Outlook :=
  { forward := distanceWord forward[a]?
    backward := distanceWord backward[a]?
    across := distanceWord across[a]?
    inDegree := .ofNat (g.inDegree a)
    outDegree := .ofNat (g.outDegree a) }

/-- The hash of a graph's shape as seen from a block. -/
def shapeHash (g : Flowgraph) (start : Address) (keys : ShapeKeys) : UInt64 :=
  let reached (direction : Direction) := g.within direction start g.nodeCount
  let seen := g.outlook (reached .forward) (reached .backward) (reached .bidirectional)
  g.edges.foldl (fun sum edge => sum + edgeWord keys (seen edge.1) (seen edge.2)) shapeSeed

end Flowprint.Flowgraph
