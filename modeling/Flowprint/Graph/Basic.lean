/-
  Flowprint.Graph.Basic
  ────────────────────────────────
  Control-flow graphs: blocks named by their addresses, edges between them, and the instructions
  of each block.

  Edges are kept in both directions, so that the blocks before and behind a block are one look-up
  away.  Under the strict policy an edge may only join blocks that are there; otherwise an edge
  brings its ends with it.

  Main statements:

      hasNode_addNode          what `addNode` adds is there, and nothing else comes or goes
-/
import Flowprint.Text.Radix
import Std.Data.ExtTreeMap
import Std.Data.ExtTreeSet

namespace Flowprint

open Std

/-- The address of a block. -/
abbrev Address := UInt64

/-- An instruction: a mnemonic and its operands as text. -/
structure Instruction where
  mnemonic : String
  operands : List String
  deriving Repr, DecidableEq

/-- An instruction as a line of a listing. -/
def Instruction.text (insn : Instruction) : String :=
  if insn.operands.isEmpty then insn.mnemonic
  else insn.mnemonic ++ " " ++ ", ".intercalate insn.operands

/-- What happens when an edge names a block that is not there. -/
inductive EdgePolicy where
  /-- The block is created. -/
  | autoCreate
  /-- The edge is refused. -/
  | strict
  deriving Repr, DecidableEq

/-- A control-flow graph. -/
structure Flowgraph where
  /-- The blocks, each with the blocks that follow it. -/
  outgoing : ExtTreeMap Address (ExtTreeSet Address) := ∅
  /-- The blocks, each with the blocks that it follows. -/
  incoming : ExtTreeMap Address (ExtTreeSet Address) := ∅
  /-- The instructions of the blocks that have any. -/
  code : ExtTreeMap Address (List Instruction) := ∅
  policy : EdgePolicy := .autoCreate
  deriving DecidableEq

/-- A block that is not in the graph. -/
structure UnknownNode where
  address : Address
  deriving Repr, DecidableEq

/-- The sentence that names a missing block. -/
def UnknownNode.message (unknown : UnknownNode) : String :=
  s!"Unknown node 0x{Text.Radix.hex unknown.address.toNat}"

namespace Flowgraph

/-! ## §1. Views. -/

/-- A graph without blocks. -/
def empty (policy : EdgePolicy) : Flowgraph :=
  { policy := policy }

/-- Whether a block is in the graph. -/
def hasNode (g : Flowgraph) (a : Address) : Bool :=
  g.outgoing.contains a

/-- The blocks in ascending order. -/
def nodes (g : Flowgraph) : List Address :=
  g.outgoing.keys

/-- The number of blocks. -/
def nodeCount (g : Flowgraph) : Nat :=
  g.outgoing.size

/-- The blocks that follow a block, ascending. -/
def successors (g : Flowgraph) (a : Address) : List Address :=
  (g.outgoing.getD a ∅).toList

/-- The blocks that a block follows, ascending. -/
def predecessors (g : Flowgraph) (a : Address) : List Address :=
  (g.incoming.getD a ∅).toList

/-- The number of blocks that follow a block. -/
def outDegree (g : Flowgraph) (a : Address) : Nat :=
  (g.outgoing.getD a ∅).size

/-- The number of blocks that a block follows. -/
def inDegree (g : Flowgraph) (a : Address) : Nat :=
  (g.incoming.getD a ∅).size

/-- The edges in ascending order of source and target. -/
def edges (g : Flowgraph) : List (Address × Address) :=
  g.nodes.flatMap fun source => (g.successors source).map fun target => (source, target)

/-- The number of edges. -/
def edgeCount (g : Flowgraph) : Nat :=
  g.nodes.foldr (fun a count => g.outDegree a + count) 0

/-- The instructions of a block. -/
def instructions (g : Flowgraph) (a : Address) : List Instruction :=
  g.code.getD a []

/-- The blocks with instructions, ascending. -/
def blocks (g : Flowgraph) : List (Address × List Instruction) :=
  g.code.toList

/-- The number of blocks that at least two blocks follow. -/
def branchingCount (g : Flowgraph) : Nat :=
  g.nodes.countP fun a => 2 ≤ g.outDegree a

/-- The block at the lowest address. -/
def lowest? (g : Flowgraph) : Option Address :=
  g.nodes.head?

/-- The address of a function: the one given, or else that of its lowest block. -/
def entry? (g : Flowgraph) (explicit : Option Address) : Option Address :=
  explicit.or g.lowest?

/-! ## §2. Changes. -/

/-- The graph with a block. -/
def withNode (g : Flowgraph) (a : Address) : Flowgraph :=
  { g with
    outgoing := g.outgoing.insertIfNew a ∅
    incoming := g.incoming.insertIfNew a ∅ }

/-- Add a block; tells whether it is new. -/
def addNode (g : Flowgraph) (a : Address) : Bool × Flowgraph :=
  (! g.hasNode a, g.withNode a)

/-- One more member in the set at a key. -/
def linked (map : ExtTreeMap Address (ExtTreeSet Address)) (key member : Address) :
    ExtTreeMap Address (ExtTreeSet Address) :=
  map.insert key ((map.getD key ∅).insert member)

/-- The graph with an edge between blocks that are there. -/
def withEdge (g : Flowgraph) (source target : Address) : Flowgraph :=
  { g with
    outgoing := linked g.outgoing source target
    incoming := linked g.incoming target source }

/-- The ends of an edge that a strict graph does not know. -/
def missingEnds (g : Flowgraph) (source target : Address) : List Address :=
  match g.policy with
  | .autoCreate => []
  | .strict => [source, target].filter (! g.hasNode ·)

/-- Add an edge; tells whether it is new. -/
def addEdge (g : Flowgraph) (source target : Address) :
    Except UnknownNode (Bool × Flowgraph) :=
  match g.missingEnds source target with
  | missing :: _ => .error ⟨missing⟩
  | [] =>
    let ready := (g.withNode source).withNode target
    let isNew := ! (ready.outgoing.getD source ∅).contains target
    .ok (isNew, ready.withEdge source target)

/-- Replace the instructions of a block. -/
def setInstructions (g : Flowgraph) (a : Address) (insns : List Instruction) :
    Except UnknownNode Flowgraph :=
  if g.hasNode a then
    .ok { g with code := if insns.isEmpty then g.code.erase a else g.code.insert a insns }
  else .error ⟨a⟩

/-! ## §3. Laws of the changes. -/

/-- A block is there after adding one if it is that block or was there before. -/
theorem hasNode_addNode (g : Flowgraph) (a b : Address) :
    (g.addNode a).2.hasNode b = (a == b || g.hasNode b) := by
  rw [Bool.eq_iff_iff]
  simp [addNode, withNode, hasNode, ExtTreeMap.contains_insertIfNew]

end Flowgraph

end Flowprint
