/-
  Flowprint.Graph.Document
  ────────────────────────────────
  Graphs as documents for exchange with the tools that produce them.

  A document lists blocks with their instructions and edges with their ends.  It may say more than a
  graph holds: blocks and edges may be repeated, and edges may name blocks that are not listed.
  Making a graph of it adds the listed blocks, then the edges, then the instructions, the last list
  of a block counting.

  Main definitions:

      Document.toGraph      the graph that a document describes
      Flowgraph.document    the document of a graph
      Document.parse        the document that a text holds
-/
import Flowprint.Graph.Basic
import Flowprint.Json.Shape
import Flowprint.Json.Value

namespace Flowprint

/-- A block with its instructions. -/
structure BlockEntry where
  address : Address
  instructions : List Instruction
  deriving Repr, DecidableEq

/-- An edge. -/
structure EdgeEntry where
  source : Address
  target : Address
  deriving Repr, DecidableEq

/-- A document that describes a graph. -/
structure Document where
  name : Option String
  blocks : List BlockEntry
  edges : List EdgeEntry
  deriving Repr, DecidableEq

/-! ## §1. Documents and graphs. -/

namespace Document

/-- The graph with the listed blocks. -/
def addBlocks (blocks : List BlockEntry) (g : Flowgraph) : Flowgraph :=
  blocks.foldl (fun g block => g.withNode block.address) g

/-- The graph with the listed edges, unless one is refused. -/
def addEdges : List EdgeEntry → Flowgraph → Except UnknownNode Flowgraph
  | [], g => .ok g
  | edge :: rest, g =>
    match g.addEdge edge.source edge.target with
    | .ok (_, g) => addEdges rest g
    | .error unknown => .error unknown

/-- The graph with the instructions of the listed blocks, a later list replacing an earlier one. -/
def setCode : List BlockEntry → Flowgraph → Except UnknownNode Flowgraph
  | [], g => .ok g
  | block :: rest, g =>
    match g.setInstructions block.address block.instructions with
    | .ok g => setCode rest g
    | .error unknown => .error unknown

/-- The graph that a document describes. -/
def toGraph (doc : Document) (policy : EdgePolicy) : Except UnknownNode Flowgraph :=
  match addEdges doc.edges (addBlocks doc.blocks (.empty policy)) with
  | .ok g => setCode doc.blocks g
  | .error unknown => .error unknown

end Document

/-- The document of a graph. -/
def Flowgraph.document (g : Flowgraph) : Document :=
  { name := some "CFG"
    blocks := g.nodes.map fun a => ⟨a, g.instructions a⟩
    edges := g.edges.map fun (source, target) => ⟨source, target⟩ }

/-! ## §2. Written form. -/

/-- An instruction as a document. -/
def Instruction.toJson (insn : Instruction) : Json.Value :=
  .object [("mnemonic", .text insn.mnemonic), ("operands", .list (insn.operands.map .text))]

/-- A block as a document. -/
def BlockEntry.toJson (block : BlockEntry) : Json.Value :=
  .object [("address", .nat block.address.toNat),
    ("instructions", .list (block.instructions.map Instruction.toJson))]

/-- An edge as a document. -/
def EdgeEntry.toJson (edge : EdgeEntry) : Json.Value :=
  .object [("source", .nat edge.source.toNat), ("destination", .nat edge.target.toNat)]

/-- A document; a name that is absent is left out. -/
def Document.toJson (doc : Document) : Json.Value :=
  .object ((doc.name.map fun name => ("name", .text name)).toList ++
    [("nodes", .list (doc.blocks.map BlockEntry.toJson)),
      ("edges", .list (doc.edges.map EdgeEntry.toJson))])

/-- A graph as a text without blanks. -/
def Flowgraph.toText (g : Flowgraph) : String :=
  g.document.toJson.compact

/-- A graph as a text with one item per line. -/
def Flowgraph.toPrettyText (g : Flowgraph) : String :=
  g.document.toJson.pretty

/-! ## §3. Reading. -/

namespace Document

/-- An instruction of a document, whose operands may be left out. -/
def instruction : Json.Scanner Instruction :=
  (Json.record "InstructionJson"
    (.cons (.required "mnemonic" Json.text)
      (.cons (.withDefault "operands" (Json.list Json.text) []) .nil))).map
    fun (mnemonic, operands, ()) => ⟨mnemonic, operands⟩

/-- A block of a document, whose instructions may be left out. -/
def block : Json.Scanner BlockEntry :=
  (Json.record "NodeJson"
    (.cons (.required "address" Json.word64)
      (.cons (.withDefault "instructions" (Json.list instruction) []) .nil))).map
    fun (address, instructions, ()) => ⟨address, instructions⟩

/-- An edge of a document. -/
def edge : Json.Scanner EdgeEntry :=
  (Json.record "EdgeJson"
    (.cons (.required "source" Json.word64)
      (.cons (.required "destination" Json.word64) .nil))).map
    fun (source, target, ()) => ⟨source, target⟩

/-- A document, any part of which may be left out. -/
def document : Json.Scanner Document :=
  (Json.record "FlowgraphJson"
    (.cons (.withDefault "name" (Json.optional Json.text) none)
      (.cons (.withDefault "nodes" (Json.list block) [])
        (.cons (.withDefault "edges" (Json.list edge) []) .nil)))).map
    fun (name, blocks, edges, ()) => ⟨name, blocks, edges⟩

/-- The document that a text holds. -/
def parse (s : String) : Except Json.Fault Document :=
  Json.parse document s

end Document

/-- An instruction on its own, all of whose parts must be there. -/
def Instruction.scanner : Json.Scanner Instruction :=
  (Json.record "Instruction"
    (.cons (.required "mnemonic" Json.text)
      (.cons (.required "operands" (Json.list Json.text)) .nil))).map
    fun (mnemonic, operands, ()) => ⟨mnemonic, operands⟩

/-- Why a text gives no graph. -/
inductive GraphFault where
  /-- It is no document. -/
  | unreadable (cause : Json.Fault)
  /-- It names a block that it does not list, and the policy is strict. -/
  | unknownNode (cause : UnknownNode)
  deriving Repr

/-- The graph that a text describes. -/
def Flowgraph.parse (s : String) (policy : EdgePolicy) : Except GraphFault Flowgraph :=
  match Document.parse s with
  | .error fault => .error (.unreadable fault)
  | .ok doc =>
    match doc.toGraph policy with
    | .ok g => .ok g
    | .error unknown => .error (.unknownNode unknown)

end Flowprint
