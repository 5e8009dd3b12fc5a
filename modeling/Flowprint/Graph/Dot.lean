/-
  Flowprint.Graph.Dot
  ────────────────────────────────
  Graphs as drawings for a graph layout tool: one line per edge, blocks named by their addresses in
  hexadecimal.
-/
import Flowprint.Graph.Basic

namespace Flowprint.Flowgraph

/-- The name of a block in a drawing. -/
def blockName (a : Address) : String :=
  "blk_" ++ Text.Radix.hex a.toNat

/-- A graph as a drawing. -/
def toDot (g : Flowgraph) : String :=
  let lines := g.edges.map fun (source, target) =>
    s!"\t{blockName source} -> {blockName target};\n"
  "digraph G \x7b\n" ++ String.join lines ++ "\x7d\n"

end Flowprint.Flowgraph
