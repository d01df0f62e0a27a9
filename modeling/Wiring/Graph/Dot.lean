import Wiring.Graph.Basic

/-!
# Graphs in DOT

Nodes first, then edges, one on each line. Names and labels are quoted: a quote and a backslash have a
backslash before them, and everything else, a line feed included, stands as it is.

* `Graph.dot`: the text of a graph.
-/

namespace Wiring

namespace Dot

/-- How a character is written inside quotes. -/
def quotedChar (c : Char) : List Char :=
  if c = '"' || c = '\\' then ['\\', c] else [c]

/-- A text between quotes. -/
def quoted (text : String) : String :=
  "\"" ++ String.ofList (text.toList.flatMap quotedChar) ++ "\""

end Dot

namespace NodeKind

/-- The colour in which a node is filled. -/
def color : NodeKind → String
  | .root => "lightblue"
  | .instantiated => "lightgreen"
  | .deferred => "lightyellow"
  | .received => "white"

end NodeKind

namespace EdgeKind

/-- What is said about the line of an edge. -/
def style : EdgeKind → String
  | .instantiated => ""
  | .deferred => ", style=dashed"
  | .renamed => ", style=dotted"

end EdgeKind

/-- The line of a node. -/
def Node.dot (node : Node) : String :=
  let name := Dot.quoted node.type.source
  "  " ++ name ++ " [label=" ++ name ++ ", fillcolor=" ++ node.kind.color ++ ", style=filled];\n"

/-- The line of an edge. -/
def Edge.dot (edge : Edge) : String :=
  "  " ++ Dot.quoted edge.source.source ++ " -> " ++ Dot.quoted edge.target.source ++ " [label=" ++
    Dot.quoted edge.label ++ edge.kind.style ++ "];\n"

/-- **The text of a graph in DOT.** -/
def Graph.dot (graph : Graph) : String :=
  "digraph DependencyGraph \x7b\n  rankdir=LR;\n  node [shape=box, style=rounded];\n\n" ++
    String.join (graph.nodes.map Node.dot) ++ "\n" ++ String.join (graph.edges.map Edge.dot) ++
    "\x7d\n"

end Wiring
