import Wiring.Property

/-!
# Dependency graphs

A graph of concrete types, drawn by adding nodes and edges one after the other.

* `Graph.add`: one step of drawing.
* `Graph.statistics`: how many nodes and edges there are of each kind.
-/

namespace Wiring

/-- How a type came into the graph. -/
inductive NodeKind where
  | root
  /-- Built at once by its parent. -/
  | instantiated
  /-- Built on demand. -/
  | deferred
  /-- Known from an alias only, and built elsewhere. -/
  | received
deriving DecidableEq

/-- How a type gets hold of another. -/
inductive EdgeKind where
  | instantiated
  | deferred
  | renamed
deriving DecidableEq

/-- A type in the graph. -/
structure Node where
  type : TypeExpr
  kind : NodeKind
deriving DecidableEq

/-- A labelled edge from a type to one that it depends on. -/
structure Edge where
  source : TypeExpr
  target : TypeExpr
  label : String
  kind : EdgeKind
deriving DecidableEq

/-- A graph, with nodes and edges in the order in which they came in. -/
structure Graph where
  nodes : List Node
  edges : List Edge

namespace Graph

/-- The graph without nodes. -/
def empty : Graph :=
  ⟨[], []⟩

/-- A step of drawing. -/
inductive Step where
  | node (type : TypeExpr) (kind : NodeKind)
  | edge (edge : Edge)

/-- The nodes with one more type. A type that is there keeps its kind, unless it is known from an alias
only. -/
def withNode (type : TypeExpr) (kind : NodeKind) : List Node → List Node
  | [] => [⟨type, kind⟩]
  | node :: nodes =>
    if node.type = type then
      (if node.kind = .received then ⟨type, kind⟩ else node) :: nodes
    else node :: withNode type kind nodes

/-- **One step of drawing.** An edge that is there already is not added again. -/
def add (graph : Graph) : Step → Graph
  | .node type kind => ⟨withNode type kind graph.nodes, graph.edges⟩
  | .edge edge => if edge ∈ graph.edges then graph else ⟨graph.nodes, graph.edges ++ [edge]⟩

/-- The graph after some steps of drawing. -/
def addAll (graph : Graph) (steps : List Step) : Graph :=
  steps.foldl add graph

/-- Numbers of nodes and edges. -/
structure Statistics where
  nodes : Nat
  edges : Nat
  roots : Nat
  instantiated : Nat
  deferred : Nat
  received : Nat
  deferredEdges : Nat
  renamedEdges : Nat
deriving DecidableEq

/-- How many nodes and edges there are, of each kind. -/
def statistics (graph : Graph) : Statistics :=
  let nodesOf (kind : NodeKind) := graph.nodes.countP (·.kind = kind)
  let edgesOf (kind : EdgeKind) := graph.edges.countP (·.kind = kind)
  { nodes := graph.nodes.length
    edges := graph.edges.length
    roots := nodesOf .root
    instantiated := nodesOf .instantiated
    deferred := nodesOf .deferred
    received := nodesOf .received
    deferredEdges := edgesOf .deferred
    renamedEdges := edgesOf .renamed }

end Graph

end Wiring
