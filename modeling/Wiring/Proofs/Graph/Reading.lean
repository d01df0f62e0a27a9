import Wiring.Graph.Dot
import Wiring.Proofs.Text.Reading

/-!
# A graph is read back from its text

Names and labels are arbitrary texts between quotes. A quoted text ends at the first quote that has no
backslash before it, so nothing in it can be taken for its end, and what stands between the quoted texts is
fixed. So the lines of the nodes and of the edges can be told from each other and from what follows them,
and the text says which nodes and edges there are.

* `Dot.quotedText`, `Dot.nodeLine`, `Dot.edgeLine`, `Dot.eachLine`: the parts of the reader, each with the
  lemma that it reads what is written.
* `Graph.content`: the nodes and edges with the texts of their types.
* `Dot.content?`: the reader; `Graph.content?_dot`: it reads every graph back.
* `Graph.dot_determines`: the text determines the graph.
-/

namespace Wiring

open Text

variable {α β : Type} {rest : List Char}

namespace Dot

/-! ## Quoted texts -/

/-- What stands before the first quote without a backslash, and what follows the quote. -/
def untilQuote : List Char → Option (List Char × List Char)
  | [] | ['\\'] => none
  | '"' :: s => some ([], s)
  | '\\' :: c :: s => (untilQuote s).map fun (text, rest) => (c :: text, rest)
  | c :: s => (untilQuote s).map fun (text, rest) => (c :: text, rest)

/-- The text between the quotes at the front, and what follows. -/
def quotedText : List Char → Option (String × List Char)
  | '"' :: s => (untilQuote s).map fun (text, rest) => (String.ofList text, rest)
  | _ => none

/-- **A text in quotes ends at its last quote**, whatever is in it and whatever follows. -/
theorem untilQuote_quotedChars (text rest : List Char) :
    untilQuote (text.flatMap quotedChar ++ '"' :: rest) = some (text, rest) := by
  induction text with
  | nil => rw [List.flatMap_nil, List.nil_append, untilQuote]
  | cons c text ih =>
    rw [List.flatMap_cons, quotedChar]
    split
    · -- the backslash says that the character after it is a part of the text
      rw [List.append_assoc, List.cons_append, List.singleton_append, untilQuote, ih, Option.map_some]
    · rename_i hplain
      simp only [Bool.or_eq_true, decide_eq_true_eq, not_or] at hplain
      rw [List.append_assoc, List.singleton_append, untilQuote, ih, Option.map_some]
      · exact fun hbackslash _ => hplain.2 hbackslash
      · exact hplain.1
      · exact fun _ _ hbackslash _ => hplain.2 hbackslash

theorem quotedText_quoted (text : String) (rest : List Char) :
    quotedText ((quoted text).toList ++ rest) = some (text, rest) := by
  have hquote : "\"".toList = ['"'] := rfl
  simp only [quoted, String.toList_append, String.toList_ofList, hquote, List.append_assoc,
    List.cons_append, List.nil_append]
  rw [quotedText, untilQuote_quotedChars, Option.map_some]
  simp only [String.ofList_toList]

/-! ## Lines -/

/-- The first of some values whose word is at the front, and what follows the word. -/
def firstWord (word : α → String) (values : List α) (s : List Char) : Option (α × List Char) :=
  values.findSome? fun a => (afterWord (word a).toList s).map (a, ·)

/-- The name of its colour tells the kind of a node, whatever follows. -/
theorem firstWord_color (kind : NodeKind) (rest : List Char) :
    firstWord NodeKind.color [.root, .instantiated, .deferred, .received]
      (kind.color.toList ++ rest) = some (kind, rest) := by
  cases kind <;> rfl

/-- How the line of an edge ends. -/
def edgeEnd (kind : EdgeKind) : String :=
  kind.style ++ "];\n"

theorem firstWord_edgeEnd (kind : EdgeKind) (rest : List Char) :
    firstWord edgeEnd [.instantiated, .deferred, .renamed] ((edgeEnd kind).toList ++ rest) =
      some (kind, rest) := by
  cases kind <;> rfl

/-- The name and the kind of the node in the first line, and what follows the line. -/
def nodeLine (s : List Char) : Option ((String × NodeKind) × List Char) := do
  let s ← afterWord "  ".toList s
  let (name, s) ← quotedText s
  let s ← afterWord " [label=".toList s
  let (_, s) ← quotedText s
  let s ← afterWord ", fillcolor=".toList s
  let (kind, s) ← firstWord NodeKind.color [.root, .instantiated, .deferred, .received] s
  let s ← afterWord ", style=filled];\n".toList s
  return ((name, kind), s)

/-- The names, the label and the kind of the edge in the first line, and what follows the line. -/
def edgeLine (s : List Char) : Option ((String × String × String × EdgeKind) × List Char) := do
  let s ← afterWord "  ".toList s
  let (source, s) ← quotedText s
  let s ← afterWord " -> ".toList s
  let (target, s) ← quotedText s
  let s ← afterWord " [label=".toList s
  let (label, s) ← quotedText s
  let (kind, s) ← firstWord edgeEnd [.instantiated, .deferred, .renamed] s
  return ((source, target, label, kind), s)

theorem nodeLine_dot (node : Node) (rest : List Char) :
    nodeLine (node.dot.toList ++ rest) = some ((node.type.source, node.kind), rest) := by
  simp only [Node.dot, String.toList_append, List.append_assoc, nodeLine, afterWord_append,
    quotedText_quoted, firstWord_color, Option.bind_eq_bind, Option.bind_some, pure]

theorem edgeLine_dot (edge : Edge) (rest : List Char) :
    edgeLine (edge.dot.toList ++ rest) =
      some ((edge.source.source, edge.target.source, edge.label, edge.kind), rest) := by
  have hend : edge.kind.style.toList ++ ("];\n".toList ++ rest) = (edgeEnd edge.kind).toList ++ rest := by
    rw [edgeEnd, String.toList_append, List.append_assoc]
  simp only [Edge.dot, String.toList_append, List.append_assoc, hend, edgeLine, afterWord_append,
    quotedText_quoted, firstWord_edgeEnd, Option.bind_eq_bind, Option.bind_some, pure]

/-- All lines at the front, up to the first that cannot be read, and what follows them. A line that leaves
no less than there was is not read either. -/
def eachLine (line : List Char → Option (α × List Char)) (s : List Char) : List α × List Char :=
  match line s with
  | none => ([], s)
  | some (a, rest) =>
    if rest.length < s.length then
      let (as, rest) := eachLine line rest
      (a :: as, rest)
    else ([], s)
termination_by s.length

/-- **Lines are read one after the other** if each of them is, and what follows them is none. -/
theorem eachLine_flatMap {line : List Char → Option (β × List Char)} {text : α → String}
    {value : α → β} (hline : ∀ a rest, line ((text a).toList ++ rest) = some (value a, rest))
    (htext : ∀ a, text a ≠ "") (hrest : line rest = none) (as : List α) :
    eachLine line ((String.join (as.map text)).toList ++ rest) = (as.map value, rest) := by
  induction as with
  | nil =>
    rw [List.map_nil, String.join_nil, List.map_nil, String.toList_empty, List.nil_append, eachLine]
    simp only [hrest]
  | cons a as ih =>
    have hshorter : ((String.join (as.map text)).toList ++ rest).length <
        ((text a).toList ++ ((String.join (as.map text)).toList ++ rest)).length := by
      have hlength := List.length_pos_iff.2 (mt String.toList_eq_nil_iff.1 (htext a))
      simp only [List.length_append]
      omega
    rw [List.map_cons, String.join_cons, String.toList_append, List.append_assoc, eachLine]
    simp only [hline, if_pos hshorter, ih, List.map_cons]

/-! ## Graphs -/

/-- The nodes and the edges of a graph, with the texts of their types. -/
structure Content where
  nodes : List (String × NodeKind)
  edges : List (String × String × String × EdgeKind)

/-- **What the text of a graph says**, if it is one. -/
def content? (text : String) : Option Content := do
  let s ← afterWord
    "digraph DependencyGraph \x7b\n  rankdir=LR;\n  node [shape=box, style=rounded];\n\n".toList
    text.toList
  let (nodes, s) := eachLine nodeLine s
  let s ← afterWord "\n".toList s
  let (edges, s) := eachLine edgeLine s
  if s = "\x7d\n".toList then some ⟨nodes, edges⟩ else none

end Dot

namespace Graph

/-- What the text of a graph is about: the types of nodes and edges are there as texts. -/
def content (graph : Graph) : Dot.Content where
  nodes := graph.nodes.map fun node => (node.type.source, node.kind)
  edges := graph.edges.map fun edge =>
    (edge.source.source, edge.target.source, edge.label, edge.kind)

/-- **Every graph is read back.** -/
theorem content?_dot (graph : Graph) : Dot.content? graph.dot = some graph.content := by
  -- neither the blank line after the nodes nor the last brace can be taken for one more line
  have hblank : ∀ rest, Dot.nodeLine ("\n".toList ++ rest) = none := fun _ => rfl
  have hend : Dot.edgeLine "\x7d\n".toList = none := rfl
  have hnode : ∀ node : Node, node.dot ≠ "" := by
    intro node h
    simpa [Node.dot] using congrArg String.toList h
  have hedge : ∀ edge : Edge, edge.dot ≠ "" := by
    intro edge h
    simpa [Edge.dot] using congrArg String.toList h
  have hnodes := fun rest =>
    Dot.eachLine_flatMap Dot.nodeLine_dot hnode (hblank rest) graph.nodes
  have hedges := Dot.eachLine_flatMap Dot.edgeLine_dot hedge hend graph.edges
  unfold dot Dot.content?
  simp only [String.toList_append, List.append_assoc, afterWord_append, hnodes, hedges,
    Option.bind_eq_bind, Option.bind_some, if_true]
  rfl

/-- **The text determines the graph.** Whatever the texts of the types and the labels are, a reader that
ends a quoted text at the first quote without a backslash finds the nodes and the edges in the text, each
with its kind and all of them in order. So two graphs with the same text have the same nodes and edges, as
far as types are told apart by their texts. -/
theorem dot_determines :
    (∀ graph : Graph, Dot.content? graph.dot = some graph.content) ∧
    ∀ graph other : Graph, graph.dot = other.dot →
      (graph.nodes.map fun node => (node.type.source, node.kind)) =
          other.nodes.map (fun node => (node.type.source, node.kind)) ∧
        (graph.edges.map fun edge =>
            (edge.source.source, edge.target.source, edge.label, edge.kind)) =
          other.edges.map fun edge =>
            (edge.source.source, edge.target.source, edge.label, edge.kind) := by
  refine ⟨content?_dot, fun graph other h => ?_⟩
  have hcontent : graph.content = other.content := by
    have hread := content?_dot graph
    rw [h, content?_dot other] at hread
    exact (Option.some.inj hread).symm
  exact ⟨congrArg Dot.Content.nodes hcontent, congrArg Dot.Content.edges hcontent⟩

end Graph

end Wiring
