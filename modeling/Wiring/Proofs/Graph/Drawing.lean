import Mathlib.Data.List.Induction
import Mathlib.Data.List.Permutation
import Wiring.Graph.Basic
import Wiring.Proofs.Sorted

/-!
# What has been drawn

A graph is drawn step by step, and each step is kept only if it brings something new. So the graph that
comes of some steps can be read off the steps: its types and its edges are those of the steps, without
repeats and in the order in which they came up first, and of the kinds in which a type came up the first
that says more than an alias stays.

* `Graph.kindOf`: the kind in which a type stays.
* `Graph.addAll_empty`: what has been drawn after some steps; `addAll_concat` is one step more.
* `Graph.statistics_nodes`, `Graph.statistics_edges`: how the numbers of a graph go together.
-/

namespace Wiring

namespace Graph

/-! ## Reading a step -/

/-- The type that a step draws. -/
def Step.type? : Step → Option TypeExpr
  | .node type _ => some type
  | .edge _ => none

/-- The edge that a step draws. -/
def Step.edge? : Step → Option Edge
  | .node _ _ => none
  | .edge drawn => some drawn

/-- The kind in which a step draws a type. -/
def Step.kind? (type : TypeExpr) : Step → Option NodeKind
  | .node drawn kind => if drawn = type then some kind else none
  | .edge _ => none

/-- **The kind of a type after some steps**: the first one that says more than that the type is known
from an alias. -/
def kindOf (steps : List Step) (type : TypeExpr) : NodeKind :=
  ((steps.filterMap (Step.kind? type)).find? (· ≠ .received)).getD .received

variable {steps : List Step} {type drawn : TypeExpr} {kind : NodeKind} {edge : Edge}

theorem mem_types : type ∈ steps.filterMap Step.type? ↔ ∃ kind, .node type kind ∈ steps := by
  rw [List.mem_filterMap]
  constructor
  · rintro ⟨step, hstep, htype⟩
    cases step with
    | node drawn kind =>
      cases htype
      exact ⟨kind, hstep⟩
    | edge edge => cases htype
  · rintro ⟨kind, hstep⟩
    exact ⟨_, hstep, rfl⟩

theorem mem_edges : edge ∈ steps.filterMap Step.edge? ↔ .edge edge ∈ steps := by
  rw [List.mem_filterMap]
  constructor
  · rintro ⟨step, hstep, hedge⟩
    cases step with
    | node drawn kind => cases hedge
    | edge drawn =>
      cases hedge
      exact hstep
  · intro hstep
    exact ⟨_, hstep, rfl⟩

/-! ## The kind of a type -/

/-- A type that is not drawn has no kind that would have to stay. -/
theorem kindOf_of_not_mem (h : type ∉ steps.filterMap Step.type?) : kindOf steps type = .received := by
  have hnone : steps.filterMap (Step.kind? type) = [] := by
    refine List.filterMap_eq_nil_iff.2 fun step hstep => ?_
    cases step with
    | node drawn kind =>
      have hdrawn : drawn ≠ type := by
        rintro rfl
        exact h (mem_types.2 ⟨kind, hstep⟩)
      exact if_neg hdrawn
    | edge edge => rfl
  rw [kindOf, hnone]
  rfl

/-- A type that is drawn once more keeps its kind, unless it is known from an alias only. -/
theorem kindOf_concat_node :
    kindOf (steps ++ [.node type kind]) type =
      if kindOf steps type = .received then kind else kindOf steps type := by
  have hkind : Step.kind? type (.node type kind) = some kind := if_pos rfl
  unfold kindOf
  rw [List.filterMap_append, List.filterMap_cons_some hkind, List.filterMap_nil, List.find?_append]
  cases hfind : (steps.filterMap (Step.kind? type)).find? (· ≠ .received) with
  | some known =>
    have hknown : known ≠ .received := by simpa using List.find?_some hfind
    exact (if_neg hknown).symm
  | none => cases kind <;> rfl

theorem kindOf_concat_of_ne (h : drawn ≠ type) :
    kindOf (steps ++ [.node drawn kind]) type = kindOf steps type := by
  have hkind : Step.kind? type (.node drawn kind) = none := if_neg h
  unfold kindOf
  rw [List.filterMap_append, List.filterMap_cons_none hkind, List.filterMap_nil, List.append_nil]

theorem kindOf_concat_edge : kindOf (steps ++ [.edge edge]) type = kindOf steps type := by
  have hkind : Step.kind? type (.edge edge) = none := rfl
  unfold kindOf
  rw [List.filterMap_append, List.filterMap_cons_none hkind, List.filterMap_nil, List.append_nil]

/-! ## The nodes and the edges -/

/-- Drawing a type changes at most the kind of that type, and adds it if it is new. -/
theorem withNode_map {before after : TypeExpr → NodeKind}
    (htype : after type = if before type = .received then kind else before type)
    (hothers : ∀ other, other ≠ type → after other = before other) :
    ∀ {types : List TypeExpr}, types.Nodup → (type ∉ types → before type = .received) →
      withNode type kind (types.map fun t => ⟨t, before t⟩) =
        (if type ∈ types then types else types ++ [type]).map fun t => ⟨t, after t⟩
  | [], _, hnew => by
    have hafter : after type = kind := by rw [htype, if_pos (hnew List.not_mem_nil)]
    simp [withNode, hafter]
  | first :: types, hnodup, hnew => by
    obtain ⟨hfirst, hnodup⟩ := List.nodup_cons.1 hnodup
    by_cases hsame : first = type
    · -- the type is there, and none of the later ones is it
      subst hsame
      have hlater : types.map (fun t => (⟨t, before t⟩ : Node)) =
          types.map fun t => (⟨t, after t⟩ : Node) := by
        refine List.map_congr_left fun t ht => ?_
        rw [hothers t (ne_of_mem_of_not_mem ht hfirst)]
      simp only [List.map_cons, withNode, if_true, List.mem_cons_self, htype, hlater]
      split <;> rfl
    · have ih := withNode_map htype hothers hnodup fun h =>
        hnew (List.not_mem_cons_of_ne_of_not_mem (Ne.symm hsame) h)
      have hmem : type ∈ first :: types ↔ type ∈ types := by simp [Ne.symm hsame]
      simp only [List.map_cons, withNode, if_neg hsame, ih, hmem, ← hothers first hsame]
      split <;> rfl

theorem addAll_concat (graph : Graph) (steps : List Step) (step : Step) :
    graph.addAll (steps ++ [step]) = (graph.addAll steps).add step :=
  List.foldl_concat ..

/-- **What has been drawn** after some steps: their types and their edges without repeats, in the order
in which they came up first, and each type in its kind. -/
theorem addAll_empty (steps : List Step) :
    empty.addAll steps =
      ⟨(steps.filterMap Step.type?).eraseDups.map fun t => ⟨t, kindOf steps t⟩,
        (steps.filterMap Step.edge?).eraseDups⟩ := by
  induction steps using List.reverseRecOn with
  | nil => rfl
  | append_singleton steps step ih =>
    rw [addAll_concat, ih]
    cases step with
    | node type kind =>
      have hkind : kindOf (steps ++ [.node type kind]) type =
          if kindOf steps type = .received then kind else kindOf steps type := kindOf_concat_node
      have hnodes := withNode_map hkind (fun other hother => kindOf_concat_of_ne (Ne.symm hother))
        (nodup_eraseDups (steps.filterMap Step.type?))
        (fun h => kindOf_of_not_mem fun hmem => h (List.mem_eraseDups.2 hmem))
      have htypes : Step.type? (.node type kind) = some type := rfl
      have hedges : Step.edge? (.node type kind) = none := rfl
      simp only [add, List.filterMap_append, List.filterMap_cons_some htypes,
        List.filterMap_cons_none hedges, List.filterMap_nil, List.append_nil, eraseDups_concat, hnodes,
        List.mem_eraseDups]
    | edge edge =>
      have htypes : Step.type? (.edge edge) = none := rfl
      have hedges : Step.edge? (.edge edge) = some edge := rfl
      simp only [add, List.filterMap_append, List.filterMap_cons_none htypes,
        List.filterMap_cons_some hedges, List.filterMap_nil, List.append_nil, eraseDups_concat,
        kindOf_concat_edge, List.mem_eraseDups]
      split <;> rfl

/-! ## The numbers of a graph -/

/-- Every node is of one of the four kinds. -/
theorem statistics_nodes (graph : Graph) :
    graph.statistics.roots + graph.statistics.instantiated + graph.statistics.deferred +
      graph.statistics.received = graph.statistics.nodes := by
  obtain ⟨nodes, edges⟩ := graph
  simp only [statistics]
  induction nodes with
  | nil => rfl
  | cons node nodes ih =>
    simp only [List.countP_cons, List.length_cons]
    cases node.kind <;> simp <;> omega

/-- No edge is of two kinds. -/
theorem statistics_edges (graph : Graph) :
    graph.statistics.deferredEdges + graph.statistics.renamedEdges ≤ graph.statistics.edges := by
  obtain ⟨nodes, edges⟩ := graph
  simp only [statistics]
  induction edges with
  | nil => exact Nat.le_refl _
  | cons edge edges ih =>
    simp only [List.countP_cons, List.length_cons]
    cases edge.kind <;> simp <;> omega

end Graph

end Wiring
