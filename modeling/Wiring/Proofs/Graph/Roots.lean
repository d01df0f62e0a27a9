import Wiring.Proofs.Emission.Calls
import Wiring.Proofs.Graph.Walk
import Wiring.Proofs.Program
import Wiring.Proofs.Registration

/-!
# Which roots are drawn as roots

A type keeps the first kind in which it is drawn as more than an alias. The steps of a root begin with its
own type, and no other root has this type; so all that can come before is what the earlier roots build. If
one of them builds the type, at once or on demand, the node stays what it is there; if none of them does,
it is a root's. Aliases do not matter, and neither do the roots that come later.

* `Graph.knownKind?`: the kind that some steps give to a type; `knownKind?_steps`, `knownKind?_stepsAll`:
  the steps of a declaration give those in which it and everything below it are built.
* `kindBelow?`: the kind in which some roots build a type first.
* `Graph.mem_nodes_ofRoots_iff`: the node of a root.
* `Registry.roots_drawn`: the nodes of all roots of a registry, and their number.
-/

namespace Wiring

variable {registry : Registry} {limit : Nat} {g : RootEmission} {gs earlier later : List RootEmission}
  {type : TypeExpr} {kind : NodeKind}

/-! ## Kinds that steps give to a type -/

namespace Graph

variable {steps after : List Step} {edge : Edge} {drawn : TypeExpr}

/-- The first kind in which some steps draw a type as more than an alias. -/
def knownKind? (type : TypeExpr) (steps : List Step) : Option NodeKind :=
  (steps.filterMap (Step.kind? type)).find? (· ≠ .received)

theorem kindOf_eq_getD : kindOf steps type = (knownKind? type steps).getD .received :=
  rfl

theorem knownKind?_append :
    knownKind? type (steps ++ after) = (knownKind? type steps).or (knownKind? type after) := by
  rw [knownKind?, List.filterMap_append, List.find?_append]
  rfl

theorem knownKind?_node (hkind : kind ≠ .received) :
    knownKind? type (.node drawn kind :: steps) =
      if drawn = type then some kind else knownKind? type steps := by
  unfold knownKind?
  split
  · rename_i hsame
    have hdrawn : Step.kind? type (.node drawn kind) = some kind := if_pos hsame
    rw [List.filterMap_cons_some hdrawn, List.find?_cons_of_pos (by simpa using hkind)]
  · rename_i hother
    have hdrawn : Step.kind? type (.node drawn kind) = none := if_neg hother
    rw [List.filterMap_cons_none hdrawn]

/-- An alias says nothing about the kind of a type. -/
theorem knownKind?_alias :
    knownKind? type (.node drawn .received :: steps) = knownKind? type steps := by
  unfold knownKind?
  by_cases hsame : drawn = type
  · have hdrawn : Step.kind? type (.node drawn .received) = some .received := if_pos hsame
    rw [List.filterMap_cons_some hdrawn, List.find?_cons_of_neg (by simp)]
  · have hdrawn : Step.kind? type (.node drawn .received) = none := if_neg hsame
    rw [List.filterMap_cons_none hdrawn]

theorem knownKind?_edge : knownKind? type (.edge edge :: steps) = knownKind? type steps := by
  have hdrawn : Step.kind? type (.edge edge) = none := rfl
  rw [knownKind?, List.filterMap_cons_none hdrawn]
  rfl

/-- A type is drawn in a kind that some step gives to it. -/
theorem mem_of_knownKind? (h : knownKind? type steps = some kind) : .node type kind ∈ steps := by
  obtain ⟨step, hstep, hkind⟩ := List.mem_filterMap.1 (List.mem_of_find?_eq_some h)
  cases step with
  | edge edge => cases hkind
  | node drawn kind' =>
    simp only [Step.kind?] at hkind
    split at hkind
    · rename_i hsame
      cases hkind
      rwa [← hsame]
    · cases hkind

end Graph

/-! ## Kinds in which a type is built -/

theorem Property.nodeKind_cases (p : Property) : p.nodeKind = .instantiated ∨ p.nodeKind = .deferred := by
  unfold nodeKind
  split
  · exact .inr rfl
  · exact .inl rfl

namespace Emission

/-- The kind in which a declaration builds a type. A reference back to a factory and an alias build
nothing. -/
def builtKind? (type : TypeExpr) : Emission → Option NodeKind
  | .built p c _ _ _ => if c.concreteType = type then some p.nodeKind else none
  | .recursive _ _ _ | .renamed _ _ _ => none

mutual

/-- **What the steps of a declaration say about a type** is how it, or the first one below it that builds
the type, builds it. -/
theorem knownKind?_steps : ∀ (scope : List (Property × TypeExpr)) (parent : TypeExpr) (e : Emission),
    Graph.knownKind? type (e.steps scope parent) = e.nodes.findSome? (builtKind? type)
  | scope, parent, .built p c erased function body => by
    have hkind : p.nodeKind ≠ .received := by
      rcases p.nodeKind_cases with h | h <;> rw [h] <;> decide
    -- the node of the declaration comes before all that is drawn below it
    rw [steps_built, Graph.knownKind?_node hkind, Graph.knownKind?_edge,
      knownKind?_stepsAll (scopeOf body scope) c.concreteType body, nodes, List.findSome?_cons, builtKind?]
    split <;> rfl
  | scope, parent, .recursive p c function => by
    rw [steps, Graph.knownKind?_edge, nodes]
    rfl
  | scope, parent, .renamed p fulfilling erased => by
    simp only [steps, Graph.knownKind?_alias, Graph.knownKind?_edge, nodes]
    rfl

theorem knownKind?_stepsAll : ∀ (scope : List (Property × TypeExpr)) (parent : TypeExpr)
    (es : List Emission),
    Graph.knownKind? type (stepsAll scope parent es) = (nodesAll es).findSome? (builtKind? type)
  | scope, parent, [] => by
    rw [stepsAll, nodesAll]
    rfl
  | scope, parent, e :: es => by
    rw [stepsAll, nodesAll, Graph.knownKind?_append, List.findSome?_append,
      knownKind?_steps scope parent e, knownKind?_stepsAll scope parent es]

end

end Emission

/-- **The kind in which some roots build a type** below them: that of the first declaration that does, a
declaration coming before those of its own body. -/
def kindBelow? (type : TypeExpr) (roots : List RootEmission) : Option NodeKind :=
  (roots.flatMap fun root => Emission.nodesAll root.body).findSome? (Emission.builtKind? type)

/-- What is built is not a root's. -/
theorem kindBelow?_ne_root : kindBelow? type gs ≠ some .root := by
  intro h
  obtain ⟨e, -, hkind⟩ := List.exists_of_findSome?_eq_some h
  cases e with
  | built p c erased function body =>
    simp only [Emission.builtKind?] at hkind
    split at hkind
    · rcases p.nodeKind_cases with h | h <;> rw [h] at hkind <;> cases hkind
    · cases hkind
  | recursive p c function => cases hkind
  | renamed p fulfilling erased => cases hkind

/-- The steps of a root begin with its own type. -/
theorem knownKind?_rootSteps :
    Graph.knownKind? type g.steps =
      if g.component.concreteType = type then some .root
      else (Emission.nodesAll g.body).findSome? (Emission.builtKind? type) := by
  rw [RootEmission.steps, Graph.knownKind?_node (by decide), Emission.knownKind?_stepsAll]

/-- Roots of other types say about a type how they build it. -/
theorem knownKind?_flatMap_steps (h : ∀ g ∈ gs, g.component.concreteType ≠ type) :
    Graph.knownKind? type (gs.flatMap RootEmission.steps) = kindBelow? type gs := by
  induction gs with
  | nil => rfl
  | cons g gs ih =>
    obtain ⟨hg, hgs⟩ := List.forall_mem_cons.1 h
    rw [List.flatMap_cons, Graph.knownKind?_append, knownKind?_rootSteps, if_neg hg, ih hgs, kindBelow?,
      kindBelow?, List.flatMap_cons, List.findSome?_append]

/-! ## The nodes of roots -/

namespace Graph

theorem mem_nodes_ofRoots_iff_kindOf :
    ⟨type, kind⟩ ∈ (ofRoots gs).nodes ↔
      type ∈ (ofRoots gs).nodes.map (·.type) ∧ kind = kindOf (gs.flatMap RootEmission.steps) type := by
  rw [ofRoots, addAll_empty]
  simp only [List.mem_map, List.mem_eraseDups, Node.mk.injEq]
  constructor
  · rintro ⟨t, ht, rfl, rfl⟩
    exact ⟨⟨_, ⟨t, ht, rfl⟩, rfl⟩, rfl⟩
  · rintro ⟨⟨node, ⟨t, ht, rfl⟩, rfl⟩, rfl⟩
    exact ⟨t, ht, rfl, rfl⟩

/-- **The node of a root** is what the roots before it build its type as, or it is a root's. -/
theorem mem_nodes_ofRoots_iff (hsplit : gs = earlier ++ g :: later)
    (hother : ∀ g' ∈ earlier, g'.component.concreteType ≠ g.component.concreteType) :
    ⟨g.component.concreteType, kind⟩ ∈ (ofRoots gs).nodes ↔
      kind = (kindBelow? g.component.concreteType earlier).getD .root := by
  have hdrawn : g.component.concreteType ∈ (ofRoots gs).nodes.map (·.type) :=
    mem_nodes_ofRoots.2 ⟨g, by simp [hsplit], .root, List.mem_cons_self⟩
  have hkind : kindOf (gs.flatMap RootEmission.steps) g.component.concreteType =
      (kindBelow? g.component.concreteType earlier).getD .root := by
    rw [kindOf_eq_getD, hsplit, List.flatMap_append, List.flatMap_cons, knownKind?_append,
      knownKind?_append, knownKind?_flatMap_steps hother, knownKind?_rootSteps, if_pos rfl]
    cases kindBelow? g.component.concreteType earlier <;> rfl
  rw [mem_nodes_ofRoots_iff_kindOf, hkind]
  exact and_iff_right hdrawn

/-- What is drawn as a root is the type of one. -/
theorem exists_root_of_mem_nodes (h : ⟨type, .root⟩ ∈ (ofRoots gs).nodes) :
    ∃ g ∈ gs, g.component.concreteType = type := by
  obtain ⟨-, hkind⟩ := mem_nodes_ofRoots_iff_kindOf.1 h
  have hknown : knownKind? type (gs.flatMap RootEmission.steps) = some .root := by
    rw [kindOf_eq_getD] at hkind
    cases hknown : knownKind? type (gs.flatMap RootEmission.steps) <;> rw [hknown] at hkind <;>
      cases hkind
    rfl
  obtain ⟨g, hg, hstep⟩ := List.mem_flatMap.1 (mem_of_knownKind? hknown)
  refine ⟨g, hg, ?_⟩
  rcases RootEmission.mem_steps_iff.1 hstep with hroot | ⟨outer, b, -, e, -, hown⟩
  · cases hroot
    rfl
  · -- no declaration draws a type as a root
    cases e with
    | built p c erased function body =>
      rcases p.nodeKind_cases with hp | hp <;> simp [Emission.ownSteps, hp] at hown
    | recursive p c function => simp [Emission.ownSteps] at hown
    | renamed p fulfilling erased => simp [Emission.ownSteps] at hown

/-- The nodes that are drawn as roots are counted with the roots. -/
theorem statistics_roots (hnodup : (gs.map (·.component.concreteType)).Nodup) :
    (ofRoots gs).statistics.roots =
      gs.countP fun g => ⟨g.component.concreteType, .root⟩ ∈ (ofRoots gs).nodes := by
  -- nodes and roots have different types each, so it is enough that the same types are on both sides
  have htypes : ((ofRoots gs).nodes.map (·.type)).Nodup := by
    rw [ofRoots, addAll_empty, List.map_map]
    simpa only [Function.comp_def, List.map_id'] using nodup_eraseDups _
  have hperm : (((ofRoots gs).nodes.filter (·.kind = .root)).map (·.type)).Perm
      ((gs.filter fun g => ⟨g.component.concreteType, .root⟩ ∈ (ofRoots gs).nodes).map
        (·.component.concreteType)) := by
    refine (List.perm_ext_iff_of_nodup (htypes.sublist (List.filter_sublist.map _))
      (hnodup.sublist (List.filter_sublist.map _))).2 fun type => ?_
    simp only [List.mem_map, List.mem_filter, decide_eq_true_eq]
    constructor
    · rintro ⟨⟨t, kind⟩, ⟨hnode, rfl⟩, rfl⟩
      obtain ⟨g, hg, rfl⟩ := exists_root_of_mem_nodes hnode
      exact ⟨g, ⟨hg, hnode⟩, rfl⟩
    · rintro ⟨g, ⟨-, hnode⟩, rfl⟩
      exact ⟨_, ⟨hnode, rfl⟩, rfl⟩
  have hlength := hperm.length_eq
  rwa [List.length_map, List.length_map, ← List.countP_eq_length_filter,
    ← List.countP_eq_length_filter] at hlength

end Graph

/-- Roots that are built are the components of what is emitted for them. -/
theorem map_component_of_build {roots : List Component} :
    ∀ {gs : List RootEmission}, roots.map (registry.build limit) = gs.map .ok →
      gs.map (·.component) = roots := by
  induction roots with
  | nil =>
    intro gs h
    obtain rfl := List.map_eq_nil_iff.1 h.symm
    rfl
  | cons root roots ih =>
    intro gs h
    obtain ⟨g, rest, rfl, hg, hrest⟩ := List.map_eq_cons_iff.1 h.symm
    rw [List.map_cons, ih hrest.symm, (emitted_of_build hg.symm).1]

/-- **A root is drawn as a root unless an earlier root builds its type.** Let all roots of components that
register be built. Then there is a graph, and it has exactly one node for the type of each root. This is
what the first declaration in the roots before it builds the type as, if one of them does, and a root's
otherwise. As many roots are counted as have such a node, and these are all roots exactly if none of them is
of a type that a root before it builds. -/
theorem Registry.roots_drawn {components : List Component}
    (hregister : Registry.register components = .ok registry)
    (hbuild : registry.roots.map (registry.build limit) = gs.map .ok) :
    gs.map (·.component) = registry.roots ∧
    ∃ graph, registry.graph limit = .ok graph ∧
      (∀ earlier g later, gs = earlier ++ g :: later → ∀ kind,
        ⟨g.component.concreteType, kind⟩ ∈ graph.nodes ↔
          kind = (kindBelow? g.component.concreteType earlier).getD .root) ∧
      graph.statistics.roots =
        registry.roots.countP (fun root => ⟨root.concreteType, .root⟩ ∈ graph.nodes) ∧
      (graph.statistics.roots = registry.roots.length ↔
        ∀ earlier g later, gs = earlier ++ g :: later →
          kindBelow? g.component.concreteType earlier = none) := by
  have hroots := map_component_of_build hbuild
  have hnodup : (gs.map (·.component.concreteType)).Nodup := by
    have htypes : (registry.roots.map (·.concreteType)).Nodup :=
      (nodup_concreteTypes hregister).sublist (List.filter_sublist.map _)
    rwa [← hroots, List.map_map] at htypes
  have hgraph : registry.graph limit = .ok (Graph.ofRoots gs) := by
    rw [graph, buildRoots, hbuild, collectFaults_of_ok]
    rfl
  have hnodes : ∀ earlier g later, gs = earlier ++ g :: later → ∀ kind,
      ⟨g.component.concreteType, kind⟩ ∈ (Graph.ofRoots gs).nodes ↔
        kind = (kindBelow? g.component.concreteType earlier).getD .root := by
    intro earlier g later hsplit kind
    -- the root's own steps give its type first of all, and no other root has this type
    refine Graph.mem_nodes_ofRoots_iff hsplit fun g' hg' => ?_
    rw [hsplit, List.map_append] at hnodup
    exact (List.nodup_append.1 hnodup).2.2 _ (List.mem_map_of_mem hg') _ (by simp)
  have hcount := Graph.statistics_roots hnodup
  refine ⟨hroots, _, hgraph, hnodes, ?_, ?_⟩
  · rw [hcount, ← hroots, List.countP_map]
    rfl
  · rw [hcount, ← hroots, List.length_map, List.countP_eq_length]
    simp only [decide_eq_true_eq]
    constructor
    · intro hall earlier g later hsplit
      have hroot := (hnodes earlier g later hsplit .root).1 (hall g (by simp [hsplit]))
      cases hbuilt : kindBelow? g.component.concreteType earlier with
      | none => rfl
      | some kind =>
        rw [hbuilt] at hroot
        exact absurd (hbuilt.trans (congrArg some hroot.symm)) kindBelow?_ne_root
    · intro hnone g hg
      obtain ⟨earlier, later, hsplit⟩ := List.append_of_mem hg
      refine (hnodes earlier g later hsplit .root).2 ?_
      rw [hnone earlier g later hsplit]
      rfl

/-- A bar, which opens on its own. -/
def bar : Component :=
  ⟨.simple "Bar" [], [], true, none, [], .structType⟩

/-- A hotel has a bar. -/
def hotel : Component :=
  ⟨.simple "Hotel" [], [], true, none, [⟨⟨"bar", .simple "Bar" []⟩, .instantiated none false⟩],
    .classType⟩

def barEmission : RootEmission :=
  ⟨bar, []⟩

def hotelEmission : RootEmission :=
  ⟨hotel, [.built ⟨"bar", .simple "Bar" []⟩ bar false none []]⟩

/-- With the bar before the hotel, both are drawn as roots. -/
theorem bar_and_hotel_drawn_as_roots :
    Registry.register [bar, hotel] = .ok ⟨[bar, hotel]⟩ ∧
      (Registry.roots ⟨[bar, hotel]⟩).map (Registry.build ⟨[bar, hotel]⟩ 256) =
        [barEmission, hotelEmission].map .ok ∧
      ∃ graph, Registry.graph ⟨[bar, hotel]⟩ 256 = .ok graph ∧
        ⟨.simple "Bar" [], .root⟩ ∈ graph.nodes ∧ ⟨.simple "Hotel" [], .root⟩ ∈ graph.nodes ∧
        graph.statistics.roots = 2 := by
  have hregister : Registry.register [bar, hotel] = .ok ⟨[bar, hotel]⟩ := by rfl
  have hbuild : (Registry.roots ⟨[bar, hotel]⟩).map (Registry.build ⟨[bar, hotel]⟩ 256) =
      [barEmission, hotelEmission].map .ok := by
    with_unfolding_all rfl
  obtain ⟨-, graph, hgraph, hnodes, hcount, -⟩ := Registry.roots_drawn hregister hbuild
  have hbar : ⟨.simple "Bar" [], .root⟩ ∈ graph.nodes :=
    (hnodes [] barEmission [hotelEmission] rfl .root).2 rfl
  have hhotel : ⟨.simple "Hotel" [], .root⟩ ∈ graph.nodes :=
    (hnodes [barEmission] hotelEmission [] rfl .root).2 rfl
  refine ⟨hregister, hbuild, graph, hgraph, hbar, hhotel, hcount.trans ?_⟩
  refine List.countP_eq_length.2 fun root hroot => ?_
  have hroot : root = bar ∨ root = hotel := by simpa using List.mem_of_mem_filter hroot
  rcases hroot with rfl | rfl
  · exact decide_eq_true hbar
  · exact decide_eq_true hhotel

/-- With the hotel before the bar, the bar is not drawn as a root, and one root is missing in the count. -/
theorem bar_of_hotel_not_drawn_as_root :
    Registry.register [hotel, bar] = .ok ⟨[hotel, bar]⟩ ∧
      Registry.roots ⟨[hotel, bar]⟩ = [hotel, bar] ∧
      (Registry.roots ⟨[hotel, bar]⟩).map (Registry.build ⟨[hotel, bar]⟩ 256) =
        [hotelEmission, barEmission].map .ok ∧
      ∃ graph, Registry.graph ⟨[hotel, bar]⟩ 256 = .ok graph ∧
        ⟨.simple "Bar" [], .root⟩ ∉ graph.nodes ∧
        ⟨.simple "Bar" [], .instantiated⟩ ∈ graph.nodes ∧ graph.statistics.roots = 1 := by
  have hgraph : Registry.graph ⟨[hotel, bar]⟩ 256 =
      .ok ⟨[⟨.simple "Hotel" [], .root⟩, ⟨.simple "Bar" [], .instantiated⟩],
        [⟨.simple "Hotel" [], .simple "Bar" [], "bar", .instantiated⟩]⟩ := by
    with_unfolding_all rfl
  exact ⟨rfl, rfl, by with_unfolding_all rfl, _, hgraph, by decide, by decide, by decide⟩

end Wiring
