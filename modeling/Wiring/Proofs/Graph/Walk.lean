import Wiring.Graph.Projection
import Wiring.Proofs.Emission.Capture
import Wiring.Proofs.Emission.References
import Wiring.Proofs.Graph.Drawing

/-!
# Walking through the roots

The graph of some roots is drawn on one walk through all of them, each declaration before what its own
body declares. What the walk draws is said here as a relation, without the list of properties in scope
that is kept on the way: an alias points at what the nearest body around it builds.

* `Emission.PointsAt`: what an alias points at; `Emission.pointsAt_iff`: it is what is looked up.
* `RootEmission.Walks`: the steps of the walk; `RootEmission.walks_iff`: they are those of the drawing.
* `RootEmission.mem_steps_iff`: every step belongs to a declaration of some body.
* `Graph.ofRoots_projects`: **the graph is an exact projection** of the roots.
-/

namespace Wiring

/-- The kind in which the value of a property is drawn. -/
def Property.nodeKind (p : Property) : NodeKind :=
  if p.isDeferred then .deferred else .instantiated

/-- The kind of the edge to the value of a property. -/
def Property.edgeKind (p : Property) : EdgeKind :=
  if p.isDeferred then .deferred else .instantiated

namespace Emission

variable {scope : List (Property × TypeExpr)} {parent : TypeExpr} {e : Emission} {es : List Emission}
  {bodies : List (List Emission)} {p : Property} {t : TypeExpr}

/-! ## What an alias points at -/

/-- **What an alias of `p` points at** inside some bodies, the innermost one first: the type that the
last declaration of `p` in the nearest of them builds, and the type that `p` has instantiated if none of
them builds it. -/
inductive PointsAt (p : Property) : List (List Emission) → TypeExpr → Prop
  | built {earlier later : List Emission} {e : Emission} {t : TypeExpr}
      {outer : List (List Emission)} :
    e.builder? = some (p, t) → (∀ e' ∈ later, ∀ t', e'.builder? ≠ some (p, t')) →
      PointsAt p ((earlier ++ e :: later) :: outer) t
  | passed {body : List Emission} {outer : List (List Emission)} {t : TypeExpr} :
    (∀ e ∈ body, ∀ t', e.builder? ≠ some (p, t')) → PointsAt p outer t → PointsAt p (body :: outer) t
  | unbuilt : PointsAt p [] p.type.produced

/-- What is built inside some bodies, the innermost one first. -/
def builders (bodies : List (List Emission)) : List (Property × TypeExpr) :=
  bodies.flatMap fun body => (body.filterMap builder?).reverse

theorem scopeOf_builders (body : List Emission) (outer : List (List Emission)) :
    scopeOf body (builders outer) = builders (body :: outer) :=
  rfl

/-- What no declaration builds is not found among what is built. -/
theorem find?_builders_eq_none (h : ∀ e ∈ es, ∀ t', e.builder? ≠ some (p, t')) :
    (es.filterMap builder?).reverse.find? (·.1 = p) = none := by
  refine List.find?_eq_none.2 fun q hq => ?_
  obtain ⟨e, he, hbuilds⟩ := List.mem_filterMap.1 (List.mem_reverse.1 hq)
  simp only [decide_eq_true_eq]
  rintro rfl
  exact h e he q.2 hbuilds

theorem aliasTarget_of_built {earlier later : List Emission} (he : e.builder? = some (p, t))
    (hlater : ∀ e' ∈ later, ∀ t', e'.builder? ≠ some (p, t')) :
    aliasTarget (scopeOf (earlier ++ e :: later) scope) p = t := by
  have hnone := find?_builders_eq_none hlater
  simp [aliasTarget, scopeOf, List.filterMap_append, List.filterMap_cons_some he, hnone]

theorem aliasTarget_of_not_built {body : List Emission}
    (h : ∀ e ∈ body, ∀ t', e.builder? ≠ some (p, t')) :
    aliasTarget (scopeOf body scope) p = aliasTarget scope p := by
  have hnone := find?_builders_eq_none h
  simp [aliasTarget, scopeOf, hnone]

/-- A body builds a property or it does not; if it does, one declaration is the last to do so. -/
theorem exists_last_builder (p : Property) (body : List Emission) :
    (∀ e ∈ body, ∀ t, e.builder? ≠ some (p, t)) ∨
      ∃ earlier e later t, body = earlier ++ e :: later ∧ e.builder? = some (p, t) ∧
        ∀ e' ∈ later, ∀ t', e'.builder? ≠ some (p, t') := by
  induction body using List.reverseRecOn with
  | nil => exact .inl fun e he => absurd he List.not_mem_nil
  | append_singleton body last ih =>
    by_cases hlast : ∃ t, last.builder? = some (p, t)
    · obtain ⟨t, hlast⟩ := hlast
      exact .inr ⟨body, last, [], t, rfl, hlast, fun e he => absurd he List.not_mem_nil⟩
    · push Not at hlast
      rcases ih with hnone | ⟨earlier, e, later, t, rfl, he, hlater⟩
      · refine .inl fun e he => ?_
        rcases List.mem_append.1 he with he | he
        · exact hnone e he
        · exact List.mem_singleton.1 he ▸ hlast
      · refine .inr ⟨earlier, e, later ++ [last], t, by simp, he, fun e' he' => ?_⟩
        rcases List.mem_append.1 he' with he' | he'
        · exact hlater e' he'
        · exact List.mem_singleton.1 he' ▸ hlast

theorem PointsAt.eq_aliasTarget (h : PointsAt p bodies t) : t = aliasTarget (builders bodies) p := by
  induction h with
  | built he hlater => rw [← scopeOf_builders, aliasTarget_of_built he hlater]
  | passed hbody _ ih => rw [← scopeOf_builders, aliasTarget_of_not_built hbody, ih]
  | unbuilt => rfl

/-- The nearest body either builds the property as the type that is pointed at, or it is passed over. -/
theorem PointsAt.built_or_passed {body : List Emission} (h : PointsAt p (body :: bodies) t) :
    (∃ e ∈ body, e.builder? = some (p, t)) ∨
      (∀ e ∈ body, ∀ t', e.builder? ≠ some (p, t')) ∧ PointsAt p bodies t := by
  cases h with
  | built he _ => exact .inl ⟨_, by simp, he⟩
  | passed hbody hbodies => exact .inr ⟨hbody, hbodies⟩

theorem exists_pointsAt (p : Property) : ∀ bodies : List (List Emission), ∃ t, PointsAt p bodies t
  | [] => ⟨_, .unbuilt⟩
  | body :: outer => by
    rcases exists_last_builder p body with hnone | ⟨earlier, e, later, t, rfl, he, hlater⟩
    · obtain ⟨t, ht⟩ := exists_pointsAt p outer
      exact ⟨t, .passed hnone ht⟩
    · exact ⟨t, .built he hlater⟩

/-- **What an alias points at is what is looked up** in the properties in scope. -/
theorem pointsAt_iff : PointsAt p bodies t ↔ t = aliasTarget (builders bodies) p := by
  constructor
  · exact PointsAt.eq_aliasTarget
  · intro h
    obtain ⟨t', ht'⟩ := exists_pointsAt p bodies
    rw [h, ← ht'.eq_aliasTarget]
    exact ht'

/-! ## The walk -/

/-- **The steps of the walk** through some declarations of `parent`, in order. `bodies` are the bodies
that they stand in, the innermost one first. -/
inductive Walks : List (List Emission) → TypeExpr → List Emission → List Graph.Step → Prop
  | nil {bodies : List (List Emission)} {parent : TypeExpr} : Walks bodies parent [] []
  /-- A value comes with its type and an edge, and then with everything below it. -/
  | built {bodies : List (List Emission)} {parent : TypeExpr} {p : Property} {c : Component}
      {erased : Bool} {function : Option String} {body es : List Emission}
      {below after : List Graph.Step} :
    Walks (body :: bodies) c.concreteType body below → Walks bodies parent es after →
      Walks bodies parent (.built p c erased function body :: es)
        (.node c.concreteType p.nodeKind :: .edge ⟨parent, c.concreteType, p.label, p.edgeKind⟩ ::
          (below ++ after))
  /-- A reference to an enclosing factory comes with an edge. -/
  | recursive {bodies : List (List Emission)} {parent : TypeExpr} {p : Property} {c : Component}
      {function : String} {es : List Emission} {after : List Graph.Step} :
    Walks bodies parent es after →
      Walks bodies parent (.recursive p c function :: es)
        (.edge ⟨parent, c.concreteType, p.label, .deferred⟩ :: after)
  /-- An alias comes with the type that it points at and an edge. -/
  | renamed {bodies : List (List Emission)} {parent t : TypeExpr} {p fulfilling : Property}
      {erased : Bool} {es : List Emission} {after : List Graph.Step} :
    PointsAt fulfilling bodies t → Walks bodies parent es after →
      Walks bodies parent (.renamed p fulfilling erased :: es)
        (.node t .received ::
          .edge ⟨parent, t, p.label ++ " = " ++ fulfilling.label, .renamed⟩ :: after)

theorem steps_built {c : Component} {erased : Bool} {function : Option String} {body : List Emission} :
    (Emission.built p c erased function body).steps scope parent =
      .node c.concreteType p.nodeKind :: .edge ⟨parent, c.concreteType, p.label, p.edgeKind⟩ ::
        stepsAll (scopeOf body scope) c.concreteType body := by
  unfold Emission.steps Property.nodeKind Property.edgeKind
  cases p.isDeferred <;> rfl

theorem Walks.eq_stepsAll {steps : List Graph.Step} (h : Walks bodies parent es steps) :
    steps = stepsAll (builders bodies) parent es := by
  induction h with
  | nil => rfl
  | built _ _ ihbelow ihafter =>
    rw [stepsAll, steps_built, scopeOf_builders, ← ihbelow, ← ihafter]
    rfl
  | recursive _ ihafter => simp [stepsAll, Emission.steps, ← ihafter]
  | renamed htarget _ ihafter =>
    simp [stepsAll, Emission.steps, ← ihafter, htarget.eq_aliasTarget]

/-- There is a walk through any declarations. -/
theorem exists_walks : ∀ (bodies : List (List Emission)) (parent : TypeExpr) (es : List Emission),
    ∃ steps, Walks bodies parent es steps
  | bodies, parent, [] => ⟨[], .nil⟩
  | bodies, parent, .built p c erased function body :: es => by
    obtain ⟨below, hbelow⟩ := exists_walks (body :: bodies) c.concreteType body
    obtain ⟨after, hafter⟩ := exists_walks bodies parent es
    exact ⟨_, .built hbelow hafter⟩
  | bodies, parent, .recursive p c function :: es => by
    obtain ⟨after, hafter⟩ := exists_walks bodies parent es
    exact ⟨_, .recursive hafter⟩
  | bodies, parent, .renamed p fulfilling erased :: es => by
    obtain ⟨t, ht⟩ := exists_pointsAt fulfilling bodies
    obtain ⟨after, hafter⟩ := exists_walks bodies parent es
    exact ⟨_, .renamed ht hafter⟩

theorem walks_iff {steps : List Graph.Step} :
    Walks bodies parent es steps ↔ steps = stepsAll (builders bodies) parent es := by
  constructor
  · exact Walks.eq_stepsAll
  · intro h
    obtain ⟨steps', hsteps'⟩ := exists_walks bodies parent es
    rw [h, ← hsteps'.eq_stepsAll]
    exact hsteps'

/-! ## The steps of one declaration -/

/-- The steps that draw a declaration itself, without what its own body declares. -/
def ownSteps (scope : List (Property × TypeExpr)) (parent : TypeExpr) : Emission → List Graph.Step
  | .built p c _ _ _ =>
    [.node c.concreteType p.nodeKind, .edge ⟨parent, c.concreteType, p.label, p.edgeKind⟩]
  | .recursive p c _ => [.edge ⟨parent, c.concreteType, p.label, .deferred⟩]
  | .renamed p fulfilling _ =>
    [.node (aliasTarget scope fulfilling) .received,
      .edge ⟨parent, aliasTarget scope fulfilling, p.label ++ " = " ++ fulfilling.label, .renamed⟩]

theorem ownSteps_subset_steps : e.ownSteps scope parent ⊆ e.steps scope parent := by
  intro step hstep
  cases e with
  | built p c erased function body =>
    rw [steps_built]
    exact List.subset_append_left _ (stepsAll (scopeOf body scope) c.concreteType body) hstep
  | recursive p c function => exact hstep
  | renamed p fulfilling erased => exact hstep

theorem steps_subset_stepsAll (he : e ∈ es) : e.steps scope parent ⊆ stepsAll scope parent es := by
  induction es with
  | nil => cases he
  | cons first es ih =>
    rw [stepsAll]
    rcases List.mem_cons.1 he with rfl | he
    · exact List.subset_append_left _ _
    · exact List.Subset.trans (ih he) (List.subset_append_right _ _)

theorem stepsAll_subset_steps {c : Component} {erased : Bool} {function : Option String}
    {body : List Emission} :
    stepsAll (scopeOf body scope) c.concreteType body ⊆
      (Emission.built p c erased function body).steps scope parent := by
  rw [steps_built]
  exact List.subset_cons_of_subset _ (List.subset_cons_of_subset _ (List.Subset.refl _))

end Emission

/-! ## The steps of a root -/

variable {g : RootEmission} {outer : List Enclosure} {b : Body} {type : TypeExpr} {step : Graph.Step}

/-- What is built inside a body and the bodies around it. -/
def Body.builders (b : Body) (outer : List Enclosure) : List (Property × TypeExpr) :=
  Emission.builders ((b :: outer.map (·.body)).map (·.declarations))

namespace RootEmission

/-- **The steps of the walk** through some roots: each begins with its own type. -/
inductive Walks : List RootEmission → List Graph.Step → Prop
  | nil : Walks [] []
  | cons {root : RootEmission} {roots : List RootEmission} {below after : List Graph.Step} :
    Emission.Walks [root.body] root.component.concreteType root.body below → Walks roots after →
      Walks (root :: roots) (.node root.component.concreteType .root :: (below ++ after))

/-- **The walk is what the graph is drawn from.** -/
theorem walks_iff : ∀ {roots : List RootEmission} {steps : List Graph.Step},
    Walks roots steps ↔ steps = roots.flatMap RootEmission.steps
  | [], steps => by
    constructor
    · rintro ⟨⟩
      rfl
    · rintro rfl
      exact .nil
  | root :: roots, steps => by
    have hscope : Emission.scopeOf root.body [] = Emission.builders [root.body] :=
      Emission.scopeOf_builders root.body []
    rw [List.flatMap_cons, RootEmission.steps, hscope]
    constructor
    · rintro (_ | ⟨hbelow, hafter⟩)
      rw [hbelow.eq_stepsAll, walks_iff.1 hafter, List.cons_append]
    · rintro rfl
      exact .cons (Emission.walks_iff.2 rfl) (walks_iff.2 rfl)

/-- A step of a walk through a body belongs to a declaration of it or of a body inside. -/
theorem exists_of_walks {bodies : List (List Emission)} {parent : TypeExpr} {es : List Emission}
    {steps : List Graph.Step} (h : Emission.Walks bodies parent es steps) :
    ∀ {outer : List Enclosure} {b : Body} {earlier : List Emission}, g.Contains outer b →
      bodies = (b :: outer.map (·.body)).map (·.declarations) → parent = b.component.concreteType →
      b.declarations = earlier ++ es → step ∈ steps →
      ∃ outer b, g.Contains outer b ∧
        ∃ e ∈ b.declarations, step ∈ e.ownSteps (b.builders outer) b.component.concreteType := by
  -- `earlier` are the declarations of the body that the walk has left behind
  induction h with
  | nil => exact fun _ _ _ _ hstep => absurd hstep List.not_mem_nil
  | @built bodies parent p c erased function body es below after _ _ ihbelow ihafter =>
    rintro outer b earlier hb rfl rfl hsplit hstep
    have hmem : Emission.built p c erased function body ∈ b.declarations := by simp [hsplit]
    rcases List.mem_cons.1 hstep with rfl | hstep
    · exact ⟨outer, b, hb, _, hmem, List.mem_cons_self⟩
    rcases List.mem_cons.1 hstep with rfl | hstep
    · exact ⟨outer, b, hb, _, hmem, List.mem_cons_of_mem _ List.mem_cons_self⟩
    rcases List.mem_append.1 hstep with hstep | hstep
    · exact ihbelow (.inner hb hsplit) rfl rfl (List.nil_append _).symm hstep
    · exact ihafter hb rfl rfl (List.append_cons _ _ _ ▸ hsplit) hstep
  | @recursive bodies parent p c function es after _ ihafter =>
    rintro outer b earlier hb rfl rfl hsplit hstep
    rcases List.mem_cons.1 hstep with rfl | hstep
    · exact ⟨outer, b, hb, .recursive p c function, by simp [hsplit], by simp [Emission.ownSteps]⟩
    · exact ihafter hb rfl rfl (List.append_cons _ _ _ ▸ hsplit) hstep
  | @renamed bodies parent t p fulfilling erased es after htarget _ ihafter =>
    rintro outer b earlier hb rfl rfl hsplit hstep
    have hmem : Emission.renamed p fulfilling erased ∈ b.declarations := by simp [hsplit]
    have htarget : t = Emission.aliasTarget (b.builders outer) fulfilling := htarget.eq_aliasTarget
    rcases List.mem_cons.1 hstep with rfl | hstep
    · exact ⟨outer, b, hb, _, hmem, by simp [Emission.ownSteps, htarget]⟩
    rcases List.mem_cons.1 hstep with rfl | hstep
    · exact ⟨outer, b, hb, _, hmem, by simp [Emission.ownSteps, htarget]⟩
    · exact ihafter hb rfl rfl (List.append_cons _ _ _ ▸ hsplit) hstep

/-- Whatever a body declares is drawn. -/
theorem stepsAll_subset_of_contains (hb : g.Contains outer b) :
    Emission.stepsAll (b.builders outer) b.component.concreteType b.declarations ⊆ g.steps := by
  induction hb with
  | root => exact List.subset_cons_of_subset _ (List.Subset.refl _)
  | @inner outer b earlier later body p c erased function hb hsplit ih =>
    have hmem : Emission.built p c erased function body ∈ b.declarations := by simp [hsplit]
    have hbody : (Emission.built p c erased function body).steps (b.builders outer)
          b.component.concreteType ⊆
        Emission.stepsAll (b.builders outer) b.component.concreteType b.declarations :=
      Emission.steps_subset_stepsAll hmem
    exact List.Subset.trans (List.Subset.trans Emission.stepsAll_subset_steps hbody) ih

/-- **Every step of a root belongs to a declaration** of some body, but for the first one. -/
theorem mem_steps_iff :
    step ∈ g.steps ↔ step = .node g.component.concreteType .root ∨
      ∃ outer b, g.Contains outer b ∧
        ∃ e ∈ b.declarations, step ∈ e.ownSteps (b.builders outer) b.component.concreteType := by
  constructor
  · intro hstep
    rcases List.mem_cons.1 hstep with rfl | hstep
    · exact .inl rfl
    · exact .inr (exists_of_walks (Emission.walks_iff.2 rfl) .root rfl rfl
        (List.nil_append _).symm hstep)
  · rintro (rfl | ⟨outer, b, hb, e, he, hstep⟩)
    · exact List.mem_cons_self
    · exact stepsAll_subset_of_contains hb
        (Emission.steps_subset_stepsAll he (Emission.ownSteps_subset_steps hstep))

/-! ## The ends of an edge -/

/-- A root draws a type. -/
def Draws (g : RootEmission) (type : TypeExpr) : Prop :=
  ∃ kind, .node type kind ∈ g.steps

/-- The type of every body is drawn, where its value is declared. -/
theorem draws_of_contains (hb : g.Contains outer b) : g.Draws b.component.concreteType := by
  cases hb with
  | root => exact ⟨.root, List.mem_cons_self⟩
  | @inner outer b earlier later body p c erased function hb hsplit =>
    have hmem : Emission.built p c erased function body ∈ b.declarations := by simp [hsplit]
    exact ⟨p.nodeKind, mem_steps_iff.2 (.inr ⟨_, _, hb, _, hmem, List.mem_cons_self⟩)⟩

/-- **Both ends of an edge are drawn.** A recursive reference has its end among the bodies around it. -/
theorem draws_of_edge {scope : Scope} (h : scope.emit = .ok g) {edge : Edge}
    (hedge : .edge edge ∈ g.steps) : g.Draws edge.source ∧ g.Draws edge.target := by
  rcases mem_steps_iff.1 hedge with hroot | ⟨outer, b, hb, e, he, hstep⟩
  · cases hroot
  have hsource := draws_of_contains hb
  have hown : ∀ {type kind}, .node type kind ∈ e.ownSteps (b.builders outer) b.component.concreteType →
      g.Draws type := fun hnode => ⟨_, mem_steps_iff.2 (.inr ⟨_, _, hb, e, he, hnode⟩)⟩
  cases e with
  | built p c erased function body =>
    simp only [Emission.ownSteps, List.mem_cons, Graph.Step.edge.injEq, reduceCtorEq, false_or,
      List.not_mem_nil, or_false] at hstep
    subst hstep
    exact ⟨hsource, hown List.mem_cons_self⟩
  | recursive p c function =>
    simp only [Emission.ownSteps, List.mem_singleton, Graph.Step.edge.injEq] at hstep
    subst hstep
    refine ⟨hsource, ?_⟩
    obtain ⟨inner, f, older, hsplit, ⟨-, htype, -⟩, -⟩ := builds_of_recursive h hb he
    rw [← htype]
    cases inner with
    | nil =>
      cases hsplit
      exact hsource
    | cons first inner =>
      -- the function is that of a body further out, which contains this one
      obtain ⟨-, hsplit⟩ := List.cons.inj hsplit
      obtain ⟨newer, rest, rfl, -, hrest⟩ := List.map_eq_append_iff.1 hsplit
      obtain ⟨l, older, rfl, rfl, -⟩ := List.map_eq_cons_iff.1 hrest
      exact draws_of_contains (contains_of_mem_outer hb rfl).1
  | renamed p fulfilling erased =>
    simp only [Emission.ownSteps, List.mem_cons, Graph.Step.edge.injEq, reduceCtorEq, false_or,
      List.not_mem_nil, or_false] at hstep
    subst hstep
    exact ⟨hsource, hown List.mem_cons_self⟩

end RootEmission

/-! ## The graph of some roots -/

namespace Graph

variable {roots : List RootEmission}

/-- A type is a node exactly if some root draws it. -/
theorem mem_nodes_ofRoots {type : TypeExpr} :
    type ∈ (ofRoots roots).nodes.map (·.type) ↔ ∃ g ∈ roots, g.Draws type := by
  rw [ofRoots, addAll_empty, List.map_map]
  simp only [Function.comp_def, List.map_id', List.mem_eraseDups, mem_types, List.mem_flatMap]
  constructor
  · rintro ⟨kind, g, hg, hstep⟩
    exact ⟨g, hg, kind, hstep⟩
  · rintro ⟨g, hg, kind, hstep⟩
    exact ⟨kind, g, hg, hstep⟩

theorem mem_edges_ofRoots {edge : Edge} :
    edge ∈ (ofRoots roots).edges ↔ ∃ g ∈ roots, .edge edge ∈ g.steps := by
  rw [ofRoots, addAll_empty]
  simp only [List.mem_eraseDups, mem_edges, List.mem_flatMap]

/-- **The graph is an exact projection of the roots.** There is exactly one walk through the roots. The
nodes are the types that it draws, in the order in which they come up first, each in the first kind that
says more than an alias; the edges are those that it draws, in the order in which they come up first and
without repeats. Both ends of every edge are nodes. Every node is counted in one of the four kinds, and
no edge is counted twice. -/
theorem ofRoots_projects (h : ∀ g ∈ roots, ∃ scope : Scope, scope.emit = .ok g) :
    ∃ walk, (∀ steps, RootEmission.Walks roots steps ↔ steps = walk) ∧
      (ofRoots roots).nodes =
        (walk.filterMap Step.type?).eraseDups.map (fun type => ⟨type, kindOf walk type⟩) ∧
      (ofRoots roots).edges = (walk.filterMap Step.edge?).eraseDups ∧
      (∀ edge ∈ (ofRoots roots).edges,
        edge.source ∈ (ofRoots roots).nodes.map (·.type) ∧
          edge.target ∈ (ofRoots roots).nodes.map (·.type)) ∧
      (ofRoots roots).statistics.nodes = (ofRoots roots).nodes.length ∧
      (ofRoots roots).statistics.edges = (ofRoots roots).edges.length ∧
      (ofRoots roots).statistics.roots + (ofRoots roots).statistics.instantiated +
          (ofRoots roots).statistics.deferred + (ofRoots roots).statistics.received =
        (ofRoots roots).statistics.nodes ∧
      (ofRoots roots).statistics.deferredEdges + (ofRoots roots).statistics.renamedEdges ≤
        (ofRoots roots).statistics.edges := by
  have hdrawn := addAll_empty (roots.flatMap RootEmission.steps)
  refine ⟨roots.flatMap RootEmission.steps, fun _ => RootEmission.walks_iff, ?_, ?_, ?_, rfl, rfl,
    statistics_nodes _, statistics_edges _⟩
  · exact congrArg Graph.nodes hdrawn
  · exact congrArg Graph.edges hdrawn
  · intro edge hedge
    obtain ⟨g, hg, hstep⟩ := mem_edges_ofRoots.1 hedge
    obtain ⟨scope, hemit⟩ := h g hg
    obtain ⟨hsource, htarget⟩ := RootEmission.draws_of_edge hemit hstep
    exact ⟨mem_nodes_ofRoots.2 ⟨g, hg, hsource⟩, mem_nodes_ofRoots.2 ⟨g, hg, htarget⟩⟩

end Graph

/-- The shop and the market in one graph: the journal is an alias of the ledger, which keeps the kind
that it has as a value of its own, and the tills and the stalls refer to what is around them. -/
theorem shop_and_market_project :
    (∀ g ∈ [shopEmission, marketEmission], ∃ scope : Scope, scope.emit = .ok g) ∧
      (Graph.ofRoots [shopEmission, marketEmission]).nodes =
        [⟨.simple "Shop" [], .root⟩, ⟨.simple "Ledger" [], .instantiated⟩,
          ⟨.simple "Counter" [], .deferred⟩, ⟨.simple "Till" [], .instantiated⟩,
          ⟨.simple "Stall" [], .root⟩] ∧
      (∀ edge ∈ (Graph.ofRoots [shopEmission, marketEmission]).edges,
        edge.source ∈ (Graph.ofRoots [shopEmission, marketEmission]).nodes.map (·.type) ∧
          edge.target ∈ (Graph.ofRoots [shopEmission, marketEmission]).nodes.map (·.type)) ∧
      ∃ walk, RootEmission.Walks [shopEmission, marketEmission] walk := by
  have hemitted : ∀ g ∈ [shopEmission, marketEmission], ∃ scope : Scope, scope.emit = .ok g := by
    intro g hg
    rcases List.mem_cons.1 hg with rfl | hg
    · exact ⟨shopScope, by with_unfolding_all rfl⟩
    · rw [List.mem_singleton.1 hg]
      exact ⟨market, by with_unfolding_all rfl⟩
  obtain ⟨walk, hwalk, -, -, hends, -⟩ := Graph.ofRoots_projects hemitted
  exact ⟨hemitted, by decide +kernel, hends, walk, (hwalk walk).2 rfl⟩

end Wiring
