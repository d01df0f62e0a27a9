import Wiring.Proofs.Emission.Recursion
import Wiring.Proofs.Graph.Walk
import Wiring.Proofs.Resolution.EagerCycles

/-!
# Where alias edges point

An alias stands for what resolution has found: the component that its supplier has built, or what is
passed in to the supplier, or, if the supplier knows the property by an alias only, what that alias stands
for. The graph looks for the property once more, among what the bodies around the alias build. So it
passes over a supplier that does not build the property, and finds what is further out, if anything.

* `Registry.StandsFor`: what an alias stands for.
* `Registry.alias_edge_iff`: where the edge of an alias points, and when that is what it stands for.
* `alias_edge_misses_producer`: this can fail.
-/

namespace Wiring

variable {registry : Registry} {limit : Nat} {root : Component} {g : RootEmission}
  {outer : List Enclosure} {b s : Body} {c : Component} {f f' p : Property} {t : TypeExpr}

/-- The component knows `f` as another name for `f'`. -/
def Component.Renames (c : Component) (f f' : Property) : Prop :=
  ∃ d ∈ c.dependencies, d.property = f ∧ ∃ erased, d.origin = .aliased f' erased

namespace Registry

/-- **What a component has itself** for a property: what is built for it, or the type of what is passed
in. -/
inductive Provides (registry : Registry) (c : Component) (f : Property) : TypeExpr → Prop
  | built {q : Component} : registry.Edge c f q → Provides registry c f q.concreteType
  | forwarded : f ∈ c.forwarded → Provides registry c f f.type.produced

/-- **What an alias of `f` stands for** in the component at the front of a chain. If the component itself
has `f` built or passed in, it is that; otherwise the supplier is the ancestor that resolution has found,
and if this has only another alias to offer, that one is followed. -/
inductive StandsFor (registry : Registry) : List Frame → Property → TypeExpr → Prop
  | own {frame : Frame} {above : List Frame} {f : Property} {t : TypeExpr} :
    registry.Provides frame.component f t → StandsFor registry (frame :: above) f t
  | supplied {frame supplier : Frame} {above nearer older : List Frame} {f : Property} {t : TypeExpr} :
    frame.component.holds f = false →
      Chain.locateIn f (frame :: above) = .available older.length →
      above = nearer ++ supplier :: older → registry.Provides supplier.component f t →
      StandsFor registry (frame :: above) f t
  | renamed {frame supplier : Frame} {above nearer older : List Frame} {f f' : Property}
      {t : TypeExpr} :
    frame.component.holds f = false →
      Chain.locateIn f (frame :: above) = .available older.length →
      above = nearer ++ supplier :: older → supplier.component.holds f = false →
      supplier.component.Renames f f' → StandsFor registry (supplier :: older) f' t →
      StandsFor registry (frame :: above) f t

/-! ## What a component has itself -/

theorem holds_of_edge {q : Component} (h : registry.Edge c f q) : c.holds f = true := by
  obtain ⟨d, hd, rfl, type, htype, -⟩ := h
  refine List.any_eq_true.2 ⟨d, hd, ?_⟩
  unfold Dependency.producedType? at htype
  cases horigin : d.origin <;> simp_all [Dependency.isInstantiated]

theorem Provides.holds (h : registry.Provides c f t) : c.holds f = true := by
  cases h with
  | built hedge => exact holds_of_edge hedge
  | forwarded hforwarded =>
    obtain ⟨d, hd, hd', rfl⟩ := Component.mem_forwarded.1 hforwarded
    exact List.any_eq_true.2 ⟨d, hd, by simp [hd']⟩

theorem standsFor_own_iff {frame : Frame} {above : List Frame} (h : frame.component.holds f = true) :
    registry.StandsFor (frame :: above) f t ↔ registry.Provides frame.component f t := by
  constructor
  · intro hstands
    cases hstands with
    | own hprovides => exact hprovides
    | supplied hnone => rw [h] at hnone; cases hnone
    | renamed hnone => rw [h] at hnone; cases hnone
  · exact .own

/-- The ancestor that resolution has found is the supplier. -/
theorem standsFor_located_iff {frame supplier : Frame} (nearer : List Frame) {older : List Frame}
    (h : frame.component.holds f = false)
    (hlocated : Chain.locateIn f (frame :: (nearer ++ supplier :: older)) = .available older.length) :
    registry.StandsFor (frame :: (nearer ++ supplier :: older)) f t ↔
      registry.Provides supplier.component f t ∨ supplier.component.holds f = false ∧
        ∃ f', supplier.component.Renames f f' ∧ registry.StandsFor (supplier :: older) f' t := by
  have hunique : ∀ {nearer' older' : List Frame} {supplier' : Frame},
      Chain.locateIn f (frame :: (nearer ++ supplier :: older)) = .available older'.length →
      nearer ++ supplier :: older = nearer' ++ supplier' :: older' →
      supplier' = supplier ∧ older' = older := by
    intro nearer' older' supplier' hlocated' hsplit
    rw [hlocated] at hlocated'
    have hlength : older.length = older'.length := by simpa using hlocated'
    obtain ⟨-, hrest⟩ := List.append_inj' hsplit (by simp [hlength])
    cases hrest
    exact ⟨rfl, rfl⟩
  constructor
  · intro hstands
    cases hstands with
    | own hprovides =>
      rw [hprovides.holds] at h
      cases h
    | supplied _ hlocated' hsplit hprovides =>
      obtain ⟨rfl, rfl⟩ := hunique hlocated' hsplit
      exact .inl hprovides
    | renamed _ hlocated' hsplit hnone hrenames hstands =>
      obtain ⟨rfl, rfl⟩ := hunique hlocated' hsplit
      exact .inr ⟨hnone, _, hrenames, hstands⟩
  · rintro (hprovides | ⟨hnone, f', hrenames, hstands⟩)
    · exact .supplied h hlocated rfl hprovides
    · exact .renamed h hlocated rfl hnone hrenames hstands

end Registry

/-! ## What a body builds -/

namespace Body.Emitted

variable {older : List Frame}

/-- What a declaration builds, the registry holds for a dependency of the component. -/
theorem exists_edge (h : s.Emitted registry older) {e : Emission} (he : e ∈ s.declarations)
    (hbuilds : e.builder? = some (f, t)) : ∃ q, registry.Edge s.component f q ∧ q.concreteType = t := by
  obtain ⟨q, hq, rfl, rfl⟩ :
      ∃ q, e.component? = some q ∧ e.property = f ∧ q.concreteType = t := by
    cases e <;> cases hbuilds <;> exact ⟨_, rfl, rfl, rfl⟩
  obtain ⟨d, hd, hproperty, type, htype, hproducer⟩ := h.exists_producer he hq
  have hfound := (Resolution.producer_eq_ok_iff.1 hproducer).1
  exact ⟨q, ⟨d, hd, hproperty, type, htype, hfound⟩, rfl⟩

/-- What the component has instantiated, its body builds. -/
theorem exists_builder (h : s.Emitted registry older) {q : Component}
    (hedge : registry.Edge s.component f q) :
    ∃ e ∈ s.declarations, ∃ t, e.builder? = some (f, t) := by
  obtain ⟨d, hd, rfl, type, htype, -⟩ := hedge
  obtain ⟨declarations, hfulfills, hperm⟩ := h.fulfills
  have hdeclared : d.isDeclared = true := by
    unfold Dependency.producedType? at htype
    unfold Dependency.isDeclared
    cases horigin : d.origin <;> simp_all
  obtain ⟨e, he, hfulfilled⟩ :=
    exists_of_mem_forall₂ hfulfills.flip d (List.mem_filter.2 ⟨hd, hdeclared⟩)
  refine ⟨e, hperm.mem_iff.1 he, ?_⟩
  cases hfulfilled with
  | renamed horigin => simp [Dependency.producedType?, horigin] at htype
  | recursive => exact ⟨_, rfl⟩
  | built => exact ⟨_, rfl⟩

/-- If the component has a property instantiated, what is pointed at from its body is built for it. -/
theorem edge_of_pointsAt (h : s.Emitted registry older) {rest : List (List Emission)} {q : Component}
    (hedge : registry.Edge s.component f q)
    (hpoints : Emission.PointsAt f (s.declarations :: rest) t) :
    ∃ q, registry.Edge s.component f q ∧ q.concreteType = t := by
  rcases hpoints.built_or_passed with ⟨e, he, hbuilds⟩ | ⟨hnone, -⟩
  · exact h.exists_edge he hbuilds
  · obtain ⟨e, he, t', hbuilds⟩ := h.exists_builder hedge
    exact absurd hbuilds (hnone e he t')

/-- A body whose component does not have a property instantiated is passed over. -/
theorem pointsAt_of_not_edge (h : s.Emitted registry older) {rest : List (List Emission)}
    (hnone : ∀ q, ¬ registry.Edge s.component f q)
    (hpoints : Emission.PointsAt f (s.declarations :: rest) t) : Emission.PointsAt f rest t := by
  rcases hpoints.built_or_passed with ⟨e, he, hbuilds⟩ | ⟨-, hrest⟩
  · obtain ⟨q, hq, -⟩ := h.exists_edge he hbuilds
    exact absurd hq (hnone q)
  · exact hrest

end Body.Emitted

/-! ## Where an edge points -/

/-- The bodies around something are emitted, too. -/
theorem emitted_of_mem (h : registry.build limit root = .ok g) (hb : g.Contains outer b)
    (hs : s ∈ b :: outer.map (·.body)) : ∃ older, s.Emitted registry older := by
  obtain ⟨inner, older, hsplit⟩ := List.append_of_mem hs
  exact ⟨_, emitted_of_append h hb hsplit⟩

/-- Bodies whose components do not have a property instantiated are passed over. -/
theorem pointsAt_of_append {rest : List Body} : ∀ {nearer : List Body},
    (∀ s ∈ nearer, (∃ older, s.Emitted registry older) ∧ ∀ q, ¬ registry.Edge s.component f q) →
      Emission.PointsAt f ((nearer ++ rest).map (·.declarations)) t →
      Emission.PointsAt f (rest.map (·.declarations)) t
  | [], _, hpoints => hpoints
  | first :: nearer, hnearer, hpoints => by
    obtain ⟨⟨⟨older, hemitted⟩, hnone⟩, hnearer⟩ := List.forall_mem_cons.1 hnearer
    exact pointsAt_of_append hnearer (hemitted.pointsAt_of_not_edge hnone hpoints)

/-- What is pointed at from the body of the supplier is what the supplier has itself, if the supplier
builds the property, or has it passed in and nothing further out builds it as another type. -/
theorem provides_iff {older : List Frame} {rest : List (List Emission)} (h : s.Emitted registry older)
    (hpoints : Emission.PointsAt f (s.declarations :: rest) t) :
    registry.Provides s.component f t ↔
      (∃ q, registry.Edge s.component f q) ∨ f ∈ s.component.forwarded ∧ t = f.type.produced := by
  constructor
  · rintro (hedge | hforwarded)
    · exact .inl ⟨_, hedge⟩
    · exact .inr ⟨hforwarded, rfl⟩
  · rintro (⟨q, hedge⟩ | ⟨hforwarded, rfl⟩)
    · obtain ⟨q, hedge, rfl⟩ := h.edge_of_pointsAt hedge hpoints
      exact .built hedge
    · exact .forwarded hforwarded

/-- The body whose component resolution has found as the supplier. -/
theorem exists_enclosure_of_locateIn {frame : Frame} {index : Nat}
    (h : Chain.locateIn f (frame :: outer.map (·.body.frame)) = .available index) :
    ∃ newer l older, outer = newer ++ l :: older ∧ index = older.length ∧
      ∀ l' ∈ newer, f ∉ l'.body.component.supplied := by
  obtain ⟨above, s, rest, hsplit, rfl, -, habove⟩ := Chain.exists_supplier_of_locateIn h
  obtain ⟨newer, further, rfl, rfl, hfurther⟩ := List.map_eq_append_iff.1 hsplit
  obtain ⟨l, older, rfl, rfl, rfl⟩ := List.map_eq_cons_iff.1 hfurther
  exact ⟨newer, l, older, rfl, List.length_map _,
    fun l' hl' => habove _ (List.mem_map_of_mem hl')⟩

/-- The supplier of an alias whose component does not hold the property itself: what is pointed at from
the alias is what is pointed at from there, since no body in between has the property instantiated. -/
theorem Registry.exists_supplier_of_not_holds (h : registry.build limit root = .ok g)
    (hb : g.Contains outer b) (hholds : b.component.holds f = false) (hrequired : f ∈ b.component.required)
    (hpoints : Emission.PointsAt f ((b :: outer.map (·.body)).map (·.declarations)) t) :
    ∃ nearer s older, b :: outer.map (·.body) = nearer ++ s :: older ∧
      b.supplier? outer f = some older.length ∧
      Emission.PointsAt f ((s :: older).map (·.declarations)) t ∧
      (registry.StandsFor (b.frame :: outer.map (·.body.frame)) f t ↔
        registry.Provides s.component f t ∨ s.component.holds f = false ∧
          ∃ f', s.component.Renames f f' ∧
            registry.StandsFor ((s :: older).map Body.frame) f' t) := by
  have hemitted := emitted_of_contains h hb
  obtain ⟨index, hlocated⟩ := (hemitted.holds_or_located hrequired).resolve_left (by simp [hholds])
  obtain ⟨newer, l, older, rfl, hindex, hnewer⟩ := exists_enclosure_of_locateIn hlocated
  have hsplit : b :: (newer ++ l :: older).map (·.body) =
      (b :: newer.map (·.body)) ++ l.body :: older.map (·.body) := by simp
  have hpassed : ∀ s ∈ b :: newer.map (·.body),
      (∃ older, s.Emitted registry older) ∧ ∀ q, ¬ registry.Edge s.component f q := by
    intro s hs
    refine ⟨emitted_of_mem h hb (hsplit ▸ List.mem_append_left _ hs), fun q hedge => ?_⟩
    have hs' := holds_of_edge hedge
    rcases List.mem_cons.1 hs with rfl | hs
    · rw [hholds] at hs'
      cases hs'
    · obtain ⟨l', hl', rfl⟩ := List.mem_map.1 hs
      exact hnewer l' hl' (Component.mem_supplied_of_holds hs')
  have hstands : registry.StandsFor (b.frame :: (newer ++ l :: older).map (·.body.frame)) f t ↔
      registry.Provides l.body.component f t ∨ l.body.component.holds f = false ∧
        ∃ f', l.body.component.Renames f f' ∧
          registry.StandsFor (l.body.frame :: older.map (·.body.frame)) f' t := by
    rw [List.map_append, List.map_cons, hindex, ← List.length_map (·.body.frame)] at hlocated
    rw [List.map_append, List.map_cons]
    exact standsFor_located_iff _ hholds hlocated
  rw [hsplit] at hpoints
  refine ⟨b :: newer.map (·.body), l.body, older.map (·.body), hsplit, ?_,
    pointsAt_of_append hpassed hpoints, ?_⟩
  · rw [Body.supplier?, hholds, if_neg Bool.false_ne_true, hlocated, hindex, List.length_map]
  · simpa [Function.comp_def] using hstands

/-- **Where the edge of an alias points.** It is drawn to what the nearest body that builds `f` builds,
from the supplier on that resolution has found. So it points at what the alias stands for exactly if the
supplier has `f` instantiated; or `f` is passed in to the supplier, and nothing further out builds it as
another type than that of `f`; or the supplier knows `f` by an alias only, and what is drawn happens to be
what that alias stands for. -/
theorem Registry.alias_edge_iff (h : registry.build limit root = .ok g) (hb : g.Contains outer b)
    {erased : Bool} (he : .renamed p f erased ∈ b.declarations) :
    ∃ t nearer s older,
      (Emission.renamed p f erased).ownSteps (b.builders outer) b.component.concreteType =
        [.node t .received,
          .edge ⟨b.component.concreteType, t, p.label ++ " = " ++ f.label, .renamed⟩] ∧
      (∀ roots, g ∈ roots →
        ⟨b.component.concreteType, t, p.label ++ " = " ++ f.label, .renamed⟩ ∈
          (Graph.ofRoots roots).edges) ∧
      b :: outer.map (·.body) = nearer ++ s :: older ∧ b.supplier? outer f = some older.length ∧
      Emission.PointsAt f ((s :: older).map (·.declarations)) t ∧
      (registry.StandsFor (b.frame :: outer.map (·.body.frame)) f t ↔
        (∃ q, registry.Edge s.component f q) ∨
        (f ∈ s.component.forwarded ∧ t = f.type.produced) ∨
        (s.component.holds f = false ∧
          ∃ f', s.component.Renames f f' ∧
            registry.StandsFor ((s :: older).map Body.frame) f' t)) := by
  obtain ⟨t, hpoints⟩ := Emission.exists_pointsAt f ((b :: outer.map (·.body)).map (·.declarations))
  have hown : (Emission.renamed p f erased).ownSteps (b.builders outer) b.component.concreteType =
      [.node t .received,
        .edge ⟨b.component.concreteType, t, p.label ++ " = " ++ f.label, .renamed⟩] := by
    rw [hpoints.eq_aliasTarget]
    rfl
  have hdrawn : ∀ roots, g ∈ roots →
      ⟨b.component.concreteType, t, p.label ++ " = " ++ f.label, .renamed⟩ ∈
        (Graph.ofRoots roots).edges := by
    intro roots hg
    refine Graph.mem_edges_ofRoots.2 ⟨g, hg, RootEmission.mem_steps_iff.2 (.inr ⟨_, _, hb, _, he, ?_⟩)⟩
    simp [hown]
  have hemitted := emitted_of_contains h hb
  cases hholds : b.component.holds f with
  | true =>
    -- the component is its own supplier
    have hprovides := provides_iff hemitted hpoints
    have hstands : registry.StandsFor (b.frame :: outer.map (·.body.frame)) f t ↔
        registry.Provides b.component f t := standsFor_own_iff hholds
    refine ⟨t, [], b, outer.map (·.body), hown, hdrawn, rfl, ?_, hpoints, ?_⟩
    · rw [Body.supplier?, if_pos hholds, List.length_map]
    · rw [hstands]
      simpa [hholds] using hprovides
  | false =>
    -- the supplier is further out
    have hrequired : f ∈ b.component.required := by
      obtain ⟨d, hd, hfulfills⟩ := hemitted.exists_fulfills he
      cases hfulfills with
      | renamed horigin =>
        exact List.mem_filterMap.2 ⟨d, hd, by simp [Dependency.required?, horigin]⟩
    obtain ⟨nearer, s, older, hsplit, hsupplier, hpoints, hstands⟩ :=
      exists_supplier_of_not_holds h hb hholds hrequired hpoints
    have hs : s ∈ b :: outer.map (·.body) := by simp [hsplit]
    obtain ⟨_, hs⟩ := emitted_of_mem h hb hs
    refine ⟨t, nearer, s, older, hown, hdrawn, hsplit, hsupplier, hpoints, ?_⟩
    rw [hstands, provides_iff hs hpoints, or_assoc]

/-- The journal of the shop is another name for its ledger, and so the edge points at the ledger. -/
theorem journal_points_at_ledger :
    Registry.build ⟨[shop, ledger, counter, till]⟩ 256 shop = .ok shopEmission ∧
      ⟨shop.concreteType, ledger.concreteType, "journal = ledger", .renamed⟩ ∈
        (Graph.ofRoots [shopEmission]).edges ∧
      Registry.StandsFor ⟨[shop, ledger, counter, till]⟩ [⟨shop, none⟩]
        ⟨"ledger", .simple "Ledger" []⟩ ledger.concreteType := by
  have hbuild : Registry.build ⟨[shop, ledger, counter, till]⟩ 256 shop = .ok shopEmission := by
    with_unfolding_all rfl
  obtain ⟨t, nearer, s, older, hown, hdrawn, hsplit, hsupplier, -, hstands⟩ :=
    Registry.alias_edge_iff hbuild .root (List.mem_cons_of_mem _ List.mem_cons_self)
  cases hown
  obtain ⟨rfl, rfl, rfl⟩ : nearer = [] ∧ s = ⟨none, shop, none, shopEmission.body⟩ ∧ older = [] := by
    cases nearer with
    | nil =>
      cases hsplit
      exact ⟨rfl, rfl, rfl⟩
    | cons first nearer =>
      have hlength := congrArg List.length hsplit
      simp at hlength
  refine ⟨hbuild, hdrawn _ List.mem_cons_self, hstands.2 (.inl ⟨ledger, ?_⟩)⟩
  exact ⟨⟨⟨"ledger", .simple "Ledger" []⟩, .instantiated none false⟩,
    List.mem_cons_of_mem _ List.mem_cons_self, rfl, .simple "Ledger" [], by decide, by rfl⟩

/-! ## Edges that point elsewhere -/

/-- A museum has a statue as its exhibit, and a hall. -/
def museum : Component :=
  ⟨.simple "Museum" [], [], true, none,
    [⟨⟨"exhibit", .simple "Exhibit" []⟩, .instantiated (some (.simple "Statue" [])) false⟩,
      ⟨⟨"hall", .simple "Hall" []⟩, .instantiated none false⟩], .classType⟩

/-- A hall has the exhibit on display, and a guide. -/
def hall : Component :=
  ⟨.simple "Hall" [], [], false, none,
    [⟨⟨"display", .simple "Display" []⟩, .aliased ⟨"exhibit", .simple "Exhibit" []⟩ false⟩,
      ⟨⟨"guide", .simple "Guide" []⟩, .instantiated none false⟩], .classType⟩

/-- A guide talks about what is on display. -/
def guide : Component :=
  ⟨.simple "Guide" [], [], false, none,
    [⟨⟨"topic", .simple "Topic" []⟩, .aliased ⟨"display", .simple "Display" []⟩ false⟩], .classType⟩

def statue : Component :=
  ⟨.simple "Statue" [], [], false, none, [], .structType⟩

/-- The body of the guide. -/
def guideBody : Body :=
  ⟨some ⟨"guide", .simple "Guide" []⟩, guide, some "__wg_guide",
    [.renamed ⟨"topic", .simple "Topic" []⟩ ⟨"display", .simple "Display" []⟩ false]⟩

/-- The body of the hall. -/
def hallBody : Body :=
  ⟨some ⟨"hall", .simple "Hall" []⟩, hall, some "__wg_hall",
    [.renamed ⟨"display", .simple "Display" []⟩ ⟨"exhibit", .simple "Exhibit" []⟩ false,
      .built ⟨"guide", .simple "Guide" []⟩ guide false (some "__wg_guide") guideBody.declarations]⟩

/-- What is emitted for the museum. -/
def museumEmission : RootEmission :=
  ⟨museum, [.built ⟨"exhibit", .simple "Exhibit" []⟩ statue false none [],
    .built ⟨"hall", .simple "Hall" []⟩ hall false (some "__wg_hall") hallBody.declarations]⟩

/-- What resolution gives back for the museum. -/
def museumScope : Scope :=
  ⟨museum, [.built ⟨"exhibit", .simple "Exhibit" []⟩ statue [] false,
    .built ⟨"hall", .simple "Hall" []⟩ hall
      [.renamed ⟨"display", .simple "Display" []⟩ ⟨"exhibit", .simple "Exhibit" []⟩ false,
        .built ⟨"guide", .simple "Guide" []⟩ guide
          [.renamed ⟨"topic", .simple "Topic" []⟩ ⟨"display", .simple "Display" []⟩ false] false]
      false]⟩

theorem museum_emit : museumScope.emit = .ok museumEmission := by
  have hguide : Emission.arrange guide guideBody.declarations = .ok guideBody.declarations := by cbv
  have hhall : Emission.arrange hall hallBody.declarations = .ok hallBody.declarations := by cbv
  have hmuseum : Emission.arrange museum museumEmission.body = .ok museumEmission.body := by cbv
  have hexhibit : (⟨"exhibit", .simple "Exhibit" []⟩ : Property).isDeferred = false := by decide
  have hfirst : Factory.freshName [] ⟨"hall", .simple "Hall" []⟩ = "__wg_hall" := by
    with_unfolding_all rfl
  have hsecond : Factory.freshName ["__wg_hall"] ⟨"guide", .simple "Guide" []⟩ = "__wg_guide" := by
    with_unfolding_all rfl
  simp only [guideBody, hallBody, museumEmission] at hguide hhall hmuseum
  simp [Scope.emit, museumScope, Binding.emitAll, Binding.emit, hexhibit, hfirst, hsecond, hguide, hhall,
    hmuseum, museumEmission, hallBody, guideBody, bind, Except.bind, pure, Except.pure]

theorem museum_build :
    Registry.build ⟨[museum, hall, guide, statue]⟩ 256 museum = .ok museumEmission := by
  have hresolve : Registry.resolve ⟨[museum, hall, guide, statue]⟩ 256 museum = .ok museumScope := by
    with_unfolding_all rfl
  simp [Registry.build, hresolve, museum_emit, bind, Except.bind, Except.mapError]

/-- **The edge of an alias need not point at what the alias stands for.** The guide's topic is what the
hall displays, and that is the statue; but the hall knows the display by an alias only, so nothing builds
it, and the edge points at a type `Display` that no component has. -/
theorem alias_edge_misses_producer :
    ¬ ∀ (components : List Component) (registry : Registry) (limit : Nat) (root : Component)
        (g : RootEmission) (outer : List Enclosure) (b : Body) (p f : Property) (erased : Bool)
        (t : TypeExpr),
      Registry.register components = .ok registry → root ∈ registry.roots →
      registry.build limit root = .ok g → g.Contains outer b →
      .renamed p f erased ∈ b.declarations →
      .edge ⟨b.component.concreteType, t, p.label ++ " = " ++ f.label, .renamed⟩ ∈
        (Emission.renamed p f erased).ownSteps (b.builders outer) b.component.concreteType →
      registry.StandsFor (b.frame :: outer.map (·.body.frame)) f t := by
  intro h
  have hregister : Registry.register [museum, hall, guide, statue] =
      .ok ⟨[museum, hall, guide, statue]⟩ := by rfl
  have hhall : museumEmission.Contains
      [⟨⟨none, museum, none, museumEmission.body⟩, museumEmission.body.take 1⟩] hallBody :=
    .inner .root rfl
  have hguide : museumEmission.Contains [⟨hallBody, hallBody.declarations.take 1⟩, _] guideBody :=
    .inner hhall rfl
  have htopic := h _ _ 256 museum museumEmission _ guideBody _ _ _ (.simple "Display" []) hregister
    List.mem_cons_self museum_build hguide List.mem_cons_self
    (List.mem_cons_of_mem _ List.mem_cons_self)
  -- the supplier of the display is the hall, and that of the exhibit is the museum
  have hdisplay := (Registry.standsFor_located_iff [] (by decide) (by rfl)).1 htopic
  rcases hdisplay with hprovides | ⟨-, f', ⟨d, hd, hf, erased, horigin⟩, hexhibit⟩
  · exact absurd hprovides.holds (by decide)
  obtain rfl : f' = ⟨"exhibit", .simple "Exhibit" []⟩ := by
    rcases List.mem_cons.1 hd with rfl | hd
    · cases horigin
      rfl
    · cases List.mem_singleton.1 hd
      cases horigin
  have hstatue := (Registry.standsFor_located_iff [] (by decide) (by rfl)).1 hexhibit
  rcases hstatue with hprovides | ⟨hnone, -⟩
  · generalize htype : TypeExpr.simple "Display" [] = t at hprovides
    cases hprovides with
    | built hedge =>
      obtain ⟨d, hd, hproperty, type, htype', hproducer⟩ := hedge
      rcases List.mem_cons.1 hd with rfl | hd
      · cases htype'
        cases hproducer
        exact absurd htype (by decide)
      · cases List.mem_singleton.1 hd
        exact absurd hproperty (by decide)
    | forwarded hforwarded =>
      obtain ⟨d, hd, hpassed, -⟩ := Component.mem_forwarded.1 hforwarded
      have hnone : ∀ d ∈ museum.dependencies, d.isForwarded = false := by decide
      rw [hnone d hd] at hpassed
      cases hpassed
  · exact absurd hnone (by decide)

end Wiring
