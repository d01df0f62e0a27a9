import Wiring.Program
import Wiring.Proofs.Component.Arguments
import Wiring.Proofs.Emission.Order
import Wiring.Proofs.Emission.Steps
import Wiring.Proofs.Fulfillment
import Wiring.Proofs.Resolution.Tree

/-!
# The bodies of an emission

What is emitted for a root is a tree of bodies: one for the root and one for each value that is built.
Every body comes from a component that resolves at the end of a chain, and the bodies around it are those
of the chain's other components.

* `RootEmission.Contains`: the bodies of a root, each with what is emitted around it.
* `Body.Emitted`: the invariant of every body.
* `emitted_of_contains`: it holds, by way of `Emitted.fulfills` for one step down.
-/

namespace Wiring

variable {registry : Registry} {limit : Nat} {root : Component} {g : RootEmission}

/-- What is built somewhere, and what is declared for it. -/
structure Body where
  /-- The property that holds the value or a factory for it; absent for a root. -/
  via : Option Property
  component : Component
  /-- The nested function whose body this is; absent for a root and for a value built in place. -/
  function : Option String
  declarations : List Emission

/-- A body around something, with its declarations up to there. -/
structure Enclosure where
  body : Body
  earlier : List Emission

namespace Body

/-- The component in a chain. -/
def frame (b : Body) : Frame :=
  ⟨b.component, b.via⟩

/-- What has to be in scope around the body. -/
def required (b : Body) : List Property :=
  b.component.needs (Emission.requiredAll b.declarations)

/-- The parameters of the nested function: only a factory has any. -/
def parameters (b : Body) : List Property :=
  if b.function.isSome && b.via.any (·.isDeferred) then b.component.forwarded else []

end Body

/-- What can be used after the declarations of a body that have been emitted, the latest one first. -/
def Enclosure.visible (l : Enclosure) : List Property :=
  (l.earlier.map Emission.property).reverse ++ l.body.parameters

/-- **The bodies that are emitted for a root**, each with those around it, the innermost one first. -/
inductive RootEmission.Contains (g : RootEmission) : List Enclosure → Body → Prop
  | root : Contains g [] ⟨none, g.component, none, g.body⟩
  | inner {outer : List Enclosure} {b : Body} {earlier later body : List Emission} {p : Property}
      {c : Component} {erased : Bool} {function : Option String} :
    Contains g outer b → b.declarations = earlier ++ .built p c erased function body :: later →
      Contains g (⟨b, earlier⟩ :: outer) ⟨some p, c, function, body⟩

/-! ## From bindings to declarations -/

namespace Body

/-- **A body is what is emitted for a component** that resolves below the frames `older`. -/
structure Emitted (registry : Registry) (older : List Frame) (b : Body) : Prop where
  arranged : ∃ room bindings enclosing before declarations after,
    Resolution.Resolves registry room b.frame older b.component.dependencies bindings ∧
      Binding.emitAll enclosing before bindings = .ok (declarations, after) ∧
      Emission.arrange b.component declarations = .ok b.declarations
  called : ∃ text, b.component.argumentList = .ok text
  factory : b.component.hasForwarded = true →
    b.function.isSome = true ∧ b.via.any (·.isDeferred) = true

end Body

/-- **A declaration fulfills a dependency** of the component at the end of a chain. -/
inductive Emission.Fulfills (registry : Registry) (frames : List Frame) (d : Dependency) :
    Emission → Prop
  | renamed {fulfilling : Property} {erased : Bool} :
    d.origin = .aliased fulfilling erased →
      Fulfills registry frames d (.renamed d.property fulfilling erased)
  | recursive {q : Component} {function : String} {fulfilling : Option TypeExpr} {erased : Bool} :
    d.origin = .instantiated fulfilling erased →
      Fulfills registry frames d (.recursive d.property q function)
  | built {q : Component} {function : Option String} {body : List Emission}
      {fulfilling : Option TypeExpr} {erased : Bool} :
    d.origin = .instantiated fulfilling erased → q ∈ registry.components →
      Body.Emitted registry frames ⟨some d.property, q, function, body⟩ →
      Fulfills registry frames d (.built d.property q erased function body)

namespace Emission

/-- The component that a declaration builds, or that the function it refers back to builds. -/
def component? : Emission → Option Component
  | .built _ c _ _ _ | .recursive _ c _ => some c
  | .renamed _ _ _ => none

variable {frames : List Frame} {d : Dependency} {e : Emission}

theorem Fulfills.property_eq (h : e.Fulfills registry frames d) : e.property = d.property := by
  cases h <;> rfl

theorem Fulfills.isDeclared (h : e.Fulfills registry frames d) : d.isDeclared = true := by
  unfold Dependency.isDeclared
  cases h <;> simp [*]

/-- One dependency is emitted. -/
theorem fulfills_of_emit {room : Nat} {frame : Frame} {older : List Frame} {binding : Binding}
    {enclosing : List Factory} {before after : List String}
    (h : Resolution.Declares registry room frame older d binding)
    (hemit : binding.emit enclosing before = .ok (e, after)) :
    e.Fulfills registry (frame :: older) d := by
  cases h with
  | renamed horigin =>
    cases hemit
    exact .renamed horigin
  | recursive horigin =>
    obtain ⟨factory, -, rfl, -⟩ := Binding.emit_recursive_eq_ok hemit
    exact .recursive horigin
  | @built less q fulfilling erased text inner _ horigin hproducer htext hinner =>
    obtain ⟨hq, hforwarded, -⟩ := Resolution.producer_eq_ok_iff.1 hproducer
    have hmem := Registry.mem_of_fulfilling hq
    rcases Binding.emit_built_eq_ok hemit with ⟨hplain, rfl, rfl, -⟩ | ⟨declarations, body, hall,
      harrange, rfl⟩
    · -- the value is built in place, so its component declares nothing
      refine .built horigin hmem ⟨⟨_, _, [], [], _, _, hinner, rfl, rfl⟩, ⟨text, htext⟩, ?_⟩
      intro hq
      rw [hforwarded hplain] at hq
      cases hq
    · -- the value is built by a nested function
      refine .built horigin hmem ⟨⟨_, _, _, _, _, _, hinner, hall, harrange⟩, ⟨text, htext⟩, ?_⟩
      intro hq
      refine ⟨rfl, ?_⟩
      by_contra hp
      simp only [Option.any_some, Bool.not_eq_true] at hp
      rw [hforwarded hp] at hq
      cases hq

/-- Several dependencies are emitted, one after the other. -/
theorem fulfills_of_emitAll {room : Nat} {frame : Frame} {older : List Frame}
    {enclosing : List Factory} {ds : List Dependency} {bindings : List Binding}
    (h : List.Forall₂ (Resolution.Declares registry room frame older) ds bindings) :
    ∀ {before after : List String} {declarations : List Emission},
      Binding.emitAll enclosing before bindings = .ok (declarations, after) →
      List.Forall₂ (Fulfills registry (frame :: older)) ds declarations := by
  induction h with
  | nil =>
    intro before after declarations hemit
    cases hemit
    exact .nil
  | cons hfirst _ ih =>
    intro before after declarations hemit
    obtain ⟨e, middle, rest, he, hrest, rfl⟩ := Binding.emitAll_cons_eq_ok hemit
    exact .cons (fulfills_of_emit hfirst he) (ih hrest)

end Emission

/-! ## What holds of one body -/

theorem exists_of_mem_forall₂ {α β : Type} {R : α → β → Prop} {as : List α} {bs : List β}
    (h : List.Forall₂ R as bs) : ∀ b ∈ bs, ∃ a ∈ as, R a b := by
  induction h with
  | nil => simp
  | cons hab _ ih =>
    intro b hb
    rcases List.mem_cons.1 hb with rfl | hb
    · exact ⟨_, List.mem_cons_self, hab⟩
    · obtain ⟨a, ha, hab⟩ := ih b hb
      exact ⟨a, List.mem_cons_of_mem _ ha, hab⟩

/-- The parameters of a factory's function are what is forwarded to the component. -/
theorem Body.mem_parameters {b : Body} {p : Property} :
    p ∈ b.parameters ↔ b.function.isSome = true ∧ b.via.any (·.isDeferred) = true ∧
      ∃ d ∈ b.component.dependencies, d.isForwarded = true ∧ d.property = p := by
  rw [← Component.mem_forwarded, ← and_assoc, ← Bool.and_eq_true]
  unfold parameters
  split
  · rename_i hfactory
    simp [hfactory]
  · rename_i hplain
    simp [hplain]

theorem Emission.mem_requiredAll {p : Property} :
    ∀ {es : List Emission}, p ∈ requiredAll es ↔ ∃ e ∈ es, p ∈ e.required
  | [] => by simp [requiredAll]
  | e :: es => by simp [requiredAll, mem_requiredAll]

namespace Body.Emitted

variable {older : List Frame} {b : Body} {p : Property}

/-- **The declarations of a body fulfill the dependencies** that its component declares, one each. -/
theorem fulfills (h : b.Emitted registry older) :
    ∃ declarations, List.Forall₂ (Emission.Fulfills registry (b.frame :: older))
        (b.component.dependencies.filter (·.isDeclared)) declarations ∧
      declarations.Perm b.declarations := by
  obtain ⟨room, bindings, enclosing, before, declarations, after, hresolves, hemit, harrange⟩ :=
    h.arranged
  exact ⟨declarations, Emission.fulfills_of_emitAll hresolves.declares hemit,
    (Emission.arrange_perm harrange).symm⟩

/-- **A declaration of a body is emitted for a dependency** that is declared there. -/
theorem exists_declares (h : b.Emitted registry older) {e : Emission} (he : e ∈ b.declarations) :
    ∃ d ∈ b.component.dependencies, ∃ room binding enclosing before after,
      Resolution.Declares registry room b.frame older d binding ∧
        binding.emit enclosing before = .ok (e, after) := by
  obtain ⟨room, bindings, enclosing, before, declarations, after, hresolves, hall, harrange⟩ :=
    h.arranged
  have he := (Emission.arrange_perm harrange).mem_iff.1 he
  obtain ⟨binding, hbinding, before', after', hemit⟩ := exists_emit_of_mem hall he
  obtain ⟨d, hd, hdeclares⟩ := exists_of_mem_forall₂ hresolves.declares _ hbinding
  exact ⟨d, List.mem_of_mem_filter hd, room, binding, enclosing, before', after', hdeclares, hemit⟩

/-- **What a declaration builds or refers to is the producer** of the dependency that it is emitted for. -/
theorem exists_producer (h : b.Emitted registry older) {e : Emission} {q : Component}
    (he : e ∈ b.declarations) (hq : e.component? = some q) :
    ∃ d ∈ b.component.dependencies, d.property = e.property ∧ ∃ type, d.producedType? = some type ∧
      Resolution.producer registry b.component e.property type = .ok q := by
  obtain ⟨d, hd, room, binding, enclosing, before, after, hdeclares, hemit⟩ := h.exists_declares he
  cases hdeclares with
  | renamed => cases hemit; cases hq
  | recursive horigin hproducer =>
    obtain ⟨factory, -, rfl, -⟩ := Binding.emit_recursive_eq_ok hemit
    cases hq
    exact ⟨d, hd, rfl, _, by simp [Dependency.producedType?, horigin], hproducer⟩
  | built _ horigin hproducer =>
    rcases Binding.emit_built_eq_ok hemit with ⟨-, -, rfl, -⟩ | ⟨_, _, -, -, rfl⟩ <;> cases hq <;>
      exact ⟨d, hd, rfl, _, by simp [Dependency.producedType?, horigin], hproducer⟩

/-- What refers back to a function is a factory. -/
theorem isDeferred_of_recursive (h : b.Emitted registry older) {q : Component} {function : String}
    (he : Emission.recursive p q function ∈ b.declarations) : p.isDeferred = true := by
  obtain ⟨d, -, room, binding, enclosing, before, after, hdeclares, hemit⟩ := h.exists_declares he
  cases hdeclares with
  | renamed => cases hemit
  | recursive _ _ hback =>
    obtain ⟨factory, -, heq, -⟩ := Binding.emit_recursive_eq_ok hemit
    cases heq
    exact (Chain.hasDeferredStep_eq_true_iff.1 hback).1
  | built =>
    rcases Binding.emit_built_eq_ok hemit with ⟨-, -, heq, -⟩ | ⟨_, _, -, -, heq⟩ <;> cases heq

theorem exists_fulfills (h : b.Emitted registry older) {e : Emission} (he : e ∈ b.declarations) :
    ∃ d ∈ b.component.dependencies, e.Fulfills registry (b.frame :: older) d := by
  obtain ⟨d, hd, room, binding, enclosing, before, after, hdeclares, hemit⟩ := h.exists_declares he
  exact ⟨d, hd, Emission.fulfills_of_emit hdeclares hemit⟩

theorem settled (h : b.Emitted registry older) :
    ∀ d ∈ b.component.dependencies, Resolution.Settled b.frame older d := by
  obtain ⟨room, bindings, -, -, -, -, hresolves, -, -⟩ := h.arranged
  exact hresolves.settled

/-- What the component supplies is a parameter, or the body declares it. -/
theorem held_of_supplied (h : b.Emitted registry older) (hp : p ∈ b.component.supplied) :
    p ∈ b.parameters ∨ ∃ e ∈ b.declarations, e.property = p := by
  obtain ⟨d, hd, hsupplied, rfl⟩ := Component.mem_supplied.1 hp
  rcases Dependency.isSupplied_iff.1 hsupplied with hdeclared | hforwarded
  · obtain ⟨declarations, hfulfills, hperm⟩ := h.fulfills
    obtain ⟨e, he, hfulfilled⟩ :=
      exists_of_mem_forall₂ hfulfills.flip d (List.mem_filter.2 ⟨hd, hdeclared⟩)
    exact .inr ⟨e, hperm.mem_iff.1 he, hfulfilled.property_eq⟩
  · obtain ⟨hfunction, hdeferred⟩ := h.factory (List.any_eq_true.2 ⟨d, hd, hforwarded⟩)
    exact .inl (mem_parameters.2 ⟨hfunction, hdeferred, d, hd, hforwarded, rfl⟩)

/-- **What a declaration needs** comes from outside, or it is a parameter, or it is declared before. -/
theorem declared_before (h : b.Emitted registry older) {earlier later : List Emission} {e : Emission}
    (hsplit : b.declarations = earlier ++ e :: later) (hp : p ∈ e.required) :
    p ∈ b.required ∨ p ∈ b.parameters ∨ ∃ e' ∈ earlier, e'.property = p := by
  by_cases hsupplied : p ∈ b.component.supplied
  · rcases h.held_of_supplied hsupplied with hparameter | hdeclared
    · exact .inr (.inl hparameter)
    · obtain ⟨_, _, _, _, _, _, _, _, harrange⟩ := h.arranged
      exact .inr (.inr (Emission.declared_before_of_arrange harrange hsplit hp hdeclared))
  · have hall : p ∈ Emission.requiredAll b.declarations :=
      Emission.mem_requiredAll.2 ⟨e, by simp [hsplit], hp⟩
    exact .inl (Component.mem_needs.2 ⟨.inr hall, hsupplied⟩)

/-- What the component receives or renames it holds itself, or an ancestor supplies it. -/
theorem holds_or_located (h : b.Emitted registry older) (hp : p ∈ b.component.required) :
    b.component.holds p = true ∨
      ∃ index, Chain.locateIn p (b.frame :: older) = .available index := by
  obtain ⟨d, hd, hrequired⟩ := List.mem_filterMap.1 hp
  have hsettled := h.settled d hd
  cases horigin : d.origin with
  | received =>
    simp only [Dependency.required?, horigin, Option.some.injEq] at hrequired
    simp only [Resolution.Settled, horigin, hrequired] at hsettled
    exact .inr hsettled
  | aliased fulfilling erased =>
    simp only [Dependency.required?, horigin, Option.some.injEq] at hrequired
    simp only [Resolution.Settled, horigin, hrequired] at hsettled
    exact hsettled
  | instantiated | forwarded => simp [Dependency.required?, horigin] at hrequired

/-- **What a body needs from outside, resolution has found**: from the body itself, the nearest ancestor
that supplies it can be used. -/
theorem located_of_required {older : List Frame} {b : Body} (h : b.Emitted registry older)
    (hp : p ∈ b.required) :
    ∃ index, Chain.locateIn p (b.frame :: older) = .available index := by
  obtain ⟨hneeded, hsupplied⟩ := Component.mem_needs.1 hp
  have hown : p ∈ b.component.required →
      ∃ index, Chain.locateIn p (b.frame :: older) = .available index := by
    intro hrequired
    rcases h.holds_or_located hrequired with hholds | hlocated
    · exact absurd (Component.mem_supplied_of_holds hholds) hsupplied
    · exact hlocated
  rcases hneeded with hrequired | hbelow
  · exact hown hrequired
  obtain ⟨e, he, hrequired⟩ := Emission.mem_requiredAll.1 hbelow
  obtain ⟨d, hd, hfulfills⟩ := h.exists_fulfills he
  cases hfulfills with
  | renamed horigin =>
    rw [Emission.required, List.mem_singleton] at hrequired
    exact hown (List.mem_filterMap.2 ⟨d, hd, by simp [Dependency.required?, horigin, hrequired]⟩)
  | recursive => simp [Emission.required] at hrequired
  | built _ _ hinner =>
    have hsmaller := List.sizeOf_lt_of_mem he
    obtain ⟨index, hlocated⟩ := hinner.located_of_required hrequired
    rw [Chain.locateIn_cons_of_not_supplied (show p ∉ b.frame.component.supplied from hsupplied)]
      at hlocated
    exact ⟨index, hlocated⟩
termination_by sizeOf b.declarations
decreasing_by
  simp at hsmaller ⊢
  omega

end Body.Emitted

/-! ## What holds of all bodies -/

/-- A root is built if its scope is resolved and emitted. -/
theorem Registry.build_eq_ok (h : registry.build limit root = .ok g) :
    ∃ scope, registry.resolve limit root = .ok scope ∧ scope.emit = .ok g := by
  obtain ⟨scope, hscope, hemit⟩ := bind_eq_ok_iff.1 h
  refine ⟨scope, hscope, ?_⟩
  cases hresult : scope.emit with
  | error fault => rw [hresult] at hemit; cases hemit
  | ok g' => rw [hresult] at hemit; cases hemit; rfl

theorem emitted_of_build (h : registry.build limit root = .ok g) :
    g.component = root ∧ Body.Emitted registry [] ⟨none, g.component, none, g.body⟩ := by
  obtain ⟨scope, hscope, hemit⟩ := Registry.build_eq_ok h
  obtain ⟨hroot, room, text, htext, hresolves⟩ := Registry.resolves_of_resolve hscope
  obtain ⟨declarations, after, hall, harrange, hcomponent⟩ := Scope.emit_eq_ok hemit
  rw [hroot] at harrange
  rw [hcomponent, hroot]
  refine ⟨rfl, ⟨⟨_, _, _, _, _, _, hresolves, hall, harrange⟩, ⟨text, htext⟩, ?_⟩⟩
  intro hforwarded
  obtain ⟨d, hd, hd'⟩ := List.any_eq_true.1 hforwarded
  have hsettled := hresolves.settled d hd
  unfold Resolution.Settled at hsettled
  unfold Dependency.isForwarded at hd'
  split at hd' <;> simp_all

/-- **Every body of a root is emitted for a component of a chain**, below the bodies around it. -/
theorem emitted_of_contains (h : registry.build limit root = .ok g) {outer : List Enclosure}
    {b : Body} (hb : g.Contains outer b) : b.Emitted registry (outer.map (·.body.frame)) := by
  induction hb with
  | root => exact (emitted_of_build h).2
  | @inner outer b earlier later body p c erased function _ hsplit ih =>
    have he : Emission.built p c erased function body ∈ b.declarations := by simp [hsplit]
    obtain ⟨d, -, hfulfills⟩ := ih.exists_fulfills he
    cases hfulfills with
    | built _ _ hinner => exact hinner

/-- The components of all bodies are registered, as the root is. -/
theorem mem_components_of_contains (hroot : root ∈ registry.components)
    (h : registry.build limit root = .ok g) {outer : List Enclosure} {b : Body}
    (hb : g.Contains outer b) : b.component ∈ registry.components := by
  induction hb with
  | root => rwa [(emitted_of_build h).1]
  | @inner outer b earlier later body p c erased function hb hsplit _ =>
    have he : Emission.built p c erased function body ∈ b.declarations := by simp [hsplit]
    obtain ⟨d, -, hfulfills⟩ := (emitted_of_contains h hb).exists_fulfills he
    cases hfulfills with
    | built _ hmem _ => exact hmem

theorem required_eq_nil_of_build (h : registry.build limit root = .ok g) : g.required = [] := by
  rw [List.eq_nil_iff_forall_not_mem]
  intro p hp
  -- a root has no ancestors
  obtain ⟨index, hlocated⟩ := (emitted_of_build h).2.located_of_required hp
  cases hlocated

end Wiring
