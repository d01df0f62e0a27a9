import Wiring.Proofs.Emission.Rearranged
import Wiring.Proofs.Emission.Scoping
import Wiring.Proofs.Program

/-!
# The order of declarations does not matter

Two lists of components may differ in the order in which the components declare their dependencies. As
long as none of them lists a property twice, a root has the same faults over both, is built over both or
over neither, and what it declares along a path of properties needs the same.

* `RootEmission.requiredAt`: what is needed at the end of a path of properties.
* `Registry.declaration_order_irrelevant`: a root over two such lists.
-/

namespace Wiring

/-! ## Paths of properties -/

namespace Emission

/-- What is declared in the body of a declaration. -/
def inner : Emission → List Emission
  | .built _ _ _ _ body => body
  | .recursive _ _ _ | .renamed _ _ _ => []

/-- The declaration of a property in a body. -/
def declared? (body : List Emission) (p : Property) : Option Emission :=
  body.find? fun e => e.property = p

/-- The declaration that a path of properties leads to, from body to body. -/
def follow : List Property → Emission → Option Emission
  | [], e => some e
  | p :: path, e => (declared? e.inner p).bind (follow path)

end Emission

/-- **What is needed at the end of a path of properties** that leads down from a root. -/
def RootEmission.requiredAt (g : RootEmission) : List Property → Option (List Property)
  | [] => some g.required
  | p :: path => ((Emission.declared? g.body p).bind (Emission.follow path)).map Emission.required

namespace Emission

variable {e e' : Emission} {body body' : List Emission} {p : Property}

theorem declared?_eq_some_iff (hnodup : (body.map property).Nodup) :
    declared? body p = some e ↔ e ∈ body ∧ e.property = p := by
  constructor
  · intro h
    exact ⟨List.mem_of_find?_eq_some h, by simpa using List.find?_some h⟩
  · rintro ⟨he, rfl⟩
    cases hfound : declared? body e.property with
    | none =>
      have := List.find?_eq_none.1 hfound e he
      simp at this
    | some e' =>
      have hmem : e' ∈ body := List.mem_of_find?_eq_some hfound
      have hproperty : e'.property = e.property := by simpa using List.find?_some hfound
      rw [List.inj_on_of_nodup_map hnodup hmem he hproperty]

theorem declared?_rearranged {each : List Emission} (h : List.Forall₂ IsRearranged body each)
    (p : Property) : Option.Rel IsRearranged (declared? body p) (declared? each p) := by
  unfold declared?
  induction h with
  | nil => exact .none
  | @cons e e' body each he _ ih =>
    rw [List.find?_cons, List.find?_cons, he.property_eq]
    split
    · exact .some he
    · exact ih

/-- The same properties lead on, each to the same declaration. -/
theorem SameBody.declared? (h : SameBody body body') (p : Property) :
    Option.Rel IsRearranged (Emission.declared? body p) (Emission.declared? body' p) := by
  obtain ⟨each, heach, hperm⟩ := h.each
  have hnodup : (each.map property).Nodup := (hperm.map property).nodup_iff.2 h.nodup_right
  have hmoved : Emission.declared? each p = Emission.declared? body' p := by
    ext e
    rw [declared?_eq_some_iff hnodup, declared?_eq_some_iff h.nodup_right, hperm.mem_iff]
  exact hmoved ▸ declared?_rearranged heach p

theorem IsRearranged.inner (h : IsRearranged e e') : SameBody e.inner e'.inner := by
  cases e with
  | built p c erased function body =>
    obtain ⟨c', function', body', rfl, -, hbody⟩ := isRearranged_built.1 h
    exact hbody
  | recursive p c function =>
    obtain ⟨c', function', rfl, -⟩ := h
    exact ⟨List.nodup_nil, [], .nil, .rfl⟩
  | renamed p fulfilling erased =>
    rw [show e' = .renamed p fulfilling erased from h]
    exact ⟨List.nodup_nil, [], .nil, .rfl⟩

/-- The same paths lead to the same declarations. -/
theorem IsRearranged.follow :
    ∀ (path : List Property) {e e' : Emission}, IsRearranged e e' →
      Option.Rel IsRearranged (Emission.follow path e) (Emission.follow path e')
  | [], e, e', h => .some h
  | p :: path, e, e', h => by
    have hfirst := h.inner.declared? p
    rw [Emission.follow, Emission.follow]
    generalize Emission.declared? e.inner p = found at hfirst
    generalize Emission.declared? e'.inner p = found' at hfirst
    cases hfirst with
    | none => exact .none
    | some he => exact he.follow path

end Emission

variable {registry other : Registry} {limit : Nat} {root root' : Component} {g g' : RootEmission}

/-- **The same is needed along every path.** -/
theorem RootEmission.requiredAt_eq (hc : g.component.IsRearranged g'.component)
    (hbody : Emission.SameBody g.body g'.body) (path : List Property) :
    g'.requiredAt path = g.requiredAt path := by
  cases path with
  | nil =>
    have hrequired : g'.required = g.required := hc.needs_eq fun _ => hbody.mem_requiredAll_iff
    rw [requiredAt, requiredAt, hrequired]
  | cons p path =>
    have hfirst := hbody.declared? p
    rw [requiredAt, requiredAt]
    generalize Emission.declared? g.body p = found at hfirst
    generalize Emission.declared? g'.body p = found' at hfirst
    cases hfirst with
    | none => rfl
    | @some e e' he =>
      have hlast := he.follow path
      rw [Option.bind_some, Option.bind_some]
      generalize Emission.follow path e = last at hlast
      generalize Emission.follow path e' = last' at hlast
      cases hlast with
      | none => rfl
      | some hlast => rw [Option.map_some, Option.map_some, hlast.required_eq]

/-! ## Roots -/

namespace Registry

/-- A root that is built over one registry is built over the other. -/
theorem exists_build_of_isRearranged (h : registry.IsRearranged other)
    (hunambiguous : registry.Unambiguous) (hroot : root ∈ registry.components)
    (hnodup : (root.dependencies.map (·.property)).Nodup) (hrearranged : root.IsRearranged root')
    (hbuild : registry.build limit root = .ok g) :
    ∃ g', other.build limit root' = .ok g' ∧ g.component.IsRearranged g'.component ∧
      Emission.SameBody g.body g'.body := by
  obtain ⟨scope, hresolve, hemit⟩ := build_eq_ok hbuild
  obtain ⟨bindings', each, hresolve', heach, hperm, hproperties⟩ :=
    exists_resolve_of_isRearranged h hunambiguous hroot hnodup hrearranged hresolve
  obtain ⟨declarations, after, hall, harrange, hcomponent⟩ := Scope.emit_eq_ok hemit
  have hdeclarations : (declarations.map Emission.property).Nodup := by
    rw [Binding.properties_of_emitAll hall]
    exact hproperties
  have hemits := Binding.forall₂_emits (Binding.areRearranged_iff.2 heach) .nil hall
  obtain ⟨declarations', after', hall', hsame⟩ :=
    Binding.exists_emitAll_of_perm hdeclarations hemits hperm []
  obtain ⟨body', harrange', hbody⟩ := hsame.exists_arrange root' harrange
  refine ⟨⟨root', body'⟩, ?_, ?_, hbody⟩
  · unfold build
    rw [hresolve']
    simp only [bind, Except.bind, Scope.emit, hall', harrange', Except.mapError]
    rfl
  · rwa [hcomponent, (resolve_eq_ok_iff.1 hresolve).2]

theorem faultsOf_resolve (registry : Registry) (limit : Nat) (root : Component) :
    faultsOf (registry.resolve limit root) = registry.faults limit root := by
  cases h : registry.resolve limit root with
  | ok scope => rw [(Resolution.resolve_eq_ok_iff_outcome.1 h).2, faultsOf]
  | error faults => rw [(resolve_eq_error_iff.1 h).1, faultsOf]

theorem exists_resolve_iff :
    (∃ scope, registry.resolve limit root = .ok scope) ↔ registry.faults limit root = [] := by
  simp [Resolution.resolve_eq_ok_iff_outcome]

section Lists

variable {components components' : List Component}

theorem nodup_of_rearranged (h : List.Forall₂ Component.IsRearranged components components')
    (hnodup : ∀ c ∈ components, (c.dependencies.map (·.property)).Nodup) :
    ∀ c ∈ components', (c.dependencies.map (·.property)).Nodup := by
  intro c' hc'
  obtain ⟨c, hc, hrearranged⟩ := exists_of_mem_forall₂ h c' hc'
  exact ((hrearranged.dependencies_perm.map _).nodup_iff).1 (hnodup c hc)

/-- A component is rearranged to the one of its concrete type. -/
theorem rearranged_of_concreteType_eq
    (h : List.Forall₂ Component.IsRearranged components components')
    (hother : register components' = .ok other) (hroot : root ∈ components)
    (hroot' : root' ∈ components') (htype : root.concreteType = root'.concreteType) :
    root.IsRearranged root' := by
  obtain ⟨c', hc', hrearranged⟩ := exists_rearranged h hroot
  have hmem : ∀ c ∈ components', c ∈ other.components := fun c hc =>
    (mem_components_of_register hother).2 hc
  obtain rfl : c' = root' := eq_of_concreteType_eq (unambiguous_of_register hother) (hmem c' hc')
    (hmem root' hroot') (hrearranged.concreteType_eq.trans htype)
  exact hrearranged

/-- **The order in which dependencies are declared does not matter.** Take two lists of the same
components, each with its dependencies in any order, where no component lists a property twice. A root has
the same faults over both, in some order; it is built over both or over neither; and if it is built, the
same is needed along every path of properties. -/
theorem declaration_order_irrelevant
    (h : List.Forall₂ Component.IsRearranged components components')
    (hnodup : ∀ c ∈ components, (c.dependencies.map (·.property)).Nodup)
    (hregistry : register components = .ok registry) (hother : register components' = .ok other)
    (hroot : root ∈ components) (hroot' : root' ∈ components')
    (htype : root.concreteType = root'.concreteType) (limit : Nat) :
    ((∃ scope, registry.resolve limit root = .ok scope) ↔
        ∃ scope, other.resolve limit root' = .ok scope) ∧
      (faultsOf (registry.resolve limit root)).Perm (faultsOf (other.resolve limit root')) ∧
      ((∃ g, registry.build limit root = .ok g) ↔ ∃ g, other.build limit root' = .ok g) ∧
      ∀ g g', registry.build limit root = .ok g → other.build limit root' = .ok g' →
        ∀ path, g.requiredAt path = g'.requiredAt path := by
  have hflip : List.Forall₂ Component.IsRearranged components' components :=
    h.flip.imp fun _ _ hc => Component.IsRearranged.symm hc
  have hnodup' := nodup_of_rearranged h hnodup
  -- either list is a rearrangement of the other, so what is built over one is built over the other
  have hforth := isRearranged_of_register h hnodup hregistry hother
  have hback := isRearranged_of_register hflip hnodup' hother hregistry
  have hregistered := (mem_components_of_register hregistry).2 hroot
  have hregistered' := (mem_components_of_register hother).2 hroot'
  have hunambiguous := unambiguous_of_register hregistry
  have hunambiguous' := unambiguous_of_register hother
  have hrearranged := rearranged_of_concreteType_eq h hother hroot hroot' htype
  have hfaults : (registry.faults limit root).Perm (other.faults limit root') :=
    faults_perm limit hforth hunambiguous hregistered (hnodup root hroot) hrearranged
  refine ⟨?_, ?_, ⟨?_, ?_⟩, ?_⟩
  · rw [exists_resolve_iff, exists_resolve_iff]
    exact ⟨fun hnone => (hnone ▸ hfaults).nil_eq.symm, fun hnone => (hnone ▸ hfaults).eq_nil⟩
  · rw [faultsOf_resolve, faultsOf_resolve]
    exact hfaults
  · rintro ⟨g, hg⟩
    obtain ⟨g', hg', -⟩ := exists_build_of_isRearranged hforth hunambiguous hregistered
      (hnodup root hroot) hrearranged hg
    exact ⟨g', hg'⟩
  · rintro ⟨g', hg'⟩
    obtain ⟨g, hg, -⟩ := exists_build_of_isRearranged hback hunambiguous' hregistered'
      (hnodup' root' hroot') hrearranged.symm hg'
    exact ⟨g, hg⟩
  · intro g g' hg hg' path
    obtain ⟨g'', hg'', hc, hbody⟩ := exists_build_of_isRearranged hforth hunambiguous hregistered
      (hnodup root hroot) hrearranged hg
    obtain rfl : g' = g'' := Except.ok.inj (hg'.symm.trans hg'')
    exact (RootEmission.requiredAt_eq hc hbody path).symm

end Lists

end Registry

/-- A shop that declares its dependencies the other way round. -/
def turnedShop : Component :=
  { shop with dependencies := shop.dependencies.reverse }

/-- A counter that declares its dependencies the other way round. -/
def turnedCounter : Component :=
  { counter with dependencies := counter.dependencies.reverse }

/-- The shop is built whichever way round, and opening a counter needs its ledger. -/
theorem turnedShop_built :
    (∃ g, Registry.build ⟨[turnedShop, ledger, turnedCounter, till]⟩ 256 turnedShop = .ok g) ∧
      ∀ g, Registry.build ⟨[turnedShop, ledger, turnedCounter, till]⟩ 256 turnedShop = .ok g →
        g.requiredAt [opener] = some [⟨"ledger", .simple "Ledger" []⟩] := by
  have hshop : Registry.build ⟨[shop, ledger, counter, till]⟩ 256 shop = .ok shopEmission := by
    with_unfolding_all rfl
  have hrequired : shopEmission.requiredAt [opener] = some [⟨"ledger", .simple "Ledger" []⟩] := by
    with_unfolding_all rfl
  have hturned : List.Forall₂ Component.IsRearranged [shop, ledger, counter, till]
      [turnedShop, ledger, turnedCounter, till] :=
    .cons ⟨_, (List.reverse_perm _).symm, rfl⟩ (.cons ⟨_, .rfl, rfl⟩
      (.cons ⟨_, (List.reverse_perm _).symm, rfl⟩ (.cons ⟨_, .rfl, rfl⟩ .nil)))
  have hregister : Registry.register [shop, ledger, counter, till] =
      .ok ⟨[shop, ledger, counter, till]⟩ := by rfl
  have hregister' : Registry.register [turnedShop, ledger, turnedCounter, till] =
      .ok ⟨[turnedShop, ledger, turnedCounter, till]⟩ := by rfl
  have hmem : shop ∈ [shop, ledger, counter, till] := List.mem_cons_self
  have hmem' : turnedShop ∈ [turnedShop, ledger, turnedCounter, till] := List.mem_cons_self
  obtain ⟨-, -, hbuilt, hpaths⟩ := Registry.declaration_order_irrelevant hturned (by decide)
    hregister hregister' hmem hmem' rfl 256
  refine ⟨hbuilt.1 ⟨_, hshop⟩, fun g hg => ?_⟩
  rw [← hpaths _ g hshop hg, hrequired]

end Wiring
