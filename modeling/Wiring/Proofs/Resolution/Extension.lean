import Wiring.Program
import Wiring.Proofs.Fulfillment
import Wiring.Proofs.Resolution.EagerCycles
import Wiring.Proofs.Resolution.Tree

/-!
# More components to choose from

A registry is part of another if the other one finds the same component wherever the first finds one at
all. This is so if all components of the first are among those of the other, whatever their order. A root
that resolves then resolves over the other registry as well, to the same scope.

* `Resolution.component_of_resolves`: settled dependencies are what a run without faults goes through.
* `Registry.isPartOf_of_register`: a registry is part of those with more components.
* `Resolution.Resolves.of_isPartOf`: what is settled stays settled.
* `Registry.resolve_of_register`: a root keeps its scope, its emission and its code.
-/

namespace Wiring

variable {registry larger : Registry} {limit : Nat} {root : Component}

/-! ## Running through settled dependencies -/

namespace Resolution

variable {frame : Frame} {older : List Frame} {d : Dependency} {ds : List Dependency}
  {bindings : List Binding} {room : Nat}

/-- A dependency that is settled by an ancestor has nothing wrong. -/
theorem receivingFaults_eq_nil_of_locateIn {p : Property} {c : Component}
    (h : ∃ index, Chain.locateIn p (frame :: older) = .available index) :
    receivingFaults ⟨frame :: older, room⟩ c p = [] :=
  receivingFaults_eq_nil_iff.2 h

/-- **A run goes through settled dependencies without faults** and declares what they declare. -/
theorem forEach_of_resolves (h : Resolves registry room frame older ds bindings) :
    forEach (dependency registry ⟨frame :: older, room⟩ frame.component frame.via.isNone
      fun q p log => component registry room (frame :: older) q (some p) log) ds [] =
        (bindings, []) := by
  induction h with
  | nil => rfl
  | @given room frame older d ds bindings hdeclared hsettled _ ih =>
    have hd : ∀ below, dependency registry ⟨frame :: older, room⟩ frame.component
        frame.via.isNone below d [] = (none, []) := by
      intro below
      cases horigin : d.origin with
      | forwarded =>
        obtain ⟨p, hp⟩ := Option.ne_none_iff_exists'.1 (by simpa [Settled, horigin] using hsettled)
        simp [dependency, horigin, hp]
      | received =>
        simp only [Settled, horigin] at hsettled
        simp [dependency, horigin, receivingFaults_eq_nil_of_locateIn hsettled]
      | aliased | instantiated => simp [Dependency.isDeclared, horigin] at hdeclared
    rw [forEach_cons, hd, ih]
    rfl
  | @renamed room frame older d fulfilling erased ds bindings horigin hsettled _ ih =>
    have hd : ∀ below, dependency registry ⟨frame :: older, room⟩ frame.component
        frame.via.isNone below d [] = (some (.renamed d.property fulfilling erased), []) := by
      intro below
      simp only [Settled, horigin] at hsettled
      rcases hsettled with hholds | hlocate
      · simp [dependency, horigin, hholds]
      · simp [dependency, horigin, receivingFaults_eq_nil_of_locateIn hlocate]
    rw [forEach_cons, hd, ih]
    rfl
  | @recursive room frame older d q _ _ ds bindings horigin hproducer hback _ ih =>
    have hd : ∀ below, dependency registry ⟨frame :: older, room⟩ frame.component
        frame.via.isNone below d [] = (some (.recursive d.property q), []) := by
      intro below
      simp [dependency, horigin, hproducer, hback]
    rw [forEach_cons, hd, ih]
    rfl
  | @built room frame older d q _ erased text ds bindings inner horigin hproducer hback hcycle htext
      _ _ ihinner ih =>
    -- all below the producer is settled as well, so it is left without faults
    have hq : component registry (room + 1) (frame :: older) q (some d.property) [] =
        (inner, []) := by
      simp only [component, hcycle, initializerFaults, htext, List.append_nil]
      exact ihinner
    have hd : dependency registry ⟨frame :: older, room + 1⟩ frame.component frame.via.isNone
        (fun q p log => component registry (room + 1) (frame :: older) q (some p) log) d [] =
          (some (.built d.property q inner erased), []) := by
      simp [dependency, horigin, hproducer, hback, hq]
    rw [forEach_cons, hd, ih]
    rfl

/-- **A component that can be entered and has all its dependencies settled is resolved without faults.** -/
theorem component_of_resolves {frames : List Frame} {c : Component} {via : Option Property}
    {text : String} (hcycle : Chain.eagerCycle? frames c via = none)
    (htext : c.argumentList = .ok text)
    (h : Resolves registry room ⟨c, via⟩ frames c.dependencies bindings) :
    component registry (room + 1) frames c via [] = (bindings, []) := by
  simp only [component, hcycle, initializerFaults, htext, List.append_nil]
  exact forEach_of_resolves h

end Resolution

open Resolution

/-- **A root resolves exactly if all below it is settled.** -/
theorem Registry.resolve_eq_ok_iff_resolves {bindings : List Binding} :
    registry.resolve limit root = .ok ⟨root, bindings⟩ ↔
      ∃ room text, limit = room + 1 ∧ root.argumentList = .ok text ∧
        Resolves registry room ⟨root, none⟩ [] root.dependencies bindings := by
  constructor
  · intro h
    obtain ⟨room, text, hroom, -, htext, hresolves⟩ :=
      resolves_of_component (Registry.resolve_eq_ok_iff.1 h).1
    exact ⟨room, text, hroom, htext, hresolves⟩
  · rintro ⟨room, text, rfl, htext, hresolves⟩
    exact Registry.resolve_eq_ok_iff.2 ⟨component_of_resolves rfl htext hresolves, rfl⟩

/-! ## Parts of a registry -/

/-- **What the registry holds for a type, the larger one holds as well.** -/
def Registry.IsPartOf (registry larger : Registry) : Prop :=
  ∀ t c, registry.fulfilling t = some c → larger.fulfilling t = some c

/-- **A registry is part of those with more components**, in whatever order. -/
theorem Registry.isPartOf_of_register {components more : List Component}
    (h : register components = .ok registry) (hlarger : register more = .ok larger)
    (hmore : components ⊆ more) : registry.IsPartOf larger := by
  intro t c hc
  -- a registry holds each component at most once for a type, so it does not matter which comes first
  have hmem : c ∈ more := hmore ((mem_components_of_register h).1 (mem_of_fulfilling hc))
  refine (fulfilling_eq_some_iff (unambiguous_of_register hlarger)).2 ⟨?_, mem_types_of_fulfilling hc⟩
  exact (mem_components_of_register hlarger).2 hmem

namespace Resolution

/-- A producer stays the producer. -/
theorem producer_of_isPartOf (h : registry.IsPartOf larger) {c q : Component} {p : Property}
    {type : TypeExpr} (hq : producer registry c p type = .ok q) :
    producer larger c p type = .ok q := by
  obtain ⟨hfulfilling, hfits⟩ := producer_eq_ok_iff.1 hq
  exact producer_eq_ok_iff.2 ⟨h _ _ hfulfilling, hfits⟩

/-- **What is settled stays settled**, with the same declarations. -/
theorem Resolves.of_isPartOf (h : registry.IsPartOf larger) {room : Nat} {frame : Frame}
    {older : List Frame} {ds : List Dependency} {bindings : List Binding}
    (hresolves : Resolves registry room frame older ds bindings) :
    Resolves larger room frame older ds bindings := by
  induction hresolves with
  | nil => exact .nil
  | given hdeclared hsettled _ ih => exact .given hdeclared hsettled ih
  | renamed horigin hsettled _ ih => exact .renamed horigin hsettled ih
  | recursive horigin hproducer hback _ ih =>
    exact .recursive horigin (producer_of_isPartOf h hproducer) hback ih
  | built horigin hproducer hback hcycle htext _ _ ihinner ih =>
    exact .built horigin (producer_of_isPartOf h hproducer) hback hcycle htext ihinner ih

end Resolution

/-! ## Roots -/

namespace Registry

/-- **A root that resolves over a part resolves to the same scope.** -/
theorem resolve_of_isPartOf (h : registry.IsPartOf larger) {scope : Scope}
    (hresolve : registry.resolve limit root = .ok scope) :
    larger.resolve limit root = .ok scope := by
  obtain ⟨c, bindings⟩ := scope
  obtain rfl : c = root := (resolve_eq_ok_iff.1 hresolve).2
  obtain ⟨room, text, hroom, htext, hresolves⟩ := resolve_eq_ok_iff_resolves.1 hresolve
  exact resolve_eq_ok_iff_resolves.2 ⟨room, text, hroom, htext, hresolves.of_isPartOf h⟩

/-- **A root that resolves is stable under extension and reordering of the components**: its scope, what
is emitted for it and its code stay the same. -/
theorem resolve_of_register {components more : List Component}
    (h : register components = .ok registry) (hlarger : register more = .ok larger)
    (hmore : components ⊆ more) {scope : Scope}
    (hresolve : registry.resolve limit root = .ok scope) :
    larger.resolve limit root = .ok scope ∧
      larger.build limit root = registry.build limit root ∧
      larger.rootCode limit root = registry.rootCode limit root := by
  have hscope := resolve_of_isPartOf (isPartOf_of_register h hlarger hmore) hresolve
  have hbuild : larger.build limit root = registry.build limit root := by
    unfold build
    rw [hscope, hresolve]
  refine ⟨hscope, hbuild, ?_⟩
  unfold rootCode
  rw [hbuild]

end Registry

/-- A pond has a tree of its own. -/
def pond : Component :=
  ⟨.simple "Pond" [], [], true, none,
    [⟨⟨"willow", .simple "Tree" []⟩, .instantiated none false⟩], .classType⟩

/-- The garden does not mind a pond, nor that its branches are listed first. -/
theorem garden_beside_pond :
    ∃ scope, Registry.register [garden, tree, branch] = .ok ⟨[garden, tree, branch]⟩ ∧
      Registry.register [branch, pond, tree, garden] = .ok ⟨[branch, pond, tree, garden]⟩ ∧
      [garden, tree, branch] ⊆ [branch, pond, tree, garden] ∧
      Registry.resolve ⟨[garden, tree, branch]⟩ 3 garden = .ok scope ∧
      Registry.resolve ⟨[branch, pond, tree, garden]⟩ 3 garden = .ok scope ∧
      Registry.build ⟨[branch, pond, tree, garden]⟩ 3 garden =
        Registry.build ⟨[garden, tree, branch]⟩ 3 garden ∧
      Registry.rootCode ⟨[branch, pond, tree, garden]⟩ 3 garden =
        Registry.rootCode ⟨[garden, tree, branch]⟩ 3 garden := by
  have hgarden : Registry.register [garden, tree, branch] = .ok ⟨[garden, tree, branch]⟩ := by rfl
  have hpond : Registry.register [branch, pond, tree, garden] =
      .ok ⟨[branch, pond, tree, garden]⟩ := by rfl
  have hmore : [garden, tree, branch] ⊆ [branch, pond, tree, garden] := by simp
  obtain ⟨scope, hresolve⟩ :
      ∃ scope, Registry.resolve ⟨[garden, tree, branch]⟩ 3 garden = .ok scope := ⟨_, rfl⟩
  exact ⟨scope, hgarden, hpond, hmore, hresolve,
    Registry.resolve_of_register hgarden hpond hmore hresolve⟩

end Wiring
