import Mathlib.Logic.Relation
import Wiring.Proofs.Fulfillment
import Wiring.Proofs.Resolution.Visits

/-!
# No eager cycles below a root that resolves

Where resolution finds no fault, it comes to every component that can be reached from the root: it goes on
along each edge, or the edge is a factory that leads back to a component of the chain, which was
visited before. From a component that it has entered, it walks along eager edges without looking back,
until the chain comes to the same component again, and that is refused.

* `exists_visits_of_reachable`: every reachable component is visited.
* `exists_visits_of_eager_path`: eager edges are walked within one run of the chain.
* `no_eager_cycle_of_resolve`: so no cycle of eager edges can be reached.
-/

namespace Wiring

open Resolution

variable {registry : Registry} {limit : Nat} {root c q : Component} {chain next : Chain}
  {via : Option Property}

namespace Registry

/-- The component `c` has the property `p` instantiated, and the registry holds `q` for it. -/
def Edge (registry : Registry) (c : Component) (p : Property) (q : Component) : Prop :=
  ∃ d ∈ c.dependencies, d.property = p ∧
    ∃ type, d.producedType? = some type ∧ registry.fulfilling type = some q

/-- `c` has `q` instantiated, at once or on demand. -/
def Instantiates (registry : Registry) (c q : Component) : Prop :=
  ∃ p, registry.Edge c p q

/-- `c` has `q` instantiated at once. -/
def InstantiatesEagerly (registry : Registry) (c q : Component) : Prop :=
  ∃ p, p.isDeferred = false ∧ registry.Edge c p q

/-! ## What is visited -/

/-- All components below the root are registered. -/
theorem mem_of_visits {p : Property} (h : registry.Visits limit root chain c (some p)) :
    c ∈ registry.components := by
  cases h with
  | onward _ _ _ hleads =>
    obtain ⟨type, -, hq⟩ := hleads.fulfilling
    exact mem_of_fulfilling hq

/-- The components of a chain were visited before. -/
theorem exists_visits_of_mem_frames (h : registry.Visits limit root chain c via) :
    ∀ f ∈ chain.frames, ∃ earlier, registry.Visits limit root earlier f.component f.via := by
  induction h with
  | root => intro f hf; cases hf
  | @onward chain next c q via d hvisits henter _ _ ih =>
    intro f hf
    rw [Chain.frames_of_enter henter] at hf
    rcases List.mem_cons.1 hf with rfl | hf
    · exact ⟨chain, hvisits⟩
    · exact ih f hf

section NoFaults

variable (hnone : ∀ f, ¬ registry.Finds limit root f)

include hnone

/-- A visited component is entered. -/
theorem exists_enter_of_visits (h : registry.Visits limit root chain c via) :
    ∃ next, chain.enter c via = .ok next := by
  cases henter : chain.enter c via with
  | error fault => exact absurd (.entering h henter) (hnone fault)
  | ok next => exact ⟨next, rfl⟩

/-- An edge leads on, or it is a factory that was taken before. -/
theorem leadsTo_or_of_edge {p : Property} (h : registry.Visits limit root chain c via)
    (henter : chain.enter c via = .ok next) (hedge : registry.Edge c p q) :
    (∃ d ∈ c.dependencies, d.property = p ∧ LeadsTo registry next c d q) ∨
      p.isDeferred = true ∧
        ∃ f ∈ next.frames, f.via = some p ∧ f.component.concreteType = q.concreteType := by
  obtain ⟨d, hd, rfl, type, htype, hq⟩ := hedge
  cases horigin : d.origin with
  | forwarded => simp [Dependency.producedType?, horigin] at htype
  | received => simp [Dependency.producedType?, horigin] at htype
  | aliased fulfilling erased => simp [Dependency.producedType?, horigin] at htype
  | instantiated fulfilling erased =>
    have hlookup : fulfilling.getD d.property.type.produced = type := by
      simpa [Dependency.producedType?, horigin] using htype
    cases hproducer : producer registry c d.property (fulfilling.getD d.property.type.produced) with
    | error fault =>
      have hown : fault ∈ ownFaults registry next c via.isNone d := by
        rw [mem_ownFaults_iff, horigin]
        exact hproducer
      exact absurd (.dependency h henter hd hown) (hnone fault)
    | ok r =>
      have hr := (producer_eq_ok_iff.1 hproducer).1
      rw [hlookup, hq] at hr
      cases hr
      cases hstep : next.hasDeferredStep d.property q.concreteType with
      | false => exact Or.inl ⟨d, hd, rfl, fulfilling, erased, horigin, hproducer, hstep⟩
      | true => exact Or.inr (Chain.hasDeferredStep_eq_true_iff.1 hstep)

/-- What a visited component has instantiated is visited, too. -/
theorem exists_visits_of_instantiates (hr : registry.Unambiguous)
    (h : registry.Visits limit root chain c via) (hedge : registry.Instantiates c q) :
    ∃ chain via, registry.Visits limit root chain q via := by
  obtain ⟨p, hp⟩ := hedge
  obtain ⟨next, henter⟩ := exists_enter_of_visits hnone h
  rcases leadsTo_or_of_edge hnone h henter hp with ⟨d, hd, -, hleads⟩ | ⟨-, f, hf, hvia, htype⟩
  · exact ⟨next, _, .onward h henter hd hleads⟩
  · -- the reference is to a component of the chain, which is `q` itself
    obtain ⟨-, -, -, type, -, hq⟩ := hp
    have hvisited : ∃ earlier, registry.Visits limit root earlier f.component f.via := by
      rw [Chain.frames_of_enter henter] at hf
      rcases List.mem_cons.1 hf with rfl | hf
      · exact ⟨chain, h⟩
      · exact exists_visits_of_mem_frames h f hf
    obtain ⟨earlier, hearlier⟩ := hvisited
    have hmem : f.component ∈ registry.components := mem_of_visits (hvia ▸ hearlier)
    rw [← eq_of_concreteType_eq hr hmem (mem_of_fulfilling hq) htype]
    exact ⟨earlier, f.via, hearlier⟩

/-- **Every component that can be reached is visited.** -/
theorem exists_visits_of_reachable (hr : registry.Unambiguous)
    (h : Relation.ReflTransGen registry.Instantiates root c) :
    ∃ chain via, registry.Visits limit root chain c via := by
  induction h with
  | refl => exact ⟨_, _, .root⟩
  | tail _ hedge ih =>
    obtain ⟨chain, via, hvisits⟩ := ih
    exact exists_visits_of_instantiates hnone hr hvisits hedge

/-! ## Walking along eager edges -/

/-- An eager edge is never a reference back. -/
theorem visits_of_eager_edge (h : registry.Visits limit root chain c via)
    (henter : chain.enter c via = .ok next) (hedge : registry.InstantiatesEagerly c q) :
    ∃ p, p.isDeferred = false ∧ registry.Visits limit root next q (some p) := by
  obtain ⟨p, hp, hedge⟩ := hedge
  rcases leadsTo_or_of_edge hnone h henter hedge with ⟨d, hd, rfl, hleads⟩ | ⟨hdeferred, -⟩
  · exact ⟨d.property, hp, .onward h henter hd hleads⟩
  · rw [hp] at hdeferred
    cases hdeferred

/-- **Eager edges are walked within one run** of the chain, which starts at the component. -/
theorem exists_visits_of_eager_path (h : registry.Visits limit root chain c via)
    (hpath : Relation.TransGen registry.InstantiatesEagerly c q) :
    ∃ last p newer, registry.Visits limit root last q (some p) ∧ p.isDeferred = false ∧
      last.frames = newer ++ ⟨c, via⟩ :: chain.frames ∧ ∀ g ∈ newer, Chain.isEager g.via := by
  induction hpath with
  | single hedge =>
    obtain ⟨next, henter⟩ := exists_enter_of_visits hnone h
    obtain ⟨p, hp, hvisits⟩ := visits_of_eager_edge hnone h henter hedge
    exact ⟨next, p, [], hvisits, hp, Chain.frames_of_enter henter, by simp⟩
  | @tail b _ _ hedge ih =>
    obtain ⟨last, p, newer, hvisits, hp, hframes, hnewer⟩ := ih
    obtain ⟨next, henter⟩ := exists_enter_of_visits hnone hvisits
    obtain ⟨p', hp', hvisits'⟩ := visits_of_eager_edge hnone hvisits henter hedge
    refine ⟨next, p', ⟨b, some p⟩ :: newer, hvisits', hp', ?_, ?_⟩
    · rw [Chain.frames_of_enter henter, hframes, List.cons_append]
    · intro g hg
      rcases List.mem_cons.1 hg with rfl | hg
      · simpa [Chain.isEager] using hp
      · exact hnewer g hg

/-- A visited component lies on no eager cycle, since the walk along it would be refused. -/
theorem not_eager_cycle_of_visits (h : registry.Visits limit root chain c via) :
    ¬ Relation.TransGen registry.InstantiatesEagerly c c := by
  intro hcycle
  obtain ⟨last, p, newer, hvisits, hp, hframes, hnewer⟩ :=
    exists_visits_of_eager_path hnone h hcycle
  obtain ⟨next, henter⟩ := exists_enter_of_visits hnone hvisits
  have hfree := (Chain.enter_eq_ok_iff.1 henter).1
  rw [hframes] at hfree
  exact Chain.eagerCycle?_ne_none hnewer (by simpa [Chain.isEager] using hp) rfl hfree

end NoFaults

/-- **No eager cycle can be reached from a root that resolves**, whichever edges lead there. -/
theorem no_eager_cycle_of_resolve {components : List Component} {scope : Scope}
    (hregistry : register components = .ok registry)
    (hresolve : registry.resolve limit root = .ok scope)
    (hreach : Relation.ReflTransGen registry.Instantiates root c) :
    ¬ Relation.TransGen registry.InstantiatesEagerly c c := by
  have hnone := resolves_iff.1 ⟨scope, hresolve⟩
  obtain ⟨chain, via, hvisits⟩ :=
    exists_visits_of_reachable hnone (unambiguous_of_register hregistry) hreach
  exact not_eager_cycle_of_visits hnone hvisits

end Registry

/-- A tree is made on demand and has a branch at once. -/
def tree : Component :=
  ⟨.simple "Tree" [], [], false, none,
    [⟨⟨"branch", .simple "Branch" []⟩, .instantiated none false⟩], .classType⟩

/-- A branch makes further trees on demand. -/
def branch : Component :=
  ⟨.simple "Branch" [], [], false, none,
    [⟨⟨"grow", .simple "Instantiator" [.simple "Tree" []]⟩, .instantiated none false⟩], .classType⟩

/-- A garden grows trees with the factory that their branches use again. -/
def garden : Component :=
  ⟨.simple "Garden" [], [], true, none,
    [⟨⟨"grow", .simple "Instantiator" [.simple "Tree" []]⟩, .instantiated none false⟩], .classType⟩

/-- Below the branch the way back to the tree is cut, and the cycle through it is not eager. -/
theorem branch_on_no_eager_cycle :
    ∃ scope, Registry.register [garden, tree, branch] = .ok ⟨[garden, tree, branch]⟩ ∧
      Registry.resolve ⟨[garden, tree, branch]⟩ 3 garden = .ok scope ∧
      Relation.ReflTransGen (Registry.Instantiates ⟨[garden, tree, branch]⟩) garden branch ∧
      Relation.TransGen (Registry.Instantiates ⟨[garden, tree, branch]⟩) branch branch ∧
      ¬ Relation.TransGen (Registry.InstantiatesEagerly ⟨[garden, tree, branch]⟩) branch branch := by
  have hregister : Registry.register [garden, tree, branch] = .ok ⟨[garden, tree, branch]⟩ := by rfl
  have hgarden : Registry.Instantiates ⟨[garden, tree, branch]⟩ garden tree :=
    ⟨_, _, List.mem_singleton_self _, rfl, _, rfl, by rfl⟩
  have htree : Registry.Instantiates ⟨[garden, tree, branch]⟩ tree branch :=
    ⟨_, _, List.mem_singleton_self _, rfl, _, rfl, by rfl⟩
  have hbranch : Registry.Instantiates ⟨[garden, tree, branch]⟩ branch tree :=
    ⟨_, _, List.mem_singleton_self _, rfl, _, rfl, by rfl⟩
  have hreach : Relation.ReflTransGen (Registry.Instantiates ⟨[garden, tree, branch]⟩) garden branch :=
    (Relation.ReflTransGen.single hgarden).tail htree
  obtain ⟨scope, hresolve⟩ :
      ∃ scope, Registry.resolve ⟨[garden, tree, branch]⟩ 3 garden = .ok scope := ⟨_, rfl⟩
  exact ⟨scope, hregister, hresolve, hreach, (Relation.TransGen.single hbranch).tail htree,
    Registry.no_eager_cycle_of_resolve hregister hresolve hreach⟩

end Wiring
