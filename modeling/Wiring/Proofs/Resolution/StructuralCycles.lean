import Mathlib.Data.List.Chain
import Wiring.Proofs.Resolution.Depth
import Wiring.Proofs.Resolution.Receiving

/-!
# Reported cycles of components

When resolution refuses to enter a component because that would close a cycle, it reports the concrete types
from the latest component of the same type down to the refused one. All steps between them are eager, so
they lie within one run of the chain, and no type comes twice within a run: a cycle that was closed
earlier would have been refused earlier, also below a factory that leads back.

* `Chain.exists_of_eagerCycle?`: what the look at the chain saw.
* `Registry.IsEagerCycle`: what a reported cycle says about the registry.
* `Registry.isEagerCycle_of_visits`, `Registry.structural_cycles_genuine`: every report says so rightly.
-/

namespace Wiring

open Resolution

variable {registry : Registry} {limit : Nat} {root c q : Component} {chain : Chain}
  {via : Option Property} {cycle : List TypeExpr}

/-! ## What the look at the chain saw -/

namespace Chain

/-- **The cycle that a step would close** begins at a component of the same concrete type, and leads on from
there by eager steps only. -/
theorem exists_of_eagerCycle? {frames : List Frame} (h : eagerCycle? frames c via = some cycle) :
    ∃ newer start older, frames = newer ++ start :: older ∧
      start.component.concreteType = c.concreteType ∧ (∀ g ∈ newer, isEager g.via = true) ∧
      isEager via = true ∧ cycle = c.concreteType :: (typesOf newer ++ [c.concreteType]) := by
  unfold eagerCycle? at h
  set isOther : Frame → Bool := fun g => g.component.concreteType ≠ c.concreteType with hother
  cases hdrop : frames.dropWhile isOther with
  | nil =>
    simp only [hdrop] at h
    cases h
  | cons start older =>
    simp only [hdrop, Option.ite_none_right_eq_some, Bool.and_eq_true, List.all_eq_true,
      Option.some.injEq] at h
    obtain ⟨⟨hnewer, hvia⟩, rfl⟩ := h
    have hsplit : frames = frames.takeWhile isOther ++ start :: older := by
      rw [← hdrop, List.takeWhile_append_dropWhile]
    have hstart : start.component.concreteType = c.concreteType := by
      have hnot := List.head_dropWhile_not (p := isOther) (l := frames) (by simp [hdrop])
      simp only [hdrop, List.head_cons] at hnot
      simpa [hother] using hnot
    refine ⟨_, start, older, hsplit, hstart, hnewer, hvia, ?_⟩
    simp [typesOf, hstart]

/-- Eager frames go on with the run below them. -/
theorem eagerRun_append {older : List Frame} :
    ∀ {newer : List Frame}, (∀ g ∈ newer, isEager g.via = true) →
      eagerRun (newer ++ older) = newer ++ eagerRun older
  | [], _ => rfl
  | f :: newer, h => by
    have hf := h f List.mem_cons_self
    rw [List.cons_append, eagerRun, if_pos hf,
      eagerRun_append fun g hg => h g (List.mem_cons_of_mem f hg), List.cons_append]

/-- **No concrete type comes twice** where a chain goes on by eager steps. -/
theorem nodup_types_of_eager {newer older : List Frame} {start : Frame}
    (h : Bounded registry (newer ++ start :: older)) (hnewer : ∀ g ∈ newer, isEager g.via = true) :
    (start.component.concreteType :: typesOf newer).Nodup := by
  have hrun := h.run_nodup
  rw [eagerRun_append hnewer, eagerRun, List.map_append, List.map_cons] at hrun
  -- the run may go on above the first frame of the cycle
  have hpart : (newer.map (·.component.concreteType) ++ [start.component.concreteType]).Nodup := by
    refine hrun.sublist (List.Sublist.append_left ?_ _)
    exact List.singleton_sublist.2 List.mem_cons_self
  have hreverse := List.nodup_reverse.2 hpart
  rwa [List.reverse_append] at hreverse

end Chain

/-! ## What is reported -/

namespace Registry

/-- **The registered component of a concrete type.** -/
def Names (registry : Registry) (type : TypeExpr) (c : Component) : Prop :=
  ∀ a, (a ∈ registry.components ∧ a.concreteType = type) ↔ a = c

/-- The registered component of the type `a` instantiates that of the type `b` at once. -/
def EagerStep (registry : Registry) (a b : TypeExpr) : Prop :=
  ∃ c q, registry.Names a c ∧ registry.Names b q ∧ registry.InstantiatesEagerly c q

/-- **A cycle of concrete types whose components instantiate each other at once.** The first type comes again
at the end, and no other type comes twice. -/
structure IsEagerCycle (registry : Registry) (cycle : List TypeExpr) : Prop where
  closed : ∃ type inner, cycle = type :: (inner ++ [type]) ∧ (type :: inner).Nodup
  steps : cycle.IsChain registry.EagerStep

theorem names_of_mem (hr : registry.Unambiguous) (hc : c ∈ registry.components) :
    registry.Names c.concreteType c := by
  intro a
  constructor
  · rintro ⟨ha, htype⟩
    exact eq_of_concreteType_eq hr ha hc htype
  · rintro rfl
    exact ⟨hc, rfl⟩

/-- **Eager steps of a way down** are eager steps between the concrete types. -/
theorem LeadsDown.isChain_types {above below : List Frame} {start : Frame} (hr : registry.Unambiguous)
    (h : registry.LeadsDown root (above ++ start :: below))
    (hregistered : ∀ f ∈ start :: below, f.component ∈ registry.components)
    (heager : ∀ f ∈ below, Chain.isEager f.via = true) :
    ((start :: below).map (·.component.concreteType)).IsChain registry.EagerStep := by
  rw [List.isChain_map]
  refine (List.isChain_append.1 h.steps).2.1.imp_of_mem_tail_imp ?_
  rintro f g hf hg ⟨p, hp, hedge⟩
  have hdeferred : p.isDeferred = false := Chain.isEager_eq_true_iff.1 (heager g hg) p hp
  exact ⟨f.component, g.component, names_of_mem hr (hregistered f hf),
    names_of_mem hr (hregistered g (List.mem_cons_of_mem start hg)), p, hdeferred, hedge⟩

/-- A cycle that would be closed at a visited component. -/
theorem isEagerCycle_of_visits (hr : registry.Unambiguous) (hroot : root ∈ registry.components)
    (hvisits : registry.Visits limit root chain c via)
    (hcycle : Chain.eagerCycle? chain.frames c via = some cycle) : registry.IsEagerCycle cycle := by
  obtain ⟨hbounded, hc, -⟩ := bounded_of_visits hroot hvisits
  have hdown := leadsDown_of_visits hvisits
  obtain ⟨newer, start, older, hframes, hstart, hnewer, hvia, rfl⟩ :=
    Chain.exists_of_eagerCycle? hcycle
  rw [hframes] at hbounded hdown
  -- the frames of the cycle come last on the way down to the refused component
  have hsplit : (newer ++ start :: older).reverse ++ [(⟨c, via⟩ : Frame)] =
      older.reverse ++ start :: (newer.reverse ++ [⟨c, via⟩]) := by simp
  rw [hsplit] at hdown
  have hregistered : ∀ f ∈ start :: (newer.reverse ++ [(⟨c, via⟩ : Frame)]),
      f.component ∈ registry.components := by
    intro f hf
    by_cases hlast : f = ⟨c, via⟩
    · rw [hlast]
      exact hc
    · refine hbounded.registered f ?_
      simp only [List.mem_cons, List.mem_append, List.mem_reverse, hlast] at hf ⊢
      tauto
  have heager : ∀ f ∈ newer.reverse ++ [(⟨c, via⟩ : Frame)], Chain.isEager f.via = true := by
    intro f hf
    rcases List.mem_append.1 hf with hf | hf
    · exact hnewer f (List.mem_reverse.1 hf)
    · rw [List.mem_singleton.1 hf]
      exact hvia
  refine ⟨⟨c.concreteType, Chain.typesOf newer, rfl, ?_⟩, ?_⟩
  · rw [← hstart]
    exact Chain.nodup_types_of_eager hbounded hnewer
  · have hsteps := hdown.isChain_types hr hregistered heager
    simpa [Chain.typesOf, hstart] using hsteps

/-- Where a cycle of components is found, a visited component would close it. -/
theorem exists_eagerCycle?_of_finds (h : registry.Finds limit root (.structuralCycle cycle)) :
    ∃ chain c via, registry.Visits limit root chain c via ∧
      Chain.eagerCycle? chain.frames c via = some cycle := by
  cases h with
  | @entering chain c via _ hvisits henter =>
    obtain ⟨-, ⟨⟩⟩ | ⟨-, found, hfound, ⟨⟩⟩ := Chain.enter_eq_error_iff.1 henter
    exact ⟨chain, c, via, hvisits, hfound⟩
  | dependency _ _ _ hown => cases isAboutDependency_of_mem_ownFaults hown

/-- **A cycle of components that is reported is one, and it is as short as it can be**: it ends with the type
it begins with, no other type comes twice, and along it the registered component of each type instantiates
that of the next one at once. -/
theorem structural_cycles_genuine {components : List Component} {faults : List Fault}
    (hregister : register components = .ok registry) (hroot : root ∈ registry.components)
    (hresolve : registry.resolve limit root = .error faults)
    (hcycle : .structuralCycle cycle ∈ faults) : registry.IsEagerCycle cycle := by
  obtain ⟨rfl, -⟩ := resolve_eq_error_iff.1 hresolve
  obtain ⟨chain, c, via, hvisits, hfound⟩ := exists_eagerCycle?_of_finds (finds_of_mem hcycle)
  exact isEagerCycle_of_visits (unambiguous_of_register hregister) hroot hvisits hfound

end Registry

/-- A bell has a clapper. -/
def bell : Component :=
  ⟨.simple "Bell" [], [], false, none,
    [⟨⟨"clapper", .simple "Clapper" []⟩, .instantiated none false⟩], .classType⟩

/-- A clapper has a bell of its own, and makes towers. -/
def clapper : Component :=
  ⟨.simple "Clapper" [], [], false, none,
    [⟨⟨"bell", .simple "Bell" []⟩, .instantiated none false⟩,
      ⟨⟨"tower", .simple "Instantiator" [.simple "Tower" []]⟩, .instantiated none false⟩], .classType⟩

/-- A tower makes bells on demand. -/
def tower : Component :=
  ⟨.simple "Tower" [], [], true, none,
    [⟨⟨"ring", .simple "Instantiator" [.simple "Bell" []]⟩, .instantiated none false⟩], .classType⟩

/-- The cycle of the bell and its clapper is reported, which the tower leads to but is not part of; the way
back to the tower is a factory and closes none. -/
theorem bell_on_eager_cycle :
    Registry.register [tower, bell, clapper] = .ok ⟨[tower, bell, clapper]⟩ ∧
      Registry.resolve ⟨[tower, bell, clapper]⟩ 256 tower = .error [.structuralCycle
        [.simple "Bell" [], .simple "Clapper" [], .simple "Bell" []]] ∧
      Registry.IsEagerCycle ⟨[tower, bell, clapper]⟩
        [.simple "Bell" [], .simple "Clapper" [], .simple "Bell" []] := by
  have hregister : Registry.register [tower, bell, clapper] = .ok ⟨[tower, bell, clapper]⟩ := by rfl
  have hresolve : Registry.resolve ⟨[tower, bell, clapper]⟩ 256 tower = .error [.structuralCycle
      [.simple "Bell" [], .simple "Clapper" [], .simple "Bell" []]] := by rfl
  exact ⟨hregister, hresolve, Registry.structural_cycles_genuine hregister List.mem_cons_self hresolve
    List.mem_cons_self⟩

end Wiring
