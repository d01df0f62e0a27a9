import Mathlib.Data.List.Pairwise
import Wiring.Registry

/-!
# Each type has one component

In a registry that registration gives back, no type belongs to two components. So a look-up does not
depend on the order of the components, and a component is known by its concrete type.

* `unambiguous_of_register`: what registration checks.
* `fulfilling_eq_some_iff`: the look-up finds the component of a type, wherever it stands.
* `eq_of_concreteType_eq`: components with one concrete type are one component.
-/

namespace Wiring.Registry

variable {registry : Registry}

/-- **No type belongs to two components.** -/
def Unambiguous (registry : Registry) : Prop :=
  registry.components.Pairwise fun a b => a.types.Disjoint b.types

theorem claimant_eq_none_iff {components : List Component} {t : TypeExpr} :
    claimant components t = none ↔ ∀ c ∈ components, t ∉ c.types := by
  simp [claimant]

/-- Without clashes, later components share no type with earlier ones or with each other. -/
theorem disjoint_of_clashes_eq_nil :
    ∀ {later earlier : List Component}, clashes earlier later = [] →
      (∀ a ∈ earlier, ∀ c ∈ later, a.types.Disjoint c.types) ∧
        later.Pairwise fun a b => a.types.Disjoint b.types
  | [], _, _ => ⟨by simp, List.Pairwise.nil⟩
  | c :: later, earlier, h => by
    rw [clashes, List.append_eq_nil_iff, List.filterMap_eq_nil_iff] at h
    obtain ⟨hc, hlater⟩ := h
    obtain ⟨hearlier, hpairwise⟩ := disjoint_of_clashes_eq_nil hlater
    constructor
    · intro a ha b hb
      rcases List.mem_cons.1 hb with rfl | hb
      · intro t hta htb
        have hfree := hc t htb
        rw [Option.map_eq_none_iff, claimant_eq_none_iff] at hfree
        exact hfree a ha hta
      · exact hearlier a (List.mem_append_left _ ha) b hb
    · refine List.pairwise_cons.2 ⟨?_, hpairwise⟩
      exact hearlier c (List.mem_append_right _ (List.mem_singleton_self c))

/-- **Registration refuses ambiguity.** -/
theorem unambiguous_of_register {components : List Component}
    (h : register components = .ok registry) : registry.Unambiguous := by
  simp only [register] at h
  split at h
  · rename_i hclashes
    cases h
    exact (disjoint_of_clashes_eq_nil hclashes).2
  · cases h

/-- The components that are registered are those that were given. -/
theorem mem_components_of_register {components : List Component} {c : Component}
    (h : register components = .ok registry) : c ∈ registry.components ↔ c ∈ components := by
  simp only [register] at h
  split at h
  · cases h
    exact List.mem_eraseDups
  · cases h

theorem mem_of_fulfilling {t : TypeExpr} {c : Component} (h : registry.fulfilling t = some c) :
    c ∈ registry.components :=
  List.mem_of_find?_eq_some h

theorem mem_types_of_fulfilling {t : TypeExpr} {c : Component}
    (h : registry.fulfilling t = some c) : t ∈ c.types := by
  simpa using List.find?_some h

/-- Two components that share a type are one. -/
theorem eq_of_mem_types (hr : registry.Unambiguous) {a b : Component} {t : TypeExpr}
    (ha : a ∈ registry.components) (hb : b ∈ registry.components) (hta : t ∈ a.types)
    (htb : t ∈ b.types) : a = b := by
  by_contra hne
  have hsymm : Std.Symm fun a b : Component => a.types.Disjoint b.types :=
    ⟨fun _ _ h _ htb hta => h hta htb⟩
  exact hr.forall ha hb hne hta htb

/-- **The look-up of a type** finds its component, wherever it stands. -/
theorem fulfilling_eq_some_iff (hr : registry.Unambiguous) {t : TypeExpr} {c : Component} :
    registry.fulfilling t = some c ↔ c ∈ registry.components ∧ t ∈ c.types := by
  constructor
  · intro h
    exact ⟨mem_of_fulfilling h, mem_types_of_fulfilling h⟩
  · rintro ⟨hc, ht⟩
    cases h : registry.fulfilling t with
    | none => exact absurd ht (claimant_eq_none_iff.1 h c hc)
    | some a =>
      rw [eq_of_mem_types hr (mem_of_fulfilling h) hc (mem_types_of_fulfilling h) ht]

/-- **A component is known by its concrete type.** -/
theorem eq_of_concreteType_eq (hr : registry.Unambiguous) {a b : Component}
    (ha : a ∈ registry.components) (hb : b ∈ registry.components)
    (h : a.concreteType = b.concreteType) : a = b := by
  refine eq_of_mem_types hr ha hb (List.mem_cons_self (a := a.concreteType)) ?_
  rw [h]
  exact List.mem_cons_self

end Wiring.Registry
