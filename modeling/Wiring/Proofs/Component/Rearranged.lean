import Wiring.Proofs.Component.Arguments
import Wiring.Proofs.Component.Supply
import Wiring.Proofs.Sorted
import Wiring.Proofs.TypeExpr.Order

/-!
# Components with their dependencies in another order

What a component supplies, needs and has forwarded are sets, or sorted lists, of properties, and its
initializer takes the dependencies in the order of its own arguments. So none of this depends on the order
in which the dependencies are declared.

* `Component.IsRearranged`: two components that differ in that order only.
* `Initializer.argumentList_of_perm`: the call of an initializer.
-/

namespace Wiring

/-- **The same component with its dependencies in another order.** -/
def Component.IsRearranged (c c' : Component) : Prop :=
  ∃ ds, c.dependencies.Perm ds ∧ c' = { c with dependencies := ds }

namespace Initializer

/-- Arguments take the same properties out of lists that differ in their order. -/
theorem assign_of_perm :
    ∀ (arguments : List Argument) {properties others : List Property}, properties.Perm others →
      (∃ taken left left', assign arguments properties = .ok (taken, left) ∧
        assign arguments others = .ok (taken, left') ∧ left.Perm left') ∨
      ∃ cause, assign arguments properties = .error cause ∧ assign arguments others = .error cause
  | [], properties, others, h => .inl ⟨[], properties, others, rfl, rfl, h⟩
  | a :: arguments, properties, others, h => by
    unfold assign
    by_cases hmem : a.property ∈ properties
    · rw [if_pos hmem, if_pos (h.mem_iff.1 hmem)]
      rcases assign_of_perm arguments (h.erase a.property) with
        ⟨taken, left, left', hleft, hleft', hperm⟩ | ⟨cause, hcause, hcause'⟩
      · exact .inl ⟨a :: taken, left, left', by rw [hleft]; rfl, by rw [hleft']; rfl, hperm⟩
      · exact .inr ⟨cause, by rw [hcause]; rfl, by rw [hcause']; rfl⟩
    · rw [if_neg hmem, if_neg fun hmem' => hmem (h.mem_iff.2 hmem')]
      cases a.hasDefault with
      | true => exact assign_of_perm arguments h
      | false => exact .inr ⟨_, rfl, rfl⟩

/-- **The call of an initializer does not depend on the order of the dependencies**, nor does the reason
why there is none. -/
theorem argumentList_of_perm {i : Initializer} {ds ds' : List Dependency} (h : ds.Perm ds') :
    i.argumentList ds = i.argumentList ds' := by
  unfold argumentList
  rw [h.isEmpty_eq]
  cases i.validate with
  | error cause => rfl
  | ok valid =>
    cases ds'.isEmpty && i.arguments.any (!·.hasDefault) with
    | true => rfl
    | false =>
      rcases assign_of_perm i.arguments (h.map (·.property)) with
        ⟨taken, left, left', hleft, hleft', hperm⟩ | ⟨cause, hcause, hcause'⟩
      · rw [hleft, hleft']
        simp only [bind, Except.bind]
        rw [hperm.isEmpty_eq, sorted_eq_of_perm hperm]
      · rw [hcause, hcause']

end Initializer

namespace Component.IsRearranged

variable {c c' : Component} {p : Property}

theorem symm (h : c.IsRearranged c') : c'.IsRearranged c := by
  obtain ⟨ds, hperm, rfl⟩ := h
  exact ⟨c.dependencies, hperm.symm, rfl⟩

theorem dependencies_perm (h : c.IsRearranged c') : c.dependencies.Perm c'.dependencies := by
  obtain ⟨ds, hperm, rfl⟩ := h
  exact hperm

theorem concreteType_eq (h : c.IsRearranged c') : c'.concreteType = c.concreteType := by
  obtain ⟨ds, -, rfl⟩ := h
  rfl

theorem types_eq (h : c.IsRearranged c') : c'.types = c.types := by
  obtain ⟨ds, -, rfl⟩ := h
  rfl

theorem mem_supplied_iff (h : c.IsRearranged c') : p ∈ c'.supplied ↔ p ∈ c.supplied := by
  rw [mem_supplied, mem_supplied]
  exact exists_congr fun d => and_congr_left fun _ => h.dependencies_perm.mem_iff.symm

theorem mem_required_iff (h : c.IsRearranged c') : p ∈ c'.required ↔ p ∈ c.required :=
  (h.dependencies_perm.filterMap (·.required?)).mem_iff.symm

theorem holds_eq (h : c.IsRearranged c') : c'.holds p = c.holds p :=
  (h.dependencies_perm.any_eq).symm

theorem hasForwarded_eq (h : c.IsRearranged c') : c'.hasForwarded = c.hasForwarded :=
  (h.dependencies_perm.any_eq).symm

theorem forwardedType_eq (h : c.IsRearranged c') : c'.forwardedType = c.forwardedType := by
  have hforwarded : c'.forwarded = c.forwarded :=
    (sorted_eq_of_perm ((h.dependencies_perm.filter _).map _)).symm
  rw [forwardedType, hforwarded, forwardedType]

/-- What is needed from outside is the same, if it is the same for the body. -/
theorem needs_eq (h : c.IsRearranged c') {below below' : List Property}
    (hbelow : ∀ p, p ∈ below' ↔ p ∈ below) : c'.needs below' = c.needs below := by
  refine sortedSet_congr fun p => ?_
  simp [h.mem_required_iff, h.mem_supplied_iff, hbelow]

/-- The call of the component fails for the same reason, if it does. -/
theorem argumentList_eq_error_iff (h : c.IsRearranged c') {cause : InitializerError} :
    c'.argumentList = .error cause ↔ c.argumentList = .error cause := by
  obtain ⟨ds, hperm, rfl⟩ := h
  unfold argumentList
  cases c.initializer with
  | none => simp
  | some i => simp only [Initializer.argumentList_of_perm hperm]

end Component.IsRearranged

end Wiring
