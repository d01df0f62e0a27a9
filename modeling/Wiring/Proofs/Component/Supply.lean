import Wiring.Emission.Basic

/-!
# What a component supplies and needs

A dependency is built, renamed, forwarded or received. The component supplies all but what it receives,
and it needs from outside what it receives or renames.

* `Dependency.isSupplied_iff`, `Component.mem_supplied`: what a component supplies.
* `Component.mem_needs`: what a component and the declarations of its body need.
-/

namespace Wiring

namespace Dependency

variable {d : Dependency}

/-- The component declares the property in its own body: it has it built or renames another one. -/
def isDeclared (d : Dependency) : Bool :=
  match d.origin with
  | .instantiated _ _ | .aliased _ _ => true
  | .received | .forwarded => false

/-- A component supplies what it declares and what is forwarded to it. -/
theorem isSupplied_iff : d.isSupplied = true ↔ d.isDeclared = true ∨ d.isForwarded = true := by
  unfold isSupplied isDeclared isForwarded
  cases d.origin <;> simp

/-- What a component does not supply it receives. -/
theorem required?_of_not_supplied (h : d.isSupplied = false) : d.required? = some d.property := by
  unfold isSupplied at h
  unfold required?
  cases horigin : d.origin <;> simp_all

end Dependency

namespace Component

variable {c : Component} {p : Property}

theorem mem_supplied :
    p ∈ c.supplied ↔ ∃ d ∈ c.dependencies, d.isSupplied = true ∧ d.property = p := by
  simp [supplied, and_assoc]

theorem mem_forwarded :
    p ∈ c.forwarded ↔ ∃ d ∈ c.dependencies, d.isForwarded = true ∧ d.property = p := by
  rw [forwarded, (sorted_perm _ _).mem_iff]
  simp [and_assoc]

/-- A component has something forwarded to it exactly if the list of that is not empty. -/
theorem hasForwarded_eq_not_isEmpty (c : Component) : c.hasForwarded = !c.forwarded.isEmpty := by
  cases hforwarded : c.forwarded with
  | nil =>
    refine List.any_eq_false.2 ?_
    intro d hd hforwards
    have hmem : d.property ∈ c.forwarded := mem_forwarded.2 ⟨d, hd, hforwards, rfl⟩
    rw [hforwarded] at hmem
    cases hmem
  | cons p ps =>
    have hmem : p ∈ c.forwarded := by simp [hforwarded]
    obtain ⟨d, hd, hforwards, -⟩ := mem_forwarded.1 hmem
    exact List.any_eq_true.2 ⟨d, hd, hforwards⟩

/-- What a component instantiates or has forwarded to it, it supplies. -/
theorem mem_supplied_of_holds (h : c.holds p = true) : p ∈ c.supplied := by
  obtain ⟨d, hd, hholds⟩ := List.any_eq_true.1 h
  simp only [Bool.and_eq_true, Bool.or_eq_true, decide_eq_true_eq] at hholds
  obtain ⟨hinstantiated | hforwarded, hproperty⟩ := hholds
  · have hdeclared : d.isDeclared = true := by
      unfold Dependency.isInstantiated at hinstantiated
      unfold Dependency.isDeclared
      cases horigin : d.origin <;> simp_all
    exact mem_supplied.2 ⟨d, hd, Dependency.isSupplied_iff.2 (.inl hdeclared), hproperty⟩
  · exact mem_supplied.2 ⟨d, hd, Dependency.isSupplied_iff.2 (.inr hforwarded), hproperty⟩

theorem mem_needs {below : List Property} :
    p ∈ c.needs below ↔ (p ∈ c.required ∨ p ∈ below) ∧ p ∉ c.supplied := by
  simp [needs, or_and_right]

end Component

end Wiring
