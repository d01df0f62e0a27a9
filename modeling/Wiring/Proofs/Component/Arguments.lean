import Mathlib.Data.List.Perm.Basic
import Wiring.Component.Basic

/-!
# The arguments of a call

The text of a call is made from the arguments that it passes. Each of them takes the dependency of its
label and type, and a call that can be generated passes every dependency once.

* `Component.argumentList_eq_ok`: the text of a call, and the dependencies that it passes.
-/

namespace Wiring

variable {α β ε : Type}

/-- Two computations, one after the other, give a value if both do. -/
theorem bind_eq_ok_iff {x : Except ε α} {f : α → Except ε β} {b : β} :
    x >>= f = .ok b ↔ ∃ a, x = .ok a ∧ f a = .ok b := by
  cases x <;> simp [bind, Except.bind]

/-- They fail if the first one does, or the second one after it. -/
theorem bind_eq_error_iff {x : Except ε α} {f : α → Except ε β} {e : ε} :
    x >>= f = .error e ↔ x = .error e ∨ ∃ a, x = .ok a ∧ f a = .error e := by
  cases x <;> simp [bind, Except.bind]

theorem map_eq_ok_iff {x : Except ε α} {f : α → β} {b : β} :
    x.map f = .ok b ↔ ∃ a, x = .ok a ∧ f a = b := by
  cases x <;> simp [Except.map]

/-- **The arguments that the call of a component passes**, if there is such a call. Without an
initializer every dependency is passed under its own label. -/
def Component.passed (c : Component) : List Argument :=
  match c.initializer with
  | some i =>
    match Initializer.assign i.arguments (c.dependencies.map (·.property)) with
    | .ok (taken, _) => taken
    | .error _ => []
  | none => c.dependencies.map fun d => ⟨none, d.property.label, d.property.type, false⟩

namespace Initializer

/-- Arguments take properties of the list that is handed out, each of them once. -/
theorem assign_perm :
    ∀ {arguments taken : List Argument} {properties left : List Property},
      assign arguments properties = .ok (taken, left) →
      (taken.map Argument.property ++ left).Perm properties
  | [], _, _, _, h => by
    cases h
    exact List.Perm.refl _
  | a :: arguments, taken, properties, left, h => by
    simp only [assign] at h
    split at h
    · rename_i hmem
      obtain ⟨⟨taken', left'⟩, hrest, hpair⟩ := map_eq_ok_iff.1 h
      cases hpair
      have hperm := assign_perm hrest
      exact (hperm.cons a.property).trans (List.perm_cons_erase hmem).symm
    · split at h
      · exact assign_perm h
      · cases h

/-- A call that can be generated uses up the dependencies. -/
theorem argumentList_eq_ok {i : Initializer} {dependencies : List Dependency} {text : String}
    (h : i.argumentList dependencies = .ok text) :
    ∃ taken, assign i.arguments (dependencies.map (·.property)) = .ok (taken, []) ∧
      text = ", ".intercalate (taken.map Argument.call) := by
  unfold argumentList at h
  cases hvalid : i.validate with
  | error e => rw [hvalid] at h; cases h
  | ok valid =>
    rw [hvalid] at h
    cases hassign : assign i.arguments (dependencies.map (·.property)) with
    | error e =>
      rw [hassign] at h
      cases hrefused : dependencies.isEmpty && i.arguments.any (!·.hasDefault) <;>
        rw [hrefused] at h <;> cases h
    | ok rest =>
      obtain ⟨taken, left⟩ := rest
      rw [hassign] at h
      cases hrefused : dependencies.isEmpty && i.arguments.any (!·.hasDefault) with
      | true => rw [hrefused] at h; cases h
      | false =>
        rw [hrefused] at h
        cases left with
        | nil =>
          cases h
          exact ⟨taken, rfl, rfl⟩
        | cons p left => cases h

end Initializer

/-- **The text of a call** holds the arguments that are passed, in order, and they take every dependency
once. -/
theorem Component.argumentList_eq_ok {c : Component} {text : String}
    (h : c.argumentList = .ok text) :
    text = ", ".intercalate (c.passed.map Argument.call) ∧
      (c.passed.map Argument.property).Perm (c.dependencies.map (·.property)) := by
  unfold argumentList at h
  unfold passed
  cases hinitializer : c.initializer with
  | none =>
    rw [hinitializer] at h
    cases h
    simp [Argument.call, Argument.property, Function.comp_def]
  | some i =>
    rw [hinitializer] at h
    obtain ⟨taken, hassign, rfl⟩ := Initializer.argumentList_eq_ok h
    have hperm := Initializer.assign_perm hassign
    simp only [hassign, true_and]
    simpa using hperm

end Wiring
