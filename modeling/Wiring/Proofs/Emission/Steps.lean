import Wiring.Emission.Naming
import Wiring.Proofs.Component.Arguments

/-!
# How bindings are emitted

The bindings of a scope are emitted one after the other, and then the body that they make is arranged.
For each of these steps it is said what comes out of it and how it can fail.

* `Binding.emit_built_eq_ok`, `Binding.emit_recursive_eq_ok`, `Binding.emitAll_cons_eq_ok`,
  `Scope.emit_eq_ok`: what is emitted.
* `Binding.emit_built_eq_error`, `Binding.emitAll_cons_eq_error`,
  `Emission.propertyCycle_of_arrange`: where a fault comes from.
-/

namespace Wiring

variable {enclosing : List Factory} {before after : List String} {p : Property} {c : Component}
  {b : Binding} {bindings : List Binding} {erased : Bool} {e : Emission} {fault : Fault}

/-! ## What is emitted -/

/-- **How a value that is built is emitted**: in place, if nothing has to be declared for it, or by a
function with a new name around the declarations of its body. -/
theorem Binding.emit_built_eq_ok
    (h : (Binding.built p c bindings erased).emit enclosing before = .ok (e, after)) :
    (p.isDeferred = false ∧ bindings = [] ∧ e = .built p c erased none [] ∧ after = before) ∨
      ∃ declarations body,
        emitAll (⟨p, c, Factory.freshName before p⟩ :: enclosing)
          (Factory.freshName before p :: before) bindings = .ok (declarations, after) ∧
        Emission.arrange c declarations = .ok body ∧
        e = .built p c erased (some (Factory.freshName before p)) body := by
  unfold emit at h
  split at h
  · obtain ⟨⟨declarations, declared⟩, hall, h⟩ := bind_eq_ok_iff.1 h
    obtain ⟨body, harrange, h⟩ := bind_eq_ok_iff.1 h
    cases h
    exact .inr ⟨declarations, body, hall, harrange, rfl⟩
  · rename_i hplain
    cases h
    simp only [Bool.or_eq_true, Bool.not_eq_true', not_or, Bool.not_eq_true, Bool.not_eq_false,
      List.isEmpty_iff] at hplain
    exact .inl ⟨hplain.1, hplain.2, rfl, rfl⟩

/-- A recursive reference takes the name of the nearest enclosing function that fits. -/
theorem Binding.emit_recursive_eq_ok
    (h : (Binding.recursive p c).emit enclosing before = .ok (e, after)) :
    ∃ factory, Factory.find? enclosing p c = some factory ∧ e = .recursive p c factory.name ∧
      after = before := by
  unfold emit at h
  cases hfind : Factory.find? enclosing p c with
  | none => rw [hfind] at h; cases h
  | some factory =>
    rw [hfind] at h
    cases h
    exact ⟨factory, rfl, rfl, rfl⟩

/-- Several declarations are emitted one after the other. -/
theorem Binding.emitAll_cons_eq_ok {es : List Emission}
    (h : emitAll enclosing before (b :: bindings) = .ok (es, after)) :
    ∃ e middle rest, b.emit enclosing before = .ok (e, middle) ∧
      emitAll enclosing middle bindings = .ok (rest, after) ∧ es = e :: rest := by
  unfold emitAll at h
  obtain ⟨⟨e, middle⟩, he, h⟩ := bind_eq_ok_iff.1 h
  obtain ⟨⟨rest, last⟩, hrest, h⟩ := bind_eq_ok_iff.1 h
  cases h
  exact ⟨e, middle, rest, he, hrest, rfl⟩

/-- Each of several declarations comes from one of the bindings. -/
theorem exists_emit_of_mem :
    ∀ {bindings : List Binding} {before after : List String} {declarations : List Emission},
      Binding.emitAll enclosing before bindings = .ok (declarations, after) → e ∈ declarations →
      ∃ b ∈ bindings, ∃ before after, b.emit enclosing before = .ok (e, after)
  | [], _, _, _, h, he => by
    cases h
    cases he
  | b :: bindings, _, _, _, h, he => by
    obtain ⟨first, middle, rest, hfirst, hrest, rfl⟩ := Binding.emitAll_cons_eq_ok h
    rcases List.mem_cons.1 he with rfl | he
    · exact ⟨b, List.mem_cons_self, _, _, hfirst⟩
    · obtain ⟨b', hb', hemit⟩ := exists_emit_of_mem hrest he
      exact ⟨b', List.mem_cons_of_mem _ hb', hemit⟩

/-- The body of a root is what is emitted for its bindings. -/
theorem Scope.emit_eq_ok {scope : Scope} {g : RootEmission} (h : scope.emit = .ok g) :
    ∃ declarations after, Binding.emitAll [] [] scope.bindings = .ok (declarations, after) ∧
      Emission.arrange scope.component declarations = .ok g.body ∧ g.component = scope.component := by
  obtain ⟨⟨declarations, after⟩, hall, h⟩ := bind_eq_ok_iff.1 h
  obtain ⟨body, harrange, h⟩ := bind_eq_ok_iff.1 h
  cases h
  exact ⟨declarations, after, hall, harrange, rfl⟩

/-! ## What can fail -/

/-- A body cannot be arranged only if its properties need each other. -/
theorem Emission.propertyCycle_of_arrange {body : List Emission}
    (h : arrange c body = .error fault) : ∃ cycle, fault = .propertyCycle c.concreteType cycle := by
  unfold arrange at h
  split at h
  · cases h
  · cases h
    exact ⟨_, rfl⟩

/-- A value that is built is not emitted if its body is not, or cannot be arranged. -/
theorem Binding.emit_built_eq_error
    (h : (Binding.built p c bindings erased).emit enclosing before = .error fault) :
    (∃ name, emitAll (⟨p, c, name⟩ :: enclosing) (name :: before) bindings = .error fault) ∨
      ∃ declarations, Emission.arrange c declarations = .error fault := by
  unfold emit at h
  split at h
  · rcases bind_eq_error_iff.1 h with h | ⟨⟨declarations, declared⟩, -, h⟩
    · exact .inl ⟨_, h⟩
    · rcases bind_eq_error_iff.1 h with h | ⟨body, -, h⟩
      · exact .inr ⟨_, h⟩
      · cases h
  · cases h

theorem Binding.emitAll_cons_eq_error (h : emitAll enclosing before (b :: bindings) = .error fault) :
    b.emit enclosing before = .error fault ∨
      ∃ middle, emitAll enclosing middle bindings = .error fault := by
  unfold emitAll at h
  rcases bind_eq_error_iff.1 h with h | ⟨⟨e, middle⟩, -, h⟩
  · exact .inl h
  · rcases bind_eq_error_iff.1 h with h | ⟨rest, -, h⟩
    · exact .inr ⟨middle, h⟩
    · cases h

end Wiring
