import Wiring.Emission.Code
import Wiring.Proofs.Emission.Functions

/-!
# Every emission has code

The code of a body asks again for the arguments of each call and for the function of each factory.
Resolution has checked the first and naming has made the second, for every body of a root that is built;
so nothing can fail any more.

* `Emission.exists_code_built`: what the code of a value asks for.
* `exists_codeAll_of_contains`: every body has code, by way of the bodies inside.
* `exists_code_of_build`: every root that is built has code.
-/

namespace Wiring

variable {registry : Registry} {limit : Nat} {root : Component} {g : RootEmission}

theorem Component.exists_arguments {c : Component} {text : String}
    (h : c.argumentList = .ok text) : c.arguments = .ok text := by
  rw [arguments, h]
  rfl

namespace Emission

/-- Declarations that have code each have code together. -/
theorem exists_codeAll {es : List Emission} (h : ∀ e ∈ es, ∃ text, e.code = .ok text) :
    ∃ text, codeAll es = .ok text := by
  induction es with
  | nil => exact ⟨"", rfl⟩
  | cons e es ih =>
    obtain ⟨hfirst, hrest⟩ := List.forall_mem_cons.1 h
    obtain ⟨first, hfirst⟩ := hfirst
    obtain ⟨rest, hrest⟩ := ih hrest
    refine ⟨first ++ rest, ?_⟩
    rw [codeAll, hfirst, hrest]
    rfl

/-- The code of a value with a function. -/
theorem code_built_some {p : Property} {c : Component} {erased : Bool} {name : String}
    {body : List Emission} {call inner : String} (hcall : c.arguments = .ok call)
    (hbody : codeAll body = .ok inner) :
    (Emission.built p c erased (some name) body).code =
      .ok (if p.isDeferred then
        factoryCode p c erased name (c.callee ++ "(" ++ call ++ ")") inner
      else calledCode p erased name (c.callee ++ "(" ++ call ++ ")") inner) := by
  rw [code, hcall]
  simp only [hbody, bind, Except.bind]
  split <;> rfl

/-- **A value has code** if the call that builds it can be generated, its body has code, and there is a
function if it is a factory. -/
theorem exists_code_built {p : Property} {c : Component} {erased : Bool} {function : Option String}
    {body : List Emission} (hcall : ∃ text, c.argumentList = .ok text)
    (hfunction : p.isDeferred = true → function.isSome = true)
    (hbody : ∃ text, codeAll body = .ok text) :
    ∃ text, (Emission.built p c erased function body).code = .ok text := by
  obtain ⟨call, hcall⟩ := hcall
  obtain ⟨inner, hbody⟩ := hbody
  have hcall := Component.exists_arguments hcall
  cases function with
  | none =>
    have hplain : p.isDeferred = false := by
      by_contra hdeferred
      have hsome := hfunction (by simpa using hdeferred)
      cases hsome
    refine ⟨valueCode p c erased (c.callee ++ "(" ++ call ++ ")"), ?_⟩
    rw [code, hcall]
    simp only [hplain]
    rfl
  | some name => exact ⟨_, code_built_some hcall hbody⟩

end Emission

/-- **Every body of a root that is built has code.** -/
theorem exists_codeAll_of_contains (h : registry.build limit root = .ok g) {outer : List Enclosure}
    {b : Body} (hb : g.Contains outer b) : ∃ text, Emission.codeAll b.declarations = .ok text := by
  obtain ⟨scope, -, hemit⟩ := Registry.build_eq_ok h
  refine Emission.exists_codeAll ?_
  intro e he
  cases e with
  | recursive p c function => exact ⟨_, rfl⟩
  | renamed p fulfilling erased => exact ⟨_, rfl⟩
  | built p c erased function body =>
    -- the body of the value is one of the root's bodies again
    obtain ⟨earlier, later, hsplit⟩ := List.append_of_mem he
    have hinner := RootEmission.Contains.inner hb hsplit
    have hsmaller := List.sizeOf_lt_of_mem he
    refine Emission.exists_code_built (emitted_of_contains h hinner).called ?_
      (exists_codeAll_of_contains h hinner)
    intro hdeferred
    exact (lowered_of_contains hemit hinner).function_isSome (by simpa using hdeferred)
termination_by sizeOf b.declarations
decreasing_by
  simp at hsmaller ⊢
  omega

/-- **Every root that is built has code.** -/
theorem exists_code_of_build (h : registry.build limit root = .ok g) :
    ∃ code, g.code = .ok code := by
  obtain ⟨body, hbody⟩ := exists_codeAll_of_contains h .root
  obtain ⟨call, hcall⟩ := (emitted_of_build h).2.called
  have hbody : Emission.codeAll g.body = .ok body := hbody
  have hcall : g.component.arguments = .ok call := Component.exists_arguments hcall
  unfold RootEmission.code
  simp only [hbody, hcall, bind, Except.bind]
  split
  · exact ⟨_, rfl⟩
  · split <;> exact ⟨_, rfl⟩

end Wiring
