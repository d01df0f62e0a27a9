import Wiring.Proofs.Emission.Bodies

/-!
# The functions of an emission

Every value that needs declarations of its own and every factory is built by a nested function. The
names of the functions are reserved while the scope is walked through; a name that is reserved is never
given away again, so no two functions of a root have one name, whatever the labels are.

* `Factory.freshName_not_mem`: a new name is not reserved.
* `emit_functions`, `nodup_functions_of_emit`: the names of all functions are the reserved names.
* `Body.Lowered`: a body is emitted inside the functions around it; `lowered_of_contains`: all are.
* `builds_of_recursive`: a recursive reference has the name of the nearest function that builds its
  property from its component.
-/

namespace Wiring

/-! ## New names -/

/-- The decimal digits of a number determine it. -/
theorem toString_injective : Function.Injective fun n : Nat => toString n := by
  intro m n h
  have hdigits := congrArg String.toList h
  simp only [Nat.toString_eq_repr, Nat.toList_repr] at hdigits
  have hvalues := congrArg (Nat.ofDigitChars 10 · 0) hdigits
  simpa [Nat.ofDigitChars_toDigits] using hvalues

namespace Factory

variable {declared : List String} {p : Property}

/-- The names for a function differ in their numbers, and the first one has none. -/
theorem candidate_injective (plain : String) : Function.Injective (candidate plain) := by
  have hlonger : ∀ n, plain ≠ plain ++ "_" ++ toString (n + 1) := by
    intro n h
    have hlength := congrArg String.length h
    rw [String.length_append, String.length_append] at hlength
    have hbar : "_".length = 1 := rfl
    omega
  intro m n h
  unfold candidate at h
  split at h <;> split at h
  · omega
  · exact absurd h (hlonger n)
  · exact absurd h.symm (hlonger m)
  · rw [String.append_right_inj] at h
    have := toString_injective h
    omega

/-- **A new name is not reserved.** There are more candidates than reserved names. -/
theorem freshName_not_mem : freshName declared p ∉ declared := by
  set names := (List.range (declared.length + 1)).map (candidate (plainName p)) with hnames
  have hnodup : names.Nodup := List.nodup_range.map (candidate_injective _)
  have hfree : ∃ name ∈ names, name ∉ declared := by
    by_contra hnone
    push Not at hnone
    -- one candidate more than there are reserved names
    have hlength := (List.subperm_of_subset hnodup hnone).length_le
    rw [hnames, List.length_map, List.length_range] at hlength
    omega
  obtain ⟨name, hname, hfresh⟩ := hfree
  have hsome : (names.find? (· ∉ declared)).isSome = true :=
    List.find?_isSome.2 ⟨name, hname, by simpa using hfresh⟩
  obtain ⟨found, hfound⟩ := Option.isSome_iff_exists.1 hsome
  have hnot : found ∉ declared := by simpa using List.find?_some hfound
  rw [freshName, ← hnames]
  simp only [hfound]
  exact hnot

end Factory

/-! ## The names of all functions -/

namespace Emission

mutual

/-- The names of the functions that a declaration and everything below it declare. -/
def functions : Emission → List String
  | .built _ _ _ function body => function.toList ++ functionsAll body
  | .recursive _ _ _ | .renamed _ _ _ => []

/-- The names of the functions that some declarations and everything below them declare. -/
def functionsAll : List Emission → List String
  | [] => []
  | e :: es => functions e ++ functionsAll es

end

theorem functionsAll_eq_flatMap (es : List Emission) : functionsAll es = es.flatMap functions := by
  induction es with
  | nil => rfl
  | cons e es ih => rw [functionsAll, ih, List.flatMap_cons]

/-- Arranging a body keeps its functions. -/
theorem functionsAll_perm_of_arrange {c : Component} {body arranged : List Emission}
    (h : arrange c body = .ok arranged) : (functionsAll arranged).Perm (functionsAll body) := by
  rw [functionsAll_eq_flatMap, functionsAll_eq_flatMap]
  exact (arrange_perm h).flatMap_right _

end Emission

namespace Binding

open scoped List

mutual

/-- **What is reserved after a declaration** is what was reserved before, and the names of its
functions. -/
theorem emit_functions : ∀ {b : Binding} {enclosing : List Factory} {before after : List String}
    {e : Emission}, b.emit enclosing before = .ok (e, after) → before.Nodup →
      after.Perm (e.functions ++ before) ∧ after.Nodup
  | .built p c bindings erased, enclosing, before, after, e, h, hbefore => by
    rcases emit_built_eq_ok h with ⟨-, -, rfl, rfl⟩ | ⟨declarations, body, hall, harrange, rfl⟩
    · exact ⟨List.Perm.refl _, hbefore⟩
    · -- the name is reserved before the body is walked through
      have hfresh : (Factory.freshName before p :: before).Nodup :=
        List.nodup_cons.2 ⟨Factory.freshName_not_mem, hbefore⟩
      obtain ⟨hperm, hafter⟩ := emitAll_functions hall hfresh
      refine ⟨?_, hafter⟩
      have hbody := Emission.functionsAll_perm_of_arrange harrange
      calc after
        _ ~ Emission.functionsAll declarations ++ Factory.freshName before p :: before := hperm
        _ ~ Emission.functionsAll body ++ Factory.freshName before p :: before :=
          hbody.symm.append_right _
        _ ~ Factory.freshName before p :: (Emission.functionsAll body ++ before) :=
          List.perm_middle
  | .recursive p c, enclosing, before, after, e, h, hbefore => by
    obtain ⟨factory, -, rfl, rfl⟩ := emit_recursive_eq_ok h
    exact ⟨List.Perm.refl _, hbefore⟩
  | .renamed p fulfilling erased, enclosing, before, after, e, h, hbefore => by
    cases h
    exact ⟨List.Perm.refl _, hbefore⟩

/-- So it is after several declarations. -/
theorem emitAll_functions : ∀ {bs : List Binding} {enclosing : List Factory}
    {before after : List String} {es : List Emission}, emitAll enclosing before bs = .ok (es, after) →
      before.Nodup → after.Perm (Emission.functionsAll es ++ before) ∧ after.Nodup
  | [], enclosing, before, after, es, h, hbefore => by
    cases h
    exact ⟨List.Perm.refl _, hbefore⟩
  | b :: bs, enclosing, before, after, es, h, hbefore => by
    obtain ⟨e, middle, rest, he, hrest, rfl⟩ := emitAll_cons_eq_ok h
    obtain ⟨hfirst, hmiddle⟩ := emit_functions he hbefore
    obtain ⟨hmore, hafter⟩ := emitAll_functions hrest hmiddle
    refine ⟨?_, hafter⟩
    calc after
      _ ~ Emission.functionsAll rest ++ middle := hmore
      _ ~ Emission.functionsAll rest ++ (e.functions ++ before) := hfirst.append_left _
      _ ~ e.functions ++ (Emission.functionsAll rest ++ before) := List.perm_append_comm_assoc _ _ _
      _ ~ e.functions ++ Emission.functionsAll rest ++ before := by rw [List.append_assoc]

end

end Binding

variable {scope : Scope} {g : RootEmission}

/-- **No two functions of a root have one name.** -/
theorem nodup_functions_of_emit (h : scope.emit = .ok g) :
    (Emission.functionsAll g.body).Nodup := by
  obtain ⟨declarations, after, hall, harrange, -⟩ := Scope.emit_eq_ok h
  obtain ⟨hperm, hafter⟩ := Binding.emitAll_functions hall List.nodup_nil
  rw [List.append_nil] at hperm
  have hbody := Emission.functionsAll_perm_of_arrange harrange
  exact (hbody.trans hperm.symm).nodup_iff.2 hafter

/-! ## The functions around a body -/

namespace Body

/-- The function whose body this is. -/
def factory? (b : Body) : Option Factory :=
  match b.via, b.function with
  | some p, some name => some ⟨p, b.component, name⟩
  | _, _ => none

/-- **The body is that of a function** of the name `function`, which builds `p` from components of the
type of `c`. -/
def Builds (b : Body) (p : Property) (c : Component) (function : String) : Prop :=
  b.via = some p ∧ b.component.concreteType = c.concreteType ∧ b.function = some function

/-- **A body is what is emitted for the bindings** of its component, inside the functions `enclosing`. -/
structure Lowered (enclosing : List Factory) (b : Body) : Prop where
  emitted : ∃ bindings before declarations after,
    Binding.emitAll enclosing before bindings = .ok (declarations, after) ∧
      Emission.arrange b.component declarations = .ok b.declarations
  /-- A factory is made from a function. -/
  function_isSome : b.via.any (·.isDeferred) = true → b.function.isSome = true

variable {b : Body} {p : Property} {c : Component} {factory : Factory}

theorem factory?_eq_some_iff :
    b.factory? = some factory ↔ b.via = some factory.property ∧ b.component = factory.component ∧
      b.function = some factory.name := by
  obtain ⟨via, component, function, declarations⟩ := b
  obtain ⟨p, c, name⟩ := factory
  cases via <;> cases function <;> simp [factory?]

end Body

/-- **The nearest function that builds a property** from a component is that of the nearest body. -/
theorem exists_builds_of_find? {bodies : List Body} {p : Property} {c : Component}
    {factory : Factory} (h : Factory.find? (bodies.filterMap Body.factory?) p c = some factory) :
    ∃ inner f older, bodies = inner ++ f :: older ∧ f.Builds p c factory.name ∧
      ∀ b ∈ inner, ∀ name, ¬ b.Builds p c name := by
  obtain ⟨hfits, first, last, hsplit, hfirst⟩ := List.find?_eq_some_iff_append.1 h
  obtain ⟨nearer, rest, rfl, rfl, hrest⟩ := List.filterMap_eq_append_iff.1 hsplit
  obtain ⟨others, f, older, rfl, hothers, hf, -⟩ := List.filterMap_eq_cons_iff.1 hrest
  obtain ⟨hvia, hcomponent, hfunction⟩ := Body.factory?_eq_some_iff.1 hf
  simp only [Bool.and_eq_true, decide_eq_true_eq] at hfits
  refine ⟨nearer ++ others, f, older, by simp, ?_, ?_⟩
  · exact ⟨hvia.trans (congrArg some hfits.1), (congrArg _ hcomponent).trans hfits.2, hfunction⟩
  · rintro b hb name ⟨hbvia, hbtype, hbfunction⟩
    -- a nearer body that fits would have been found
    have hb' : b.factory? = some ⟨p, b.component, name⟩ :=
      Body.factory?_eq_some_iff.2 ⟨hbvia, rfl, hbfunction⟩
    rcases List.mem_append.1 hb with hb | hb
    · have hnot := hfirst _ (List.mem_filterMap.2 ⟨b, hb, hb'⟩)
      simp [hbtype] at hnot
    · rw [hothers b hb] at hb'
      cases hb'

/-- A declaration of a lowered body comes from a binding. -/
theorem Body.Lowered.exists_emit {enclosing : List Factory} {b : Body} (h : b.Lowered enclosing)
    {e : Emission} (he : e ∈ b.declarations) :
    ∃ binding : Binding, ∃ before after, binding.emit enclosing before = .ok (e, after) := by
  obtain ⟨bindings, before, declarations, after, hall, harrange⟩ := h.emitted
  have he := (Emission.arrange_perm harrange).mem_iff.1 he
  obtain ⟨binding, -, hemit⟩ := exists_emit_of_mem hall he
  exact ⟨binding, hemit⟩

/-- **The body of a value is lowered** inside its own function, if it has one, and those around it. -/
theorem Body.Lowered.inner {enclosing : List Factory} {b : Body} (h : b.Lowered enclosing)
    {p : Property} {c : Component} {erased : Bool} {function : Option String} {body : List Emission}
    (he : Emission.built p c erased function body ∈ b.declarations) :
    Body.Lowered ((Body.factory? ⟨some p, c, function, body⟩).toList ++ enclosing)
      ⟨some p, c, function, body⟩ := by
  obtain ⟨binding, before, after, hemit⟩ := h.exists_emit he
  cases binding with
  | built q d bindings erased' =>
    rcases Binding.emit_built_eq_ok hemit with ⟨hplain, rfl, he, -⟩ | ⟨declarations, arranged, hall,
      harrange, he⟩
    · cases he
      exact ⟨⟨[], [], [], [], rfl, rfl⟩, by simp [hplain]⟩
    · cases he
      exact ⟨⟨_, _, _, _, hall, harrange⟩, fun _ => rfl⟩
  | recursive q d =>
    obtain ⟨factory, -, he, -⟩ := Binding.emit_recursive_eq_ok hemit
    cases he
  | renamed q fulfilling erased' => cases hemit

/-- **Every body of a root is lowered** inside the functions around it, the innermost one first. -/
theorem lowered_of_contains (h : scope.emit = .ok g) {outer : List Enclosure} {b : Body}
    (hb : g.Contains outer b) :
    b.Lowered ((b :: outer.map (·.body)).filterMap Body.factory?) := by
  induction hb with
  | root =>
    obtain ⟨declarations, after, hall, harrange, hcomponent⟩ := Scope.emit_eq_ok h
    exact ⟨⟨_, _, _, _, hall, hcomponent ▸ harrange⟩, by simp⟩
  | @inner outer b earlier later body p c erased function _ hsplit ih =>
    have he : Emission.built p c erased function body ∈ b.declarations := by simp [hsplit]
    have hinner := ih.inner he
    -- a value without a function adds none
    cases hfactory : Body.factory? ⟨some p, c, function, body⟩ with
    | none =>
      rw [hfactory] at hinner
      rwa [List.filterMap_cons_none hfactory]
    | some factory =>
      rw [hfactory] at hinner
      rwa [List.filterMap_cons_some hfactory]

/-- **A recursive reference has the name of the nearest function around it** that builds its property
from its component. -/
theorem builds_of_recursive (h : scope.emit = .ok g) {outer : List Enclosure} {b : Body}
    (hb : g.Contains outer b) {p : Property} {c : Component} {function : String}
    (hr : Emission.recursive p c function ∈ b.declarations) :
    ∃ inner f older, b :: outer.map (·.body) = inner ++ f :: older ∧ f.Builds p c function ∧
      ∀ b' ∈ inner, ∀ name, ¬ b'.Builds p c name := by
  obtain ⟨binding, before, after, hemit⟩ := (lowered_of_contains h hb).exists_emit hr
  cases binding with
  | built q d bindings erased =>
    rcases Binding.emit_built_eq_ok hemit with ⟨-, -, he, -⟩ | ⟨declarations, body, -, -, he⟩ <;>
      cases he
  | renamed q fulfilling erased => cases hemit
  | recursive q d =>
    obtain ⟨factory, hfind, he, -⟩ := Binding.emit_recursive_eq_ok hemit
    cases he
    exact exists_builds_of_find? hfind

end Wiring
