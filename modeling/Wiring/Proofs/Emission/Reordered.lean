import Wiring.Proofs.Emission.Bodies
import Wiring.Proofs.Component.Rearranged

/-!
# Emissions and the order of siblings

What is declared in a body may stand in another order, in all bodies alike. Where both orders can be
emitted, they lead to the same bodies with the same needs; functions may get other names.

* `Scope.IsReordered`: a scope with its declarations in another order.
* `Emission.IsReordered`, `Body.IsReordered`: the same for what is emitted.
* `Emission.IsReordered.required_eq`: the same is needed.
* `Scope.IsReordered.emit`: two orders of a scope have two orders of one emission.
-/

namespace Wiring

/-! ## The same in another order -/

namespace Binding

mutual

/-- **The same declaration with all below it in another order.** -/
def IsReordered : Binding → Binding → Prop
  | .built p c bindings erased, b => ∃ c' each bindings', b = .built p c' bindings' erased ∧
      c.IsRearranged c' ∧ AreReordered bindings each ∧ each.Perm bindings'
  | .recursive p c, b => ∃ c', b = .recursive p c' ∧ c.IsRearranged c'
  | .renamed p fulfilling erased, b => b = .renamed p fulfilling erased

/-- The same declarations one by one, each with all below it in another order. -/
def AreReordered : List Binding → List Binding → Prop
  | [], each => each = []
  | b :: bs, each => ∃ b' rest, each = b' :: rest ∧ IsReordered b b' ∧ AreReordered bs rest

end

mutual

theorem isReordered_refl : ∀ b : Binding, b.IsReordered b
  | .built _ c bindings _ =>
    ⟨c, bindings, bindings, rfl, ⟨_, .rfl, rfl⟩, areReordered_refl bindings, .rfl⟩
  | .recursive _ c => ⟨c, rfl, _, .rfl, rfl⟩
  | .renamed _ _ _ => rfl

theorem areReordered_refl : ∀ bindings : List Binding, AreReordered bindings bindings
  | [] => rfl
  | b :: bindings => ⟨b, bindings, rfl, isReordered_refl b, areReordered_refl bindings⟩

end

end Binding

/-- **The same scope with its declarations in another order**, here and in all bodies below. -/
def Scope.IsReordered (scope scope' : Scope) : Prop :=
  scope.component.IsRearranged scope'.component ∧
    ∃ each, Binding.AreReordered scope.bindings each ∧ each.Perm scope'.bindings

namespace Emission

mutual

/-- **The same emission with all below it in another order** and with functions of any names. -/
def IsReordered : Emission → Emission → Prop
  | .built p c erased _ body, e => ∃ c' function' each body',
      e = .built p c' erased function' body' ∧ c.IsRearranged c' ∧ AreReordered body each ∧
        each.Perm body'
  | .recursive p c _, e => ∃ c' function', e = .recursive p c' function' ∧ c.IsRearranged c'
  | .renamed p fulfilling erased, e => e = .renamed p fulfilling erased

/-- The same emissions one by one, each with all below it in another order. -/
def AreReordered : List Emission → List Emission → Prop
  | [], each => each = []
  | e :: es, each => ∃ e' rest, each = e' :: rest ∧ IsReordered e e' ∧ AreReordered es rest

end

theorem areReordered_iff {es each : List Emission} :
    AreReordered es each ↔ List.Forall₂ IsReordered es each := by
  induction es generalizing each with
  | nil => rw [AreReordered, List.forall₂_nil_left_iff]
  | cons e es ih =>
    rw [AreReordered, List.forall₂_cons_left_iff]
    constructor
    · rintro ⟨e', rest, rfl, he, hrest⟩
      exact ⟨e', rest, he, ih.1 hrest, rfl⟩
    · rintro ⟨e', rest, he, hrest, rfl⟩
      exact ⟨e', rest, rfl, he, ih.2 hrest⟩

end Emission

/-- **The same body with its declarations in another order.** -/
structure Body.IsReordered (b b' : Body) : Prop where
  via_eq : b'.via = b.via
  component : b.component.IsRearranged b'.component
  each : ∃ each, List.Forall₂ Emission.IsReordered b.declarations each ∧ each.Perm b'.declarations

/-! ## The same is needed -/

namespace Emission

variable {e e' : Emission} {body body' each : List Emission} {p : Property}

theorem mem_requiredAll_of_perm (h : body.Perm body') : p ∈ requiredAll body ↔ p ∈ requiredAll body' := by
  rw [mem_requiredAll, mem_requiredAll]
  exact exists_congr fun e => and_congr_left fun _ => h.mem_iff

mutual

/-- **The same is needed.** -/
theorem IsReordered.required_eq : ∀ {e e' : Emission}, IsReordered e e' → e'.required = e.required
  | .built p c erased function body, e', h => by
    obtain ⟨c', function', each, body', rfl, hc, heach, hperm⟩ := h
    refine hc.needs_eq fun q => ?_
    rw [← AreReordered.requiredAll_eq heach]
    exact (mem_requiredAll_of_perm hperm).symm
  | .recursive p c function, e', h => by
    obtain ⟨c', function', rfl, -⟩ := h
    rfl
  | .renamed p fulfilling erased, e', h => by
    rw [show e' = .renamed p fulfilling erased from h]

theorem AreReordered.requiredAll_eq : ∀ {es each : List Emission}, AreReordered es each →
    requiredAll each = requiredAll es
  | [], each, h => by rw [show each = [] from h]
  | e :: es, each, h => by
    obtain ⟨e', rest, rfl, he, hrest⟩ := h
    rw [requiredAll, requiredAll, IsReordered.required_eq he, AreReordered.requiredAll_eq hrest]

end

end Emission

namespace Body.IsReordered

variable {b b' : Body}

theorem required_eq (h : b.IsReordered b') : b'.required = b.required := by
  obtain ⟨each, heach, hperm⟩ := h.each
  refine h.component.needs_eq fun p => ?_
  rw [← (Emission.areReordered_iff.2 heach).requiredAll_eq]
  exact (Emission.mem_requiredAll_of_perm hperm).symm

/-- **A body right below has its counterpart.** -/
theorem exists_inner (h : b.IsReordered b') {p : Property} {c : Component} {erased : Bool}
    {function : Option String} {body : List Emission}
    (hmem : .built p c erased function body ∈ b.declarations) :
    ∃ c' function' body', .built p c' erased function' body' ∈ b'.declarations ∧
      IsReordered ⟨some p, c, function, body⟩ ⟨some p, c', function', body'⟩ := by
  obtain ⟨each, heach, hperm⟩ := h.each
  obtain ⟨e', he', hreordered⟩ := exists_of_mem_forall₂ heach.flip _ hmem
  obtain ⟨c', function', inner, body', rfl, hc, hinner, hbody⟩ := hreordered
  exact ⟨c', function', body', hperm.mem_iff.1 he', rfl, hc, inner,
    Emission.areReordered_iff.1 hinner, hbody⟩

end Body.IsReordered

/-- **The same root with all bodies in another order.** -/
def RootEmission.IsReordered (g g' : RootEmission) : Prop :=
  Body.IsReordered ⟨none, g.component, none, g.body⟩ ⟨none, g'.component, none, g'.body⟩

/-- Every body has its counterpart, to which the same way leads. -/
theorem RootEmission.IsReordered.exists_contains {g g' : RootEmission} (h : g.IsReordered g')
    {outer : List Enclosure} {b : Body} (hb : g.Contains outer b) :
    ∃ outer' b', g'.Contains outer' b' ∧ outer'.map (·.body.via) = outer.map (·.body.via) ∧
      b.IsReordered b' := by
  induction hb with
  | root => exact ⟨[], _, .root, rfl, h⟩
  | @inner outer b earlier later body p c erased function _ hsplit ih =>
    obtain ⟨outer', b', hb', houter, hreordered⟩ := ih
    have hmem : .built p c erased function body ∈ b.declarations := by simp [hsplit]
    obtain ⟨c', function', body', hmem', hinner⟩ := hreordered.exists_inner hmem
    obtain ⟨earlier', later', hsplit'⟩ := List.append_of_mem hmem'
    refine ⟨⟨b', earlier'⟩ :: outer', _, .inner hb' hsplit', ?_, hinner⟩
    rw [List.map_cons, List.map_cons, houter, hreordered.via_eq]

/-! ## What is emitted -/

namespace Binding

/-- The emission is what the declaration is emitted as somewhere. -/
def EmitsSomewhere (b : Binding) (e : Emission) : Prop :=
  ∃ enclosing before after, b.emit enclosing before = .ok (e, after)

theorem emitsSomewhere_of_emitAll {enclosing : List Factory} :
    ∀ {bindings : List Binding} {before after : List String} {es : List Emission},
      emitAll enclosing before bindings = .ok (es, after) → List.Forall₂ EmitsSomewhere bindings es
  | [], _, _, _, h => by
    cases h
    exact .nil
  | b :: bindings, _, _, _, h => by
    obtain ⟨e, middle, rest, he, hrest, rfl⟩ := emitAll_cons_eq_ok h
    exact .cons ⟨_, _, _, he⟩ (emitsSomewhere_of_emitAll hrest)

/-- A value is emitted with what its bindings are emitted as, in some order. -/
theorem EmitsSomewhere.exists_body {p : Property} {c : Component} {bindings : List Binding}
    {erased : Bool} {e : Emission} (h : (Binding.built p c bindings erased).EmitsSomewhere e) :
    ∃ function declarations body, List.Forall₂ EmitsSomewhere bindings declarations ∧
      declarations.Perm body ∧ e = .built p c erased function body := by
  obtain ⟨enclosing, before, after, h⟩ := h
  rcases emit_built_eq_ok h with ⟨-, rfl, rfl, -⟩ | ⟨declarations, body, hall, harrange, rfl⟩
  · exact ⟨none, [], [], .nil, .rfl, rfl⟩
  · exact ⟨_, declarations, body, emitsSomewhere_of_emitAll hall,
      (Emission.arrange_perm harrange).symm, rfl⟩

mutual

/-- **Two orders of a declaration have two orders of one emission.** -/
theorem IsReordered.emits : ∀ {b b' : Binding} {e e' : Emission}, b.IsReordered b' →
    b.EmitsSomewhere e → b'.EmitsSomewhere e' → e.IsReordered e'
  | .built p c bindings erased, b', e, e', h, he, he' => by
    obtain ⟨c', each, bindings', rfl, hc, heach, hperm⟩ := h
    obtain ⟨function, declarations, body, hdeclarations, hbody, rfl⟩ := he.exists_body
    obtain ⟨function', declarations', body', hdeclarations', hbody', rfl⟩ := he'.exists_body
    -- the orders of the bindings and those of the bodies are put one after the other
    obtain ⟨moved, hmoved, hmovedperm⟩ := List.perm_comp_forall₂ hperm hdeclarations'
    obtain ⟨arranged, harranged, harrangedperm⟩ :=
      List.perm_comp_forall₂ hbody.symm (AreReordered.emits heach hdeclarations hmoved)
    exact ⟨c', function', arranged, body', rfl, hc, Emission.areReordered_iff.2 harranged,
      (harrangedperm.trans hmovedperm).trans hbody'⟩
  | .recursive p c, b', e, e', h, he, he' => by
    obtain ⟨c', rfl, hc⟩ := h
    obtain ⟨_, _, _, he⟩ := he
    obtain ⟨_, _, _, he'⟩ := he'
    obtain ⟨factory, -, rfl, -⟩ := emit_recursive_eq_ok he
    obtain ⟨factory', -, rfl, -⟩ := emit_recursive_eq_ok he'
    exact ⟨c', factory'.name, rfl, hc⟩
  | .renamed p fulfilling erased, b', e, e', h, he, he' => by
    rw [show b' = .renamed p fulfilling erased from h] at he'
    obtain ⟨_, _, _, he⟩ := he
    obtain ⟨_, _, _, he'⟩ := he'
    cases he
    cases he'
    rfl

theorem AreReordered.emits : ∀ {bindings each : List Binding} {es es' : List Emission},
    AreReordered bindings each → List.Forall₂ EmitsSomewhere bindings es →
    List.Forall₂ EmitsSomewhere each es' → List.Forall₂ Emission.IsReordered es es'
  | [], each, es, es', h, hes, hes' => by
    rw [show each = [] from h] at hes'
    cases hes
    cases hes'
    exact .nil
  | b :: bindings, each, es, es', h, hes, hes' => by
    obtain ⟨b', rest, rfl, hb, hrest⟩ := h
    cases hes with
    | cons he hes =>
      cases hes' with
      | cons he' hes' => exact .cons (IsReordered.emits hb he he') (AreReordered.emits hrest hes hes')

end

end Binding

/-- **Two orders of a scope that are both emitted have two orders of one emission.** -/
theorem Scope.IsReordered.emit {scope scope' : Scope} {g g' : RootEmission}
    (hscope : scope.IsReordered scope') (h : scope.emit = .ok g) (h' : scope'.emit = .ok g') :
    g.IsReordered g' := by
  obtain ⟨hc, each, heach, hperm⟩ := hscope
  obtain ⟨declarations, after, hall, harrange, hcomponent⟩ := Scope.emit_eq_ok h
  obtain ⟨declarations', after', hall', harrange', hcomponent'⟩ := Scope.emit_eq_ok h'
  obtain ⟨moved, hmoved, hmovedperm⟩ :=
    List.perm_comp_forall₂ hperm (Binding.emitsSomewhere_of_emitAll hall')
  obtain ⟨arranged, harranged, harrangedperm⟩ :=
    List.perm_comp_forall₂ (Emission.arrange_perm harrange)
      (heach.emits (Binding.emitsSomewhere_of_emitAll hall) hmoved)
  refine ⟨rfl, ?_, arranged, harranged, ?_⟩
  · rw [hcomponent, hcomponent']
    exact hc
  · exact (harrangedperm.trans hmovedperm).trans (Emission.arrange_perm harrange').symm

end Wiring
