import Wiring.Proofs.Emission.Acyclic
import Wiring.Proofs.Emission.Reordered
import Wiring.Proofs.Resolution.Rearranged

/-!
# Emission and the order of dependencies

Declarations in another order are emitted with functions of other names and in another order. But whether
they are emitted at all depends only on what each of them needs, and this on none of it.

* `Emission.IsRearranged`: the same emission with all below it in another order.
* `Emission.IsRearranged.required_eq`: it needs the same.
* `Emission.exists_arrange`: bodies can be arranged in either order, or in none.
* `Binding.exists_emit`: what is emitted for the same declarations.
-/

namespace Wiring

namespace Emission

/-! ## The same emission -/

mutual

/-- **The same emission with all below it in another order** and with functions of any names, where no
body declares a property twice. -/
def IsRearranged : Emission → Emission → Prop
  | .built p c erased _ body, e => ∃ c' function' each body',
      e = .built p c' erased function' body' ∧ c.IsRearranged c' ∧ (body.map property).Nodup ∧
        AreRearranged body each ∧ each.Perm body'
  | .recursive p c _, e => ∃ c' function', e = .recursive p c' function' ∧ c.IsRearranged c'
  | .renamed p fulfilling erased, e => e = .renamed p fulfilling erased

/-- The same emissions one by one, each with all below it in another order. -/
def AreRearranged : List Emission → List Emission → Prop
  | [], each => each = []
  | e :: es, each => ∃ e' rest, each = e' :: rest ∧ IsRearranged e e' ∧ AreRearranged es rest

end

theorem areRearranged_iff {es each : List Emission} :
    AreRearranged es each ↔ List.Forall₂ IsRearranged es each := by
  induction es generalizing each with
  | nil => rw [AreRearranged, List.forall₂_nil_left_iff]
  | cons e es ih =>
    rw [AreRearranged, List.forall₂_cons_left_iff]
    constructor
    · rintro ⟨e', rest, rfl, he, hrest⟩
      exact ⟨e', rest, he, ih.1 hrest, rfl⟩
    · rintro ⟨e', rest, he, hrest, rfl⟩
      exact ⟨e', rest, rfl, he, ih.2 hrest⟩

/-- **The same body in another order**, where no property is declared twice. -/
structure SameBody (body body' : List Emission) : Prop where
  nodup : (body.map property).Nodup
  each : ∃ each, List.Forall₂ IsRearranged body each ∧ each.Perm body'

variable {e e' : Emission} {body body' each : List Emission} {p q : Property}

theorem isRearranged_built {c : Component} {erased : Bool} {function : Option String} :
    IsRearranged (.built p c erased function body) e ↔ ∃ c' function' body',
      e = .built p c' erased function' body' ∧ c.IsRearranged c' ∧ SameBody body body' := by
  rw [IsRearranged]
  constructor
  · rintro ⟨c', function', each, body', he, hc, hnodup, heach, hperm⟩
    exact ⟨c', function', body', he, hc, hnodup, each, areRearranged_iff.1 heach, hperm⟩
  · rintro ⟨c', function', body', he, hc, hnodup, each, heach, hperm⟩
    exact ⟨c', function', each, body', he, hc, hnodup, areRearranged_iff.2 heach, hperm⟩

theorem IsRearranged.property_eq (h : IsRearranged e e') : e'.property = e.property := by
  cases e with
  | built p c erased function body =>
    obtain ⟨c', function', body', rfl, -⟩ := isRearranged_built.1 h
    rfl
  | recursive p c function =>
    obtain ⟨c', function', rfl, -⟩ := h
    rfl
  | renamed p fulfilling erased => rw [show e' = .renamed p fulfilling erased from h]

mutual

/-- Leaving aside that no property is declared twice, it is the same in another order. -/
theorem IsRearranged.isReordered : ∀ {e e' : Emission}, IsRearranged e e' → IsReordered e e'
  | .built p c erased function body, e', h => by
    obtain ⟨c', function', each, body', rfl, hc, -, heach, hperm⟩ := h
    exact ⟨c', function', each, body', rfl, hc, AreRearranged.areReordered heach, hperm⟩
  | .recursive _ _ _, _, h => h
  | .renamed _ _ _, _, h => h

theorem AreRearranged.areReordered : ∀ {es each : List Emission}, AreRearranged es each →
    AreReordered es each
  | [], _, h => h
  | e :: es, each, h => by
    obtain ⟨e', rest, rfl, he, hrest⟩ := h
    exact ⟨e', rest, rfl, IsRearranged.isReordered he, AreRearranged.areReordered hrest⟩

end

/-- **The same is needed.** -/
theorem IsRearranged.required_eq (h : IsRearranged e e') : e'.required = e.required :=
  h.isReordered.required_eq

/-! ## The same body -/

namespace SameBody

theorem mem_requiredAll_iff (h : SameBody body body') :
    p ∈ requiredAll body' ↔ p ∈ requiredAll body := by
  obtain ⟨each, heach, hperm⟩ := h.each
  rw [← (areRearranged_iff.2 heach).areReordered.requiredAll_eq]
  exact (mem_requiredAll_of_perm hperm).symm

/-- The same properties are declared, and each of them needs the same. -/
theorem map_perm (h : SameBody body body') :
    (body'.map fun e => (e.property, e.required)).Perm
      (body.map fun e => (e.property, e.required)) := by
  obtain ⟨each, heach, hperm⟩ := h.each
  have hsame : ∀ e e', IsRearranged e e' → (e'.property, e'.required) = (e.property, e.required) :=
    fun e e' he => by rw [he.property_eq, he.required_eq]
  rw [← map_eq_of_forall₂ hsame heach]
  exact (hperm.map _).symm

theorem nodup_right (h : SameBody body body') : (body'.map property).Nodup := by
  have hperm := h.map_perm.map Prod.fst
  rw [List.map_map, List.map_map] at hperm
  exact hperm.nodup_iff.2 h.nodup

theorem needsIn_iff (h : SameBody body body') : NeedsIn body' p q ↔ NeedsIn body p q := by
  have hkeys : ∀ es : List Emission, NeedsIn es p q ↔
      (∃ k ∈ es.map fun e => (e.property, e.required), k.1 = p ∧ q ∈ k.2) ∧
        ∃ k ∈ es.map fun e => (e.property, e.required), k.1 = q := by
    intro es
    simp [NeedsIn]
  rw [hkeys, hkeys]
  simp only [h.map_perm.mem_iff]

/-- The first of the bodies may itself be moved around. -/
theorem of_perm (h : SameBody body body') {moved : List Emission} (hmoved : moved.Perm body) :
    SameBody moved body' := by
  obtain ⟨each, heach, hperm⟩ := h.each
  obtain ⟨each', heach', hperm'⟩ := List.perm_comp_forall₂ hmoved heach
  exact ⟨(hmoved.map property).nodup_iff.2 h.nodup, each', heach', hperm'.trans hperm⟩

theorem trans_perm (h : SameBody body body') {moved : List Emission} (hmoved : body'.Perm moved) :
    SameBody body moved := by
  obtain ⟨each, heach, hperm⟩ := h.each
  exact ⟨h.nodup, each, heach, hperm.trans hmoved⟩

/-- **If a body can be arranged, it can be in another order.** -/
theorem exists_arrange (h : SameBody body body') {c : Component} {arranged : List Emission}
    (c' : Component) (harrange : arrange c body = .ok arranged) :
    ∃ arranged', arrange c' body' = .ok arranged' ∧ SameBody arranged arranged' := by
  have hacyclic := (arrange_eq_ok_iff h.nodup).1 ⟨arranged, harrange⟩
  have hneeds : NeedsIn body' = NeedsIn body := by
    funext p q
    exact propext h.needsIn_iff
  obtain ⟨arranged', harrange'⟩ := (arrange_eq_ok_iff h.nodup_right).2 (hneeds ▸ hacyclic)
  exact ⟨arranged', harrange',
    (h.of_perm (arrange_perm harrange)).trans_perm (arrange_perm harrange').symm⟩

end SameBody

end Emission

/-! ## What is emitted -/

/-- A function for the same property that builds the same component. -/
def Factory.IsRearranged (f f' : Factory) : Prop :=
  f'.property = f.property ∧ f.component.IsRearranged f'.component

/-- The same references are bound. -/
theorem Factory.exists_find? {enclosing enclosing' : List Factory} {p : Property} {c c' : Component}
    (h : List.Forall₂ Factory.IsRearranged enclosing enclosing') (hc : c.IsRearranged c')
    {f : Factory} (hfind : Factory.find? enclosing p c = some f) :
    ∃ f', Factory.find? enclosing' p c' = some f' := by
  unfold find? at hfind ⊢
  induction h with
  | nil => cases hfind
  | @cons a a' rest rest' ha _ ih =>
    rw [List.find?_cons] at hfind ⊢
    rw [ha.1, ha.2.concreteType_eq, hc.concreteType_eq]
    split
    · exact ⟨a', rfl⟩
    · rename_i hother
      rw [hother] at hfind
      have hrest := ih hfind
      rwa [hc.concreteType_eq] at hrest

namespace Binding

variable {enclosing enclosing' : List Factory}

/-- **What is emitted in place of `e`** inside the functions `enclosing'`, whatever names are declared. -/
def Emits (enclosing : List Factory) (b : Binding) (e : Emission) : Prop :=
  ∀ before, ∃ e' after, b.emit enclosing before = .ok (e', after) ∧ e.IsRearranged e'

theorem exists_emitAll {bindings : List Binding} {es : List Emission}
    (h : List.Forall₂ (Emits enclosing) bindings es) :
    ∀ before, ∃ es' after, emitAll enclosing before bindings = .ok (es', after) ∧
      List.Forall₂ Emission.IsRearranged es es' := by
  induction h with
  | nil => exact fun before => ⟨[], before, rfl, .nil⟩
  | cons hb _ ih =>
    intro before
    obtain ⟨e', middle, he, hrearranged⟩ := hb before
    obtain ⟨es', after, hes, hrest⟩ := ih middle
    refine ⟨e' :: es', after, ?_, .cons hrearranged hrest⟩
    unfold emitAll
    rw [he]
    simp only [bind, Except.bind]
    rw [hes]
    rfl

theorem property_of_emit {b : Binding} {before after : List String} {e : Emission}
    (h : b.emit enclosing before = .ok (e, after)) : e.property = b.property := by
  cases b with
  | built p c bindings erased =>
    rcases emit_built_eq_ok h with ⟨-, -, rfl, -⟩ | ⟨declarations, body, -, -, rfl⟩ <;> rfl
  | recursive p c =>
    obtain ⟨factory, -, rfl, -⟩ := emit_recursive_eq_ok h
    rfl
  | renamed p fulfilling erased =>
    cases h
    rfl

theorem properties_of_emitAll :
    ∀ {bindings : List Binding} {before after : List String} {es : List Emission},
      emitAll enclosing before bindings = .ok (es, after) →
      es.map Emission.property = bindings.map property
  | [], _, _, _, h => by
    cases h
    rfl
  | b :: bindings, _, _, _, h => by
    obtain ⟨e, middle, rest, he, hrest, rfl⟩ := emitAll_cons_eq_ok h
    rw [List.map_cons, List.map_cons, property_of_emit he, properties_of_emitAll hrest]

/-- Declarations that are emitted one by one are emitted in another order. -/
theorem exists_emitAll_of_perm {each bindings' : List Binding} {es : List Emission}
    (hnodup : (es.map Emission.property).Nodup) (h : List.Forall₂ (Emits enclosing) each es)
    (hperm : each.Perm bindings') (before : List String) :
    ∃ es' after, emitAll enclosing before bindings' = .ok (es', after) ∧
      Emission.SameBody es es' := by
  obtain ⟨moved, hmoved, hes⟩ := List.perm_comp_forall₂ hperm.symm h
  obtain ⟨es', after, hes', hrearranged⟩ := exists_emitAll hmoved before
  have hsame : Emission.SameBody moved es' :=
    ⟨((hes.map _).nodup_iff).2 hnodup, es', hrearranged, .rfl⟩
  exact ⟨es', after, hes', hsame.of_perm hes.symm⟩

mutual

/-- **What is emitted for a declaration is emitted for the same one** with all below it in another
order. -/
theorem exists_emit : ∀ {b b' : Binding} {enclosing enclosing' : List Factory}
    {before after : List String} {e : Emission}, b.IsRearranged b' →
      List.Forall₂ Factory.IsRearranged enclosing enclosing' →
      b.emit enclosing before = .ok (e, after) → Emits enclosing' b' e
  | .built p c bindings erased, b', enclosing, enclosing', before, after, e, h, henclosing, he => by
    obtain ⟨c', each, bindings', rfl, hc, hnodup, heach, hperm⟩ := h
    intro before'
    have hempty : bindings'.isEmpty = bindings.isEmpty := by
      rw [← hperm.isEmpty_eq]
      cases areRearranged_iff.1 heach <;> rfl
    unfold emit at he ⊢
    rw [hempty]
    split at he
    · rename_i hfunction
      obtain ⟨⟨declarations, declared⟩, hall, he⟩ := bind_eq_ok_iff.1 he
      obtain ⟨body, harrange, he⟩ := bind_eq_ok_iff.1 he
      cases he
      -- the functions around the body have names of their own
      have hfunctions : List.Forall₂ Factory.IsRearranged
          (⟨p, c, Factory.freshName before p⟩ :: enclosing)
          (⟨p, c', Factory.freshName before' p⟩ :: enclosing') := .cons ⟨rfl, hc⟩ henclosing
      have hdeclarations : (declarations.map Emission.property).Nodup := by
        rw [properties_of_emitAll hall]
        exact hnodup
      obtain ⟨declarations', after', hall', hsame⟩ := exists_emitAll_of_perm hdeclarations
        (forall₂_emits heach hfunctions hall) hperm (Factory.freshName before' p :: before')
      obtain ⟨body', harrange', hbody⟩ := hsame.exists_arrange c' harrange
      refine ⟨.built p c' erased (some (Factory.freshName before' p)) body', after', ?_,
        Emission.isRearranged_built.2 ⟨c', _, body', rfl, hc, hbody⟩⟩
      rw [if_pos hfunction]
      simp only [hall', harrange', bind, Except.bind]
      rfl
    · rename_i hplain
      cases he
      refine ⟨.built p c' erased none [], before', by rw [if_neg hplain]; rfl,
        Emission.isRearranged_built.2 ⟨c', none, [], rfl, hc, List.nodup_nil, [], .nil, .rfl⟩⟩
  | .recursive p c, b', enclosing, enclosing', before, after, e, h, henclosing, he => by
    obtain ⟨c', rfl, hc⟩ := h
    obtain ⟨factory, hfind, rfl, -⟩ := emit_recursive_eq_ok he
    obtain ⟨factory', hfind'⟩ := Factory.exists_find? henclosing hc hfind
    intro before'
    refine ⟨.recursive p c' factory'.name, before', ?_, c', factory'.name, rfl, hc⟩
    unfold emit
    rw [hfind']
    rfl
  | .renamed p fulfilling erased, b', enclosing, enclosing', before, after, e, h, henclosing, he => by
    rw [show b' = .renamed p fulfilling erased from h]
    cases he
    intro before'
    exact ⟨.renamed p fulfilling erased, before', rfl, rfl⟩

theorem forall₂_emits : ∀ {bindings each : List Binding} {enclosing enclosing' : List Factory}
    {before after : List String} {es : List Emission}, AreRearranged bindings each →
      List.Forall₂ Factory.IsRearranged enclosing enclosing' →
      emitAll enclosing before bindings = .ok (es, after) →
      List.Forall₂ (Emits enclosing') each es
  | [], each, enclosing, enclosing', before, after, es, h, henclosing, hes => by
    rw [show each = [] from h]
    cases hes
    exact .nil
  | b :: bindings, each, enclosing, enclosing', before, after, es, h, henclosing, hes => by
    obtain ⟨b', rest, rfl, hb, hrest⟩ := h
    obtain ⟨e, middle, es', he, hes', rfl⟩ := emitAll_cons_eq_ok hes
    exact .cons (exists_emit hb henclosing he) (forall₂_emits hrest henclosing hes')

end

end Binding

end Wiring
