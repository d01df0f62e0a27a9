import Mathlib.Data.List.Forall2
import Wiring.Proofs.Component.Rearranged
import Wiring.Proofs.Fulfillment
import Wiring.Proofs.Resolution.Log

/-!
# Resolution and the order of dependencies

Two registries may hold the same components, each with its dependencies in another order. Then resolution
goes through the same chains in both, since chains are read for concrete types, steps and what their
components supply; it comes to the components in another order, declares the same in another order and
finds the same faults in another order.

* `Registry.IsRearranged`, `Registry.isRearranged_of_register`: two such registries.
* `Binding.IsRearranged`: the same declaration with all below it in another order.
* `Resolution.outcome_rearranged`: one run over each of the registries.
* `Registry.faults_perm`, `Registry.exists_resolve_of_isRearranged`: what this says of a root.
-/

namespace Wiring

variable {registry other : Registry} {limit : Nat}

/-! ## The same components -/

/-- **The registries hold the same components**, each with its dependencies in some order and without
repeated properties. -/
structure Registry.IsRearranged (registry other : Registry) : Prop where
  fulfilling : ∀ t, Option.Rel Component.IsRearranged (registry.fulfilling t) (other.fulfilling t)
  nodup : ∀ t c, registry.fulfilling t = some c → (c.dependencies.map (·.property)).Nodup

/-! ## The same chain -/

/-- The same step to the same component. -/
def Frame.IsRearranged (f f' : Frame) : Prop :=
  f.component.IsRearranged f'.component ∧ f'.via = f.via

section Lists

variable {α β γ : Type} {R : α → β → Prop} {as : List α} {bs : List β}

theorem map_eq_of_forall₂ {f : α → γ} {g : β → γ} (hR : ∀ a b, R a b → g b = f a)
    (h : List.Forall₂ R as bs) : bs.map g = as.map f := by
  induction h with
  | nil => rfl
  | cons hab _ ih => rw [List.map_cons, List.map_cons, hR _ _ hab, ih]

theorem forall₂_takeWhile {p : α → Bool} {q : β → Bool} (hR : ∀ a b, R a b → q b = p a)
    (h : List.Forall₂ R as bs) : List.Forall₂ R (as.takeWhile p) (bs.takeWhile q) := by
  induction h with
  | nil => exact .nil
  | @cons a b as bs hab _ ih =>
    rw [List.takeWhile_cons, List.takeWhile_cons, hR a b hab]
    cases p a with
    | true => exact .cons hab ih
    | false => exact .nil

theorem forall₂_dropWhile {p : α → Bool} {q : β → Bool} (hR : ∀ a b, R a b → q b = p a)
    (h : List.Forall₂ R as bs) : List.Forall₂ R (as.dropWhile p) (bs.dropWhile q) := by
  induction h with
  | nil => exact .nil
  | @cons a b as bs hab hrest ih =>
    rw [List.dropWhile_cons, List.dropWhile_cons, hR a b hab]
    cases p a with
    | true => exact ih
    | false => exact .cons hab hrest

end Lists

namespace Chain

variable {frames frames' : List Frame} {c c' : Component} {p : Property} {via : Option Property}
  {room : Nat}

theorem typesOf_eq (h : List.Forall₂ Frame.IsRearranged frames frames') :
    typesOf frames' = typesOf frames := by
  rw [typesOf, typesOf, map_eq_of_forall₂ (fun _ _ hf => hf.1.concreteType_eq) h]

theorem overflow_eq (h : List.Forall₂ Frame.IsRearranged frames frames') (hc : c.IsRearranged c') :
    overflow frames' c' = overflow frames c := by
  rw [overflow, overflow, typesOf_eq h, h.length_eq, hc.concreteType_eq]

/-- The same cycles are closed. -/
theorem eagerCycle?_eq (h : List.Forall₂ Frame.IsRearranged frames frames')
    (hc : c.IsRearranged c') : eagerCycle? frames' c' via = eagerCycle? frames c via := by
  have hother : ∀ f f', Frame.IsRearranged f f' →
      decide (f'.component.concreteType ≠ c.concreteType) =
        decide (f.component.concreteType ≠ c.concreteType) := by
    intro f f' hf
    rw [hf.1.concreteType_eq]
  have hnewer := forall₂_takeWhile hother h
  have hdrop := forall₂_dropWhile hother h
  cases hfirst : frames.dropWhile fun f => decide (f.component.concreteType ≠ c.concreteType) with
  | nil =>
    rw [hfirst] at hdrop
    simp only [eagerCycle?, hc.concreteType_eq, hfirst, List.forall₂_nil_left_iff.1 hdrop]
  | cons start rest =>
    rw [hfirst] at hdrop
    obtain ⟨start', rest', hstart, -, hfirst'⟩ := List.forall₂_cons_left_iff.1 hdrop
    have heager := map_eq_of_forall₂ (fun f f' (hf : Frame.IsRearranged f f') => hf.2) hnewer
    have hall := congrArg (List.all · isEager) heager
    simp only [List.all_map, Function.comp_def] at hall
    simp only [eagerCycle?, hc.concreteType_eq, hfirst, hfirst', hall,
      typesOf_eq (List.rel_append hnewer (.cons hstart .nil))]

theorem hasDeferredStep_eq (h : List.Forall₂ Frame.IsRearranged frames frames') {type : TypeExpr} :
    hasDeferredStep ⟨frames', room⟩ p type = hasDeferredStep ⟨frames, room⟩ p type := by
  have hsteps := map_eq_of_forall₂ (f := fun f : Frame => (f.via, f.component.concreteType))
    (g := fun f : Frame => (f.via, f.component.concreteType))
    (fun f f' hf => by simp [hf.2, hf.1.concreteType_eq]) h
  have hany := congrArg (List.any · fun step => decide (step.1 = some p) && decide (step.2 = type)) hsteps
  simp only [List.any_map, Function.comp_def] at hany
  rw [hasDeferredStep, hasDeferredStep, hany]

theorem stepTypesFrom_eq (h : List.Forall₂ Frame.IsRearranged frames frames') (index : Nat) :
    stepTypesFrom ⟨frames', room⟩ index = stepTypesFrom ⟨frames, room⟩ index := by
  have hvias := map_eq_of_forall₂ (fun f f' (hf : Frame.IsRearranged f f') => hf.2) h
  have hsteps := congrArg (fun vias => (vias.reverse.drop (index + 1)).filterMap
    (Option.map (·.type))) hvias
  simp only [← List.map_reverse, ← List.map_drop, List.filterMap_map] at hsteps
  exact hsteps

/-- What the ancestors supply is the same set. -/
theorem available_eq (h : List.Forall₂ Frame.IsRearranged frames frames') :
    available ⟨frames', room⟩ = available ⟨frames, room⟩ := by
  refine sortedSet_congr fun p => ?_
  cases h with
  | nil => rfl
  | cons _ hrest =>
    rw [List.tail_cons, List.tail_cons]
    induction hrest with
    | nil => rfl
    | cons hf _ ih => rw [List.flatMap_cons, List.flatMap_cons, List.mem_append, List.mem_append, ih,
        hf.1.mem_supplied_iff]

/-- **The same ancestor supplies a property.** -/
theorem locateIn_eq (h : List.Forall₂ Frame.IsRearranged frames frames') :
    locateIn p frames' = locateIn p frames := by
  induction h with
  | nil => rfl
  | @cons child child' frames frames' hchild hrest ih =>
    cases hrest with
    | nil => rfl
    | @cons parent parent' older older' hparent holder =>
      rw [locateIn, locateIn, ih, hchild.2, holder.length_eq, hparent.1.concreteType_eq]
      refine if_congr ?_ rfl rfl
      exact hparent.1.mem_supplied_iff

end Chain

/-! ## The same declarations -/

namespace Binding

mutual

/-- **The same declaration with all below it in another order**, where no body declares a property
twice. -/
def IsRearranged : Binding → Binding → Prop
  | .built p c bindings erased, b => ∃ c' each bindings', b = .built p c' bindings' erased ∧
      c.IsRearranged c' ∧ (bindings.map property).Nodup ∧ AreRearranged bindings each ∧
      each.Perm bindings'
  | .recursive p c, b => ∃ c', b = .recursive p c' ∧ c.IsRearranged c'
  | .renamed p fulfilling erased, b => b = .renamed p fulfilling erased

/-- The same declarations one by one, each with all below it in another order. -/
def AreRearranged : List Binding → List Binding → Prop
  | [], each => each = []
  | b :: bindings, each => ∃ b' rest, each = b' :: rest ∧ IsRearranged b b' ∧
      AreRearranged bindings rest

end

theorem areRearranged_iff {bindings each : List Binding} :
    AreRearranged bindings each ↔ List.Forall₂ IsRearranged bindings each := by
  induction bindings generalizing each with
  | nil => rw [AreRearranged, List.forall₂_nil_left_iff]
  | cons b bindings ih =>
    rw [AreRearranged, List.forall₂_cons_left_iff]
    constructor
    · rintro ⟨b', rest, rfl, hb, hrest⟩
      exact ⟨b', rest, hb, ih.1 hrest, rfl⟩
    · rintro ⟨b', rest, hb, hrest, rfl⟩
      exact ⟨b', rest, rfl, hb, ih.2 hrest⟩

end Binding

namespace Resolution

variable {frames frames' : List Frame} {c c' : Component} {p : Property} {room : Nat}

/-- **Two runs declare the same and find the same faults**, both in another order. -/
structure IsRearranged (result result' : List Binding × List Fault) : Prop where
  bindings : ∃ each, List.Forall₂ Binding.IsRearranged result.1 each ∧ each.Perm result'.1
  nodup : (result.1.map Binding.property).Nodup
  faults : result.2.Perm result'.2

theorem receivingFaults_eq (h : List.Forall₂ Frame.IsRearranged frames frames')
    (hc : c.IsRearranged c') :
    receivingFaults ⟨frames', room⟩ c' p = receivingFaults ⟨frames, room⟩ c p := by
  simp only [receivingFaults, Chain.locate, Chain.locateIn_eq h, hc.concreteType_eq, Chain.types,
    Chain.typesOf_eq h, Chain.stepTypesFrom_eq h, Chain.available_eq h]

theorem initializerFaults_eq (hc : c.IsRearranged c') :
    initializerFaults c' [] = initializerFaults c [] := by
  cases h : c.argumentList with
  | error cause =>
    simp only [initializerFaults, h, hc.argumentList_eq_error_iff.2 h, hc.concreteType_eq]
  | ok text =>
    cases h' : c'.argumentList with
    | error cause => rw [hc.argumentList_eq_error_iff.1 h'] at h; cases h
    | ok text' => simp only [initializerFaults, h, h']

/-- The same producer is found, or the same is wrong. -/
theorem producer_rearranged (h : registry.IsRearranged other) (hc : c.IsRearranged c')
    (type : TypeExpr) :
    (∃ f, producer registry c p type = .error f ∧ producer other c' p type = .error f) ∨
      ∃ q q', registry.fulfilling type = some q ∧ q.IsRearranged q' ∧
        producer registry c p type = .ok q ∧ producer other c' p type = .ok q' := by
  have hrel := h.fulfilling type
  unfold producer
  rw [hc.concreteType_eq]
  generalize hfound : registry.fulfilling type = found at hrel
  generalize other.fulfilling type = found' at hrel
  cases hrel with
  | none => exact .inl ⟨_, rfl, rfl⟩
  | @some q q' hq =>
    simp only [hq.hasForwarded_eq, hq.forwardedType_eq]
    split
    · exact .inl ⟨_, rfl, rfl⟩
    · split
      · exact .inl ⟨_, rfl, rfl⟩
      · exact .inr ⟨q, q', rfl, hq, rfl, rfl⟩

section Dependency

variable {below below' : Component → Property → List Binding × List Fault}

/-- If it is so below a dependency, it is so with it. -/
theorem dependency_rearranged (h : registry.IsRearranged other)
    (hframes : List.Forall₂ Frame.IsRearranged frames frames') (hc : c.IsRearranged c')
    (hbelow : ∀ t q q' p, registry.fulfilling t = some q → q.IsRearranged q' →
      IsRearranged (below q p) (below' q' p)) (room : Nat) (isRoot : Bool) (d : Dependency) :
    List.Forall₂ Binding.IsRearranged
        (dependency registry ⟨frames, room⟩ c isRoot (fun q p _ => below q p) d []).1.toList
        (dependency other ⟨frames', room⟩ c' isRoot (fun q p _ => below' q p) d []).1.toList ∧
      (dependency registry ⟨frames, room⟩ c isRoot (fun q p _ => below q p) d []).2.Perm
        (dependency other ⟨frames', room⟩ c' isRoot (fun q p _ => below' q p) d []).2 := by
  cases horigin : d.origin with
  | forwarded =>
    simp only [dependency, horigin, hc.concreteType_eq]
    exact ⟨.nil, .rfl⟩
  | received =>
    simp only [dependency, horigin, receivingFaults_eq hframes hc]
    exact ⟨.nil, .rfl⟩
  | aliased fulfilling erased =>
    simp only [dependency, horigin, receivingFaults_eq hframes hc, hc.holds_eq]
    exact ⟨.cons rfl .nil, .rfl⟩
  | instantiated fulfilling erased =>
    rcases producer_rearranged (p := d.property) h hc (fulfilling.getD d.property.type.produced) with
      ⟨f, hf, hf'⟩ | ⟨q, q', hfulfilling, hq, hproducer, hproducer'⟩
    · simp only [dependency, horigin, hf, hf']
      exact ⟨.nil, .rfl⟩
    · simp only [dependency, horigin, hproducer, hproducer', hq.concreteType_eq,
        Chain.hasDeferredStep_eq hframes]
      cases Chain.hasDeferredStep ⟨frames, room⟩ d.property q.concreteType with
      | true => exact ⟨.cons ⟨q', rfl, hq⟩ .nil, .rfl⟩
      | false =>
        -- the producer is entered in both runs
        have hinner := hbelow _ q q' d.property hfulfilling hq
        obtain ⟨each, heach, hperm⟩ := hinner.bindings
        exact ⟨.cons ⟨q', each, _, rfl, hq, hinner.nodup, Binding.areRearranged_iff.2 heach, hperm⟩
          .nil, hinner.faults⟩

/-- A dependency declares its own property, if any. -/
theorem property_of_dependency (registry : Registry) (chain : Chain) (c : Component)
    (isRoot : Bool) (d : Dependency) :
    ((dependency registry chain c isRoot (fun q p _ => below q p) d []).1.toList.map
      Binding.property).Sublist [d.property] := by
  cases horigin : d.origin with
  | forwarded | received => simp [dependency, horigin]
  | aliased fulfilling erased => simp [dependency, horigin, Binding.property]
  | instantiated fulfilling erased =>
    cases hproducer : producer registry c d.property (fulfilling.getD d.property.type.produced) with
    | error f => simp [dependency, horigin, hproducer]
    | ok q =>
      cases hback : chain.hasDeferredStep d.property q.concreteType <;>
        simp [dependency, horigin, hproducer, hback, Binding.property]

/-- So dependencies without repeated properties have declarations without repeated properties. -/
theorem nodup_of_dependencies {ds : List Dependency} (hnodup : (ds.map (·.property)).Nodup)
    (registry : Registry) (chain : Chain) (c : Component) (isRoot : Bool) :
    ((ds.flatMap fun d =>
      (dependency registry chain c isRoot (fun q p _ => below q p) d []).1.toList).map
        Binding.property).Nodup := by
  refine hnodup.sublist ?_
  clear hnodup
  induction ds with
  | nil => exact .slnil
  | cons d ds ih =>
    rw [List.flatMap_cons, List.map_append, List.map_cons, ← List.singleton_append]
    exact (property_of_dependency registry chain c isRoot d).append ih

end Dependency

theorem forall₂_flatMap {α β γ : Type} {R : β → γ → Prop} {f : α → List β} {g : α → List γ}
    (h : ∀ a, List.Forall₂ R (f a) (g a)) (as : List α) :
    List.Forall₂ R (as.flatMap f) (as.flatMap g) := by
  induction as with
  | nil => exact .nil
  | cons a as ih =>
    rw [List.flatMap_cons, List.flatMap_cons]
    exact List.rel_append (h a) ih

/-- **One run over each of the registries** declares the same and finds the same faults. -/
theorem outcome_rearranged (h : registry.IsRearranged other) :
    ∀ {room : Nat} {frames frames' : List Frame} {c c' : Component} (via : Option Property),
      List.Forall₂ Frame.IsRearranged frames frames' → c.IsRearranged c' →
      (c.dependencies.map (·.property)).Nodup →
      IsRearranged (outcome registry room frames c via) (outcome other room frames' c' via) := by
  intro room
  induction room with
  | zero =>
    intro frames frames' c c' via hframes hc _
    rw [outcome, outcome, Chain.overflow_eq hframes hc]
    exact ⟨⟨[], .nil, .rfl⟩, .nil, .rfl⟩
  | succ room ih =>
    intro frames frames' c c' via hframes hc hnodup
    rw [outcome, outcome, Chain.eagerCycle?_eq hframes hc]
    cases Chain.eagerCycle? frames c via with
    | some cycle => exact ⟨⟨[], .nil, .rfl⟩, .nil, .rfl⟩
    | none =>
      have hnext : List.Forall₂ Frame.IsRearranged (⟨c, via⟩ :: frames) (⟨c', via⟩ :: frames') :=
        .cons ⟨hc, rfl⟩ hframes
      have hstep := dependency_rearranged h hnext hc
        (fun t q q' p hq hq' => ih (some p) hnext hq' (h.nodup t q hq)) room via.isNone
      simp only [List.flatMap_map, initializerFaults_eq hc]
      refine ⟨⟨_, forall₂_flatMap (fun d => (hstep d).1) _, hc.dependencies_perm.flatMap_right _⟩,
        ?_, .append .rfl ?_⟩
      · exact nodup_of_dependencies hnodup registry _ c via.isNone
      · -- the faults below each dependency, and then the dependencies themselves
        exact (List.Perm.flatMap_left _ fun d _ => (hstep d).2).trans
          (hc.dependencies_perm.flatMap_right _)

end Resolution

/-! ## Registries and roots -/

namespace Registry

open Resolution

variable {root root' : Component}

/-- The partner of a listed component. -/
theorem exists_rearranged {components components' : List Component} {c : Component}
    (h : List.Forall₂ Component.IsRearranged components components') (hc : c ∈ components) :
    ∃ c' ∈ components', c.IsRearranged c' := by
  induction h with
  | nil => cases hc
  | @cons a a' _ _ ha _ ih =>
    rcases List.mem_cons.1 hc with rfl | hc
    · exact ⟨a', List.mem_cons_self, ha⟩
    · obtain ⟨c', hc', hrearranged⟩ := ih hc
      exact ⟨c', List.mem_cons_of_mem _ hc', hrearranged⟩

/-- A component that is found has a partner that is found. -/
theorem exists_fulfilling_of_register {components components' : List Component} {t : TypeExpr}
    {c : Component} (h : List.Forall₂ Component.IsRearranged components components')
    (hregistry : register components = .ok registry) (hother : register components' = .ok other)
    (hc : registry.fulfilling t = some c) :
    ∃ c', other.fulfilling t = some c' ∧ c.IsRearranged c' := by
  obtain ⟨hmem, ht⟩ :=
    (fulfilling_eq_some_iff (unambiguous_of_register hregistry)).1 hc
  obtain ⟨c', hc', hrearranged⟩ :=
    exists_rearranged h ((mem_components_of_register hregistry).1 hmem)
  refine ⟨c', (fulfilling_eq_some_iff (unambiguous_of_register hother)).2 ⟨?_, ?_⟩, hrearranged⟩
  · exact (mem_components_of_register hother).2 hc'
  · rwa [hrearranged.types_eq]

/-- **Lists of the same components, up to the order of their dependencies, have such registries.** -/
theorem isRearranged_of_register {components components' : List Component}
    (h : List.Forall₂ Component.IsRearranged components components')
    (hnodup : ∀ c ∈ components, (c.dependencies.map (·.property)).Nodup)
    (hregistry : register components = .ok registry) (hother : register components' = .ok other) :
    registry.IsRearranged other := by
  refine ⟨fun t => ?_, fun t c hc => ?_⟩
  · cases hfound : registry.fulfilling t with
    | some c =>
      obtain ⟨c', hc', hrearranged⟩ := exists_fulfilling_of_register h hregistry hother hfound
      rw [hc']
      exact .some hrearranged
    | none =>
      cases hfound' : other.fulfilling t with
      | none => exact .none
      | some c' =>
        have hflip : List.Forall₂ Component.IsRearranged components' components :=
          h.flip.imp fun _ _ hc => Component.IsRearranged.symm hc
        obtain ⟨c, hc, -⟩ := exists_fulfilling_of_register hflip hother hregistry hfound'
        rw [hfound] at hc
        cases hc
  · exact hnodup c ((mem_components_of_register hregistry).1 (mem_of_fulfilling hc))

/-- **The same faults are found below a root**, in another order. -/
theorem faults_perm (limit : Nat) (h : registry.IsRearranged other) (hunambiguous : registry.Unambiguous)
    (hroot : root ∈ registry.components) (hnodup : (root.dependencies.map (·.property)).Nodup)
    (hrearranged : root.IsRearranged root') :
    (registry.faults limit root).Perm (other.faults limit root') := by
  rw [faults_eq_unreported, faults_eq_unreported]
  exact unreported_perm (outcome_rearranged h none .nil hrearranged hnodup).faults
    (isConsistent_outcome hunambiguous hroot limit [] none)

/-- **A root that resolves over one registry resolves over the other**, to the same declarations. -/
theorem exists_resolve_of_isRearranged (h : registry.IsRearranged other)
    (hunambiguous : registry.Unambiguous) (hroot : root ∈ registry.components)
    (hnodup : (root.dependencies.map (·.property)).Nodup) (hrearranged : root.IsRearranged root')
    {scope : Scope} (hresolve : registry.resolve limit root = .ok scope) :
    ∃ bindings' each, other.resolve limit root' = .ok ⟨root', bindings'⟩ ∧
      List.Forall₂ Binding.IsRearranged scope.bindings each ∧ each.Perm bindings' ∧
      (scope.bindings.map Binding.property).Nodup := by
  obtain ⟨rfl, hnone⟩ := resolve_eq_ok_iff_outcome.1 hresolve
  have hperm := faults_perm limit h hunambiguous hroot hnodup hrearranged
  rw [hnone] at hperm
  obtain ⟨⟨each, heach, hbindings⟩, hproperties, -⟩ :=
    outcome_rearranged h none .nil hrearranged hnodup
  exact ⟨_, each, resolve_eq_ok_iff_outcome.2 ⟨rfl, hperm.nil_eq.symm⟩, heach, hbindings, hproperties⟩

end Registry

end Wiring
