import Wiring.Proofs.Component.Supply
import Wiring.Proofs.Registration
import Wiring.Proofs.Resolution.Visits

/-!
# Editing one dependency

A dependency of a component is replaced by another one, and everything is registered and resolved again.
The component stands for the same types as before. So long as neither dependency is forwarded, it has the
same properties passed in as well, and every look-up of a producer goes as it went. Where the dependency
that is replaced led nowhere, resolution comes to the same places again.

* `Edit.register_edited`: the edited components register.
* `Edit.fulfilling_edited`, `Edit.forwarded_apply`: what look-ups find, and what is passed in.
* `Edit.visits_edited`, `Edit.reaches`: resolution comes to the edited component, at the end of the same
  chain.
-/

namespace Wiring

open Resolution

/-- **An edit**: every `old` among the dependencies of a component is replaced by `new`. -/
structure Edit where
  component : Component
  old : Dependency
  new : Dependency

namespace Edit

/-- What a dependency of the component is replaced by. -/
def replace (edit : Edit) (d : Dependency) : Dependency :=
  if d = edit.old then edit.new else d

/-- A component after the edit. -/
def apply (edit : Edit) (c : Component) : Component :=
  if c = edit.component then { c with dependencies := c.dependencies.map edit.replace } else c

/-- A component of a chain after the edit. -/
def frame (edit : Edit) (f : Frame) : Frame :=
  ⟨edit.apply f.component, f.via⟩

/-- A chain after the edit. -/
def chain (edit : Edit) (chain : Chain) : Chain :=
  ⟨chain.frames.map edit.frame, chain.room⟩

/-- A registry after the edit. -/
def registry (edit : Edit) (registry : Registry) : Registry :=
  ⟨registry.components.map edit.apply⟩

/-- Neither dependency is forwarded. -/
structure KeepsForwarded (edit : Edit) : Prop where
  old : edit.old.isForwarded = false
  new : edit.new.isForwarded = false

variable {edit : Edit} {registry : Registry} {components : List Component} {limit : Nat}
  {root c q : Component} {chain next : Chain} {via : Option Property} {d : Dependency} {t : TypeExpr}

/-! ## Components -/

@[simp]
theorem concreteType_apply (c : Component) : (edit.apply c).concreteType = c.concreteType := by
  unfold apply
  split <;> rfl

@[simp]
theorem types_apply (c : Component) : (edit.apply c).types = c.types := by
  unfold apply
  split <;> rfl

/-- A dependency that is not replaced is still there. -/
theorem mem_dependencies_apply (hd : d ∈ c.dependencies)
    (hkept : c = edit.component → d ≠ edit.old) : d ∈ (edit.apply c).dependencies := by
  unfold apply
  split
  · rename_i hc
    exact List.mem_map.2 ⟨d, hd, if_neg (hkept hc)⟩
  · exact hd

/-- The new dependency is there. -/
theorem new_mem_dependencies_apply (hd : edit.old ∈ edit.component.dependencies) :
    edit.new ∈ (edit.apply edit.component).dependencies := by
  rw [apply, if_pos rfl]
  exact List.mem_map.2 ⟨edit.old, hd, if_pos rfl⟩

theorem filter_replace (h : edit.KeepsForwarded) (ds : List Dependency) :
    (ds.map edit.replace).filter (·.isForwarded) = ds.filter (·.isForwarded) := by
  induction ds with
  | nil => rfl
  | cons d ds ih =>
    rw [List.map_cons]
    by_cases hd : d = edit.old
    · have hnew : ¬ (edit.replace d).isForwarded = true := by simp [replace, hd, h.new]
      have hold : ¬ d.isForwarded = true := by simp [hd, h.old]
      rw [List.filter_cons_of_neg hnew, List.filter_cons_of_neg hold, ih]
    · have hkept : edit.replace d = d := if_neg hd
      rw [hkept, List.filter_cons, List.filter_cons, ih]

theorem filter_apply (h : edit.KeepsForwarded) (c : Component) :
    (edit.apply c).dependencies.filter (·.isForwarded) =
      c.dependencies.filter (·.isForwarded) := by
  unfold apply
  split
  · exact filter_replace h c.dependencies
  · rfl

/-- **The same properties are passed in.** -/
theorem forwarded_apply (h : edit.KeepsForwarded) (c : Component) :
    (edit.apply c).forwarded = c.forwarded := by
  rw [Component.forwarded, Component.forwarded, filter_apply h]

theorem hasForwarded_apply (h : edit.KeepsForwarded) (c : Component) :
    (edit.apply c).hasForwarded = c.hasForwarded := by
  rw [Component.hasForwarded_eq_not_isEmpty, Component.hasForwarded_eq_not_isEmpty,
    forwarded_apply h]

theorem forwardedType_apply (h : edit.KeepsForwarded) (c : Component) :
    (edit.apply c).forwardedType = c.forwardedType := by
  rw [Component.forwardedType, Component.forwardedType, forwarded_apply h]

/-! ## The registry -/

/-- **Look-ups find what they found**, as it is after the edit. -/
theorem fulfilling_edited (registry : Registry) (t : TypeExpr) :
    (edit.registry registry).fulfilling t = (registry.fulfilling t).map edit.apply := by
  unfold Registry.fulfilling Registry.claimant Edit.registry
  rw [List.find?_map]
  congr 2
  funext c
  simp

/-- The edit keeps registered components apart. -/
theorem apply_injective (h : Registry.register components = .ok registry) {a b : Component}
    (ha : a ∈ components) (hb : b ∈ components) (hab : edit.apply a = edit.apply b) : a = b := by
  have htype := congrArg Component.concreteType hab
  rw [concreteType_apply, concreteType_apply] at htype
  exact Registry.eq_of_concreteType_eq (Registry.unambiguous_of_register h)
    ((Registry.mem_components_of_register h).2 ha) ((Registry.mem_components_of_register h).2 hb)
    htype

/-- **The edited components register.** -/
theorem register_edited (h : Registry.register components = .ok registry) :
    Registry.register (components.map edit.apply) = .ok (edit.registry registry) := by
  obtain ⟨other, hother⟩ : ∃ other, Registry.register (components.map edit.apply) = .ok other := by
    have hdisjoint := Registry.exists_register_iff.1 ⟨registry, h⟩
    refine Registry.exists_register_iff.2 ?_
    intro a' ha' b' hb' hne
    obtain ⟨a, ha, rfl⟩ := List.mem_map.1 ha'
    obtain ⟨b, hb, rfl⟩ := List.mem_map.1 hb'
    rw [types_apply, types_apply]
    exact hdisjoint a ha b hb fun hab => hne (congrArg edit.apply hab)
  have hcomponents := Registry.components_of_register hother
  rw [eraseDups_map fun a ha b hb => apply_injective h ha hb, ← Registry.components_of_register h]
    at hcomponents
  rw [hother, Edit.registry, ← hcomponents]

/-- A producer that is found is found again. -/
theorem producer_edited (h : edit.KeepsForwarded) {p : Property}
    (hproducer : producer registry c p t = .ok q) :
    producer (edit.registry registry) (edit.apply c) p t = .ok (edit.apply q) := by
  obtain ⟨hq, hplain, hgeneric⟩ := producer_eq_ok_iff.1 hproducer
  refine producer_eq_ok_iff.2 ⟨?_, ?_, ?_⟩
  · rw [fulfilling_edited, hq, Option.map_some]
  · rwa [hasForwarded_apply h]
  · rwa [forwardedType_apply h]

/-! ## The way down -/

theorem typesOf_map_frame (frames : List Frame) :
    Chain.typesOf (frames.map edit.frame) = Chain.typesOf frames := by
  unfold Chain.typesOf
  rw [List.map_map]
  congr 2
  funext f
  exact concreteType_apply f.component

/-- The same cycles are closed. -/
theorem eagerCycle?_edited (frames : List Frame) (c : Component) (via : Option Property) :
    Chain.eagerCycle? (frames.map edit.frame) (edit.apply c) via =
      Chain.eagerCycle? frames c via := by
  have hother : (fun f : Frame => decide (f.component.concreteType ≠ c.concreteType)) ∘ edit.frame =
      fun f => decide (f.component.concreteType ≠ c.concreteType) := by
    funext f
    simp [frame]
  unfold Chain.eagerCycle?
  simp only [List.dropWhile_map, List.takeWhile_map, concreteType_apply, hother]
  cases frames.dropWhile fun f => decide (f.component.concreteType ≠ c.concreteType) with
  | nil => rfl
  | cons start rest =>
    set newer := frames.takeWhile fun f => decide (f.component.concreteType ≠ c.concreteType)
    have htypes : Chain.typesOf ((newer ++ [start]).map edit.frame) = Chain.typesOf (newer ++ [start]) :=
      typesOf_map_frame (newer ++ [start])
    rw [List.map_append, List.map_singleton] at htypes
    simp only [List.map_cons, htypes, List.all_map]
    rfl

/-- A component that was entered is entered. -/
theorem enter_edited (h : chain.enter c via = .ok next) :
    (edit.chain chain).enter (edit.apply c) via = .ok (edit.chain next) := by
  obtain ⟨hcycle, hroom, hframes⟩ := Chain.enter_eq_ok_iff.1 h
  refine Chain.enter_eq_ok_iff.2 ⟨?_, hroom, ?_⟩
  · exact (eagerCycle?_edited chain.frames c via).trans hcycle
  · rw [Edit.chain, hframes]
    rfl

/-- What a chain has come to by a factory it has come to. -/
theorem hasDeferredStep_edited (next : Chain) (p : Property) (t : TypeExpr) :
    (edit.chain next).hasDeferredStep p t = next.hasDeferredStep p t := by
  rw [Bool.eq_iff_iff, Chain.hasDeferredStep_eq_true_iff, Chain.hasDeferredStep_eq_true_iff]
  simp [Edit.chain, frame]

/-- A dependency that led on leads on. -/
theorem leadsTo_edited (h : edit.KeepsForwarded) (hleads : LeadsTo registry next c d q) :
    LeadsTo (edit.registry registry) (edit.chain next) (edit.apply c) d (edit.apply q) := by
  obtain ⟨fulfilling, erased, horigin, hproducer, hnew⟩ := hleads
  refine ⟨fulfilling, erased, horigin, producer_edited h hproducer, ?_⟩
  rwa [hasDeferredStep_edited, concreteType_apply]

/-- **Resolution comes to the same places**, if the dependency that is replaced led nowhere. -/
theorem visits_edited (h : edit.KeepsForwarded)
    (hstuck : ∀ next q, ¬ LeadsTo registry next edit.component edit.old q)
    (hvisits : registry.Visits limit root chain c via) :
    (edit.registry registry).Visits limit (edit.apply root) (edit.chain chain) (edit.apply c) via := by
  induction hvisits with
  | root => exact .root
  | @onward chain next c q via d _ henter hd hleads ih =>
    have hkept : c = edit.component → d ≠ edit.old := by
      rintro rfl rfl
      exact hstuck next q hleads
    exact .onward ih (enter_edited henter) (mem_dependencies_apply hd hkept) (leadsTo_edited h hleads)

/-- **The place of an edit is reached again**: the edited components register; resolution comes to the
edited component, which is entered at the end of the same chain; and there the new dependency is. -/
structure Reaches (edit : Edit) (components : List Component) (registry : Registry) (limit : Nat)
    (root : Component) (chain next : Chain) (via : Option Property) : Prop where
  registers : Registry.register (components.map edit.apply) = .ok (edit.registry registry)
  visits : (edit.registry registry).Visits limit (edit.apply root) (edit.chain chain)
    (edit.apply edit.component) via
  enters : (edit.chain chain).enter (edit.apply edit.component) via = .ok (edit.chain next)
  declares : edit.new ∈ (edit.apply edit.component).dependencies

/-- **A dependency that leads nowhere can be replaced** without losing its place. -/
theorem reaches (h : edit.KeepsForwarded)
    (hstuck : ∀ next q, ¬ LeadsTo registry next edit.component edit.old q)
    (hregister : Registry.register components = .ok registry)
    (hvisits : registry.Visits limit root chain edit.component via)
    (henter : chain.enter edit.component via = .ok next)
    (hd : edit.old ∈ edit.component.dependencies) :
    edit.Reaches components registry limit root chain next via where
  registers := register_edited hregister
  visits := visits_edited h hstuck hvisits
  enters := enter_edited henter
  declares := new_mem_dependencies_apply hd

end Edit

end Wiring
