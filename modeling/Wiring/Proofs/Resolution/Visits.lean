import Mathlib.Data.List.Infix
import Wiring.Proofs.Resolution.Steps

/-!
# What a run of resolution comes to, and what it reports

Going down from a root, resolution comes to a component at the end of a chain, enters it, and goes on
from its dependencies. `Registry.Visits` says to which components it comes, `Registry.Finds` which
faults there are at them, and both without the log that the faults are collected in.

* `component_eq`: one call of the resolver, by way of `Chain.enter`.
* `isAboutDependency_of_mem_ownFaults`: what can be wrong with a dependency itself.
* `finds_of_mem`: every reported fault was found at a visited component.
* `reported_of_finds`: every fault that can be found is reported; of the faults of one initializer, only
  the first one is.
* `resolves_iff`: a root resolves exactly if no fault can be found.
-/

namespace Wiring

variable {registry : Registry} {limit : Nat} {root : Component}

/-- Faults that say what is wrong with a dependency, and not with its component as a whole. -/
def Fault.isAboutDependency : Fault → Bool
  | .unfulfillableType _ _ _ | .forwardedOnInstantiated _ _ _ | .genericMismatch _ _ _ => true
  | .unfulfillableReceived _ _ _ | .deferredCycle _ _ _ | .receivedWhileInstantiated _ _ _ _ => true
  | .forwardedOnRoot _ _ => true
  | _ => false

namespace Resolution

/-! ## One dependency -/

/-- What is wrong with a dependency itself, whatever there is below it. -/
def ownFaults (registry : Registry) (chain : Chain) (c : Component) (isRoot : Bool)
    (d : Dependency) : List Fault :=
  (dependency registry chain c isRoot (fun _ _ log => ([], log)) d []).2

variable {chain next : Chain} {c q : Component} {via : Option Property} {d : Dependency}
  {isRoot : Bool} {below : Component → Property → List Fault → List Binding × List Fault}

/-- A dependency that leads on adds what is wrong below it, and nothing of its own. -/
theorem dependency_of_leadsTo (h : LeadsTo registry chain c d q) :
    ∃ erased, ∀ isRoot below log, dependency registry chain c isRoot below d log =
      (some (.built d.property q (below q d.property log).1 erased), (below q d.property log).2) := by
  obtain ⟨fulfilling, erased, horigin, hproducer, hstep⟩ := h
  refine ⟨erased, fun isRoot below log => ?_⟩
  simp [dependency, horigin, hproducer, hstep]

/-- Any other dependency adds its own faults. -/
theorem dependency_of_not_leadsTo (h : ∀ q, ¬ LeadsTo registry chain c d q) (isRoot : Bool) :
    ∃ binding, ∀ below log, dependency registry chain c isRoot below d log =
      (binding, log ++ ownFaults registry chain c isRoot d) := by
  cases horigin : d.origin with
  | forwarded => exact ⟨none, fun below log => by simp [ownFaults, dependency, horigin]⟩
  | received => exact ⟨none, fun below log => by simp [ownFaults, dependency, horigin]⟩
  | aliased fulfilling erased =>
    exact ⟨some (.renamed d.property fulfilling erased),
      fun below log => by simp [ownFaults, dependency, horigin]⟩
  | instantiated fulfilling erased =>
    cases hproducer : producer registry c d.property (fulfilling.getD d.property.type.produced) with
    | error fault =>
      exact ⟨none, fun below log => by simp [ownFaults, dependency, horigin, hproducer]⟩
    | ok q =>
      cases hstep : chain.hasDeferredStep d.property q.concreteType with
      | false => exact absurd ⟨fulfilling, erased, horigin, hproducer, hstep⟩ (h q)
      | true =>
        exact ⟨some (.recursive d.property q),
          fun below log => by simp [ownFaults, dependency, horigin, hproducer, hstep]⟩

theorem ownFaults_of_leadsTo (h : LeadsTo registry chain c d q) :
    ownFaults registry chain c isRoot d = [] := by
  obtain ⟨erased, hd⟩ := dependency_of_leadsTo h
  rw [ownFaults, hd]

/-- What a dependency can have wrong, by its origin. -/
theorem mem_ownFaults_iff {f : Fault} :
    f ∈ ownFaults registry chain c isRoot d ↔
      match d.origin with
      | .forwarded => isRoot = true ∧ f = .forwardedOnRoot c.concreteType d.property
      | .received => f ∈ receivingFaults chain c d.property
      | .aliased fulfilling _ => c.holds fulfilling = false ∧ f ∈ receivingFaults chain c fulfilling
      | .instantiated fulfilling _ =>
        producer registry c d.property (fulfilling.getD d.property.type.produced) = .error f := by
  cases horigin : d.origin with
  | forwarded => cases isRoot <;> simp [ownFaults, dependency, horigin]
  | received => simp [ownFaults, dependency, horigin]
  | aliased fulfilling erased => cases h : c.holds fulfilling <;> simp [ownFaults, dependency, horigin, h]
  | instantiated fulfilling erased =>
    cases h : producer registry c d.property (fulfilling.getD d.property.type.produced) with
    | error fault => simp [ownFaults, dependency, horigin, h, eq_comm]
    | ok q =>
      cases hstep : chain.hasDeferredStep d.property q.concreteType <;>
        simp [ownFaults, dependency, horigin, h, hstep]

/-- **What is found about a property from above**: it is missing, or it is being built, which is a cycle if
it is a factory. -/
theorem cases_of_mem_receivingFaults {f : Fault} {p : Property}
    (h : f ∈ receivingFaults chain c p) :
    (chain.locate p = .missing ∧
      f = .unfulfillableReceived p chain.types (chain.available.filter (areSimilar · p))) ∨
    ∃ index instantiator, chain.locate p = .underConstruction index instantiator ∧
      (p.isDeferred = false ∧
          f = .receivedWhileInstantiated p c.concreteType instantiator chain.types ∨
        p.isDeferred = true ∧
          f = .deferredCycle p c.concreteType (chain.stepTypesFrom index ++ [p.type])) := by
  unfold receivingFaults at h
  cases hlocate : chain.locate p with
  | available supplier =>
    rw [hlocate] at h
    cases h
  | missing =>
    rw [hlocate] at h
    exact .inl ⟨rfl, List.mem_singleton.1 h⟩
  | underConstruction index instantiator =>
    rw [hlocate] at h
    cases hdeferred : p.isDeferred with
    | true =>
      simp only [hdeferred, if_true, List.mem_singleton] at h
      exact .inr ⟨index, instantiator, rfl, .inr ⟨rfl, h⟩⟩
    | false =>
      simp only [hdeferred, Bool.false_eq_true, if_false, List.mem_singleton] at h
      exact .inr ⟨index, instantiator, rfl, .inl ⟨rfl, h⟩⟩

/-- What is wrong with a dependency itself is neither that its component cannot be entered nor that it has
no initializer. -/
theorem isAboutDependency_of_mem_ownFaults {f : Fault}
    (h : f ∈ ownFaults registry chain c isRoot d) : f.isAboutDependency = true := by
  have hreceiving : ∀ p, f ∈ receivingFaults chain c p → f.isAboutDependency = true := by
    intro p hf
    rcases cases_of_mem_receivingFaults hf with ⟨-, rfl⟩ | ⟨-, -, -, ⟨-, rfl⟩ | ⟨-, rfl⟩⟩ <;> rfl
  rw [mem_ownFaults_iff] at h
  cases horigin : d.origin with
  | forwarded =>
    rw [horigin] at h
    rw [h.2]
    rfl
  | received =>
    rw [horigin] at h
    exact hreceiving _ h
  | aliased fulfilling erased =>
    rw [horigin] at h
    exact hreceiving _ h.2
  | instantiated fulfilling erased =>
    rw [horigin] at h
    rcases cases_of_producer h with ⟨-, rfl⟩ | ⟨q, -, ⟨-, -, rfl⟩ | ⟨-, -, rfl⟩⟩ <;> rfl

/-- The faults that a dependency adds are its own or come from below. -/
theorem dependency_log (registry : Registry) (chain : Chain) (c : Component) (isRoot : Bool)
    (below : Component → Property → List Fault → List Binding × List Fault) (d : Dependency)
    (log : List Fault) :
    (dependency registry chain c isRoot below d log).2 =
        log ++ ownFaults registry chain c isRoot d ∨
      ∃ q, LeadsTo registry chain c d q ∧
        (dependency registry chain c isRoot below d log).2 = (below q d.property log).2 := by
  by_cases h : ∃ q, LeadsTo registry chain c d q
  · obtain ⟨q, hq⟩ := h
    obtain ⟨erased, hd⟩ := dependency_of_leadsTo hq
    exact Or.inr ⟨q, hq, by rw [hd]⟩
  · obtain ⟨binding, hd⟩ := dependency_of_not_leadsTo (fun q hq => h ⟨q, hq⟩) isRoot
    exact Or.inl (by rw [hd])

/-! ## All dependencies of a component -/

theorem forEach_cons (step : Dependency → List Fault → Option Binding × List Fault) (d : Dependency)
    (ds : List Dependency) (log : List Fault) :
    forEach step (d :: ds) log =
      ((step d log).1.toList ++ (forEach step ds (step d log).2).1,
        (forEach step ds (step d log).2).2) :=
  rfl

/-- If every step keeps the log, so do all of them. -/
theorem prefix_forEach {step : Dependency → List Fault → Option Binding × List Fault}
    (hstep : ∀ d log, log <+: (step d log).2) (ds : List Dependency) :
    ∀ log, log <+: (forEach step ds log).2 := by
  induction ds with
  | nil => exact fun log => List.prefix_refl log
  | cons d ds ih => exact fun log => (hstep d log).trans (ih _)

/-- What a step has reported stays in the log. -/
theorem step_prefix_forEach {step : Dependency → List Fault → Option Binding × List Fault}
    (hstep : ∀ d log, log <+: (step d log).2) {ds : List Dependency} (hd : d ∈ ds) :
    ∀ log, ∃ before, (step d before).2 <+: (forEach step ds log).2 := by
  induction ds with
  | nil => cases hd
  | cons e ds ih =>
    intro log
    rw [forEach_cons]
    rcases List.mem_cons.1 hd with rfl | hd
    · exact ⟨log, prefix_forEach hstep ds _⟩
    · exact ih hd _

/-- A fault in the log was there before or was reported by a step. -/
theorem mem_forEach {step : Dependency → List Fault → Option Binding × List Fault} {f : Fault} :
    ∀ {ds : List Dependency} {log : List Fault}, f ∈ (forEach step ds log).2 →
      f ∈ log ∨ ∃ d ∈ ds, ∃ before, f ∉ before ∧ f ∈ (step d before).2
  | [], _, h => Or.inl h
  | d :: ds, log, h => by
    rw [forEach_cons] at h
    rcases mem_forEach h with h | ⟨e, he, hstep⟩
    · by_cases hf : f ∈ log
      · exact Or.inl hf
      · exact Or.inr ⟨d, List.mem_cons_self, log, hf, h⟩
    · exact Or.inr ⟨e, List.mem_cons_of_mem _ he, hstep⟩

/-! ## One component -/

/-- **One call of the resolver.** -/
theorem component_eq (registry : Registry) (chain : Chain) (c : Component) (via : Option Property)
    (log : List Fault) :
    component registry chain.room chain.frames c via log =
      match chain.enter c via with
      | .error fault => ([], log ++ [fault])
      | .ok next =>
        forEach
          (dependency registry next c via.isNone fun q p log =>
            component registry next.room next.frames q (some p) log)
          c.dependencies (log ++ initializerFaults c log) := by
  obtain ⟨frames, room⟩ := chain
  cases room with
  | zero => rfl
  | succ room =>
    simp only [component, Chain.enter]
    cases Chain.eagerCycle? frames c via <;> rfl

/-- A call of the resolver keeps the log that it is given. -/
theorem prefix_component (registry : Registry) (chain : Chain) (c : Component)
    (via : Option Property) (log : List Fault) :
    log <+: (component registry chain.room chain.frames c via log).2 := by
  rw [component_eq]
  cases henter : chain.enter c via with
  | error fault => exact List.prefix_append _ _
  | ok next =>
    have hroom := Chain.room_lt_of_enter henter
    refine (List.prefix_append log _).trans (prefix_forEach (fun d log => ?_) _ _)
    rcases dependency_log registry next c via.isNone _ d log with h | ⟨q, -, h⟩
    · rw [h]; exact List.prefix_append _ _
    · rw [h]; exact prefix_component registry next q (some d.property) log
termination_by chain.room

/-- So does the handling of a dependency. -/
theorem prefix_dependency (registry : Registry) (next : Chain) (c : Component) (isRoot : Bool)
    (d : Dependency) (log : List Fault) :
    log <+: (dependency registry next c isRoot
      (fun q p log => component registry next.room next.frames q (some p) log) d log).2 := by
  rcases dependency_log registry next c isRoot _ d log with h | ⟨q, -, h⟩
  · rw [h]; exact List.prefix_append _ _
  · rw [h]; exact prefix_component registry next q (some d.property) log

theorem exists_of_mem_initializerFaults {log : List Fault} {f : Fault}
    (h : f ∈ initializerFaults c log) :
    ∃ cause, c.argumentList = .error cause ∧ f = .initializer c.concreteType cause := by
  unfold initializerFaults at h
  cases hc : c.argumentList with
  | ok text => simp [hc] at h
  | error cause =>
    rw [hc] at h
    simp only at h
    split at h
    · cases h
    · exact ⟨cause, rfl, List.mem_singleton.1 h⟩

/-- The initializer of a component is reported unless one of the same concrete type is reported
already. -/
theorem initializer_mem_log {cause : InitializerError} (h : c.argumentList = .error cause)
    (log : List Fault) :
    ∃ cause, Fault.initializer c.concreteType cause ∈ log ++ initializerFaults c log := by
  simp only [initializerFaults, h]
  split
  · rename_i hreported
    obtain ⟨f, hf, hc⟩ := List.any_eq_true.1 hreported
    cases f with
    | initializer component cause =>
      rw [decide_eq_true_eq] at hc
      exact ⟨cause, by simpa [← hc] using hf⟩
    | _ => cases hc
  · exact ⟨cause, by simp⟩

end Resolution

/-! ## All components below a root -/

open Resolution

/-- **Resolving `root` comes to the component `c`**, for the property `via`, at the end of a chain. It
may then fail to enter the component. -/
inductive Registry.Visits (registry : Registry) (limit : Nat) (root : Component) :
    Chain → Component → Option Property → Prop
  | root : Visits registry limit root (.start limit) root none
  | onward {chain next : Chain} {c q : Component} {via : Option Property} {d : Dependency} :
    Visits registry limit root chain c via → chain.enter c via = .ok next →
      d ∈ c.dependencies → LeadsTo registry next c d q →
      Visits registry limit root next q (some d.property)

/-- **A fault can be found** at a component that resolution comes to: in entering it, in its
initializer or in one of its dependencies. -/
inductive Registry.Finds (registry : Registry) (limit : Nat) (root : Component) : Fault → Prop
  | entering {chain : Chain} {c : Component} {via : Option Property} {fault : Fault} :
    registry.Visits limit root chain c via → chain.enter c via = .error fault →
      Finds registry limit root fault
  | initializer {chain next : Chain} {c : Component} {via : Option Property}
      {cause : InitializerError} :
    registry.Visits limit root chain c via → chain.enter c via = .ok next →
      c.argumentList = .error cause → Finds registry limit root (.initializer c.concreteType cause)
  | dependency {chain next : Chain} {c : Component} {via : Option Property} {d : Dependency}
      {fault : Fault} :
    registry.Visits limit root chain c via → chain.enter c via = .ok next →
      d ∈ c.dependencies → fault ∈ ownFaults registry next c via.isNone d →
      Finds registry limit root fault

/-- The faults that resolving a root reports. -/
def Registry.faults (registry : Registry) (limit : Nat) (root : Component) : List Fault :=
  (component registry limit [] root none []).2

namespace Registry

theorem resolve_eq_ok_iff {scope : Scope} :
    registry.resolve limit root = .ok scope ↔
      component registry limit [] root none [] = (scope.bindings, []) ∧ scope.component = root := by
  obtain ⟨c, bindings⟩ := scope
  unfold resolve
  generalize component registry limit [] root none [] = result
  obtain ⟨found, faults⟩ := result
  cases faults <;> simp [eq_comm, and_comm]

theorem resolve_eq_error_iff {faults : List Fault} :
    registry.resolve limit root = .error faults ↔
      registry.faults limit root = faults ∧ faults ≠ [] := by
  unfold resolve Registry.faults
  generalize component registry limit [] root none [] = result
  obtain ⟨found, reported⟩ := result
  cases reported with
  | nil => simp [eq_comm]
  | cons f fs =>
    simp only [Except.error.injEq]
    constructor
    · rintro rfl
      exact ⟨rfl, by simp⟩
    · exact And.left

/-- What a call below the root reports stays in the log of the root. -/
theorem prefix_of_visits {chain : Chain} {c : Component} {via : Option Property}
    (h : registry.Visits limit root chain c via) :
    ∃ log, (component registry chain.room chain.frames c via log).2 <+:
      registry.faults limit root := by
  induction h with
  | root => exact ⟨[], List.prefix_refl _⟩
  | @onward chain next c q via d _ henter hd hleads ih =>
    obtain ⟨log, hlog⟩ := ih
    rw [component_eq, henter] at hlog
    obtain ⟨before, hbefore⟩ :=
      step_prefix_forEach (prefix_dependency registry next c via.isNone) hd
        (log ++ initializerFaults c log)
    obtain ⟨erased, hstep⟩ := dependency_of_leadsTo hleads
    rw [hstep] at hbefore
    exact ⟨before, hbefore.trans hlog⟩

/-- **Every fault that can be found is reported**, but of the faults of one initializer only the first
one that was found. -/
theorem reported_of_finds {f : Fault} (h : registry.Finds limit root f) :
    f ∈ registry.faults limit root ∨ ∃ type cause first,
      f = .initializer type cause ∧ .initializer type first ∈ registry.faults limit root := by
  cases h with
  | @entering chain c via _ hvisits henter =>
    obtain ⟨log, hlog⟩ := prefix_of_visits hvisits
    rw [component_eq, henter] at hlog
    exact Or.inl (hlog.subset (by simp))
  | @initializer chain next c via cause hvisits henter hcause =>
    obtain ⟨log, hlog⟩ := prefix_of_visits hvisits
    rw [component_eq, henter] at hlog
    obtain ⟨first, hfirst⟩ := initializer_mem_log hcause log
    refine Or.inr ⟨_, cause, first, rfl, hlog.subset ?_⟩
    exact (prefix_forEach (prefix_dependency registry next c via.isNone) _ _).subset hfirst
  | @dependency chain next c via d _ hvisits henter hd hf =>
    obtain ⟨log, hlog⟩ := prefix_of_visits hvisits
    rw [component_eq, henter] at hlog
    obtain ⟨before, hbefore⟩ :=
      step_prefix_forEach (prefix_dependency registry next c via.isNone) hd
        (log ++ initializerFaults c log)
    refine Or.inl (hlog.subset (hbefore.subset ?_))
    rcases dependency_log registry next c via.isNone _ d before with h | ⟨q, hleads, -⟩
    · rw [h]; exact List.mem_append_right _ hf
    · rw [ownFaults_of_leadsTo hleads] at hf
      cases hf

/-- What a call below the root reports can be found. -/
theorem finds_of_mem_component {chain : Chain} {c : Component} {via : Option Property}
    (hvisits : registry.Visits limit root chain c via) {log : List Fault} {f : Fault} (hf : f ∉ log)
    (hmem : f ∈ (component registry chain.room chain.frames c via log).2) :
    registry.Finds limit root f := by
  rw [component_eq] at hmem
  cases henter : chain.enter c via with
  | error fault =>
    rw [henter] at hmem
    have hmem := (List.mem_append.1 hmem).resolve_left hf
    rw [List.mem_singleton.1 hmem]
    exact .entering hvisits henter
  | ok next =>
    rw [henter] at hmem
    have hroom := Chain.room_lt_of_enter henter
    rcases mem_forEach hmem with h | ⟨d, hd, before, hbefore, hstep⟩
    · obtain ⟨cause, hcause, rfl⟩ :=
        exists_of_mem_initializerFaults ((List.mem_append.1 h).resolve_left hf)
      exact .initializer hvisits henter hcause
    · rcases dependency_log registry next c via.isNone _ d before with h | ⟨q, hleads, h⟩
      · rw [h] at hstep
        exact .dependency hvisits henter hd ((List.mem_append.1 hstep).resolve_left hbefore)
      · rw [h] at hstep
        exact finds_of_mem_component (.onward hvisits henter hd hleads) hbefore hstep
termination_by chain.room

/-- **Every reported fault was found** at a component that resolution came to. -/
theorem finds_of_mem {f : Fault} (h : f ∈ registry.faults limit root) :
    registry.Finds limit root f :=
  finds_of_mem_component .root (by simp) h

/-- **A root resolves exactly if no fault can be found.** -/
theorem resolves_iff :
    (∃ scope, registry.resolve limit root = .ok scope) ↔ ∀ f, ¬ registry.Finds limit root f := by
  have hempty : (∃ scope, registry.resolve limit root = .ok scope) ↔
      registry.faults limit root = [] := by
    constructor
    · rintro ⟨scope, h⟩
      exact congrArg Prod.snd (resolve_eq_ok_iff.1 h).1
    · intro h
      cases hresolve : registry.resolve limit root with
      | ok scope => exact ⟨scope, rfl⟩
      | error faults =>
        obtain ⟨hfaults, hne⟩ := resolve_eq_error_iff.1 hresolve
        exact absurd (hfaults.symm.trans h) hne
  rw [hempty]
  constructor
  · intro h f hf
    have hreported := reported_of_finds hf
    simp [h] at hreported
  · intro h
    exact List.eq_nil_iff_forall_not_mem.2 fun f hf => h f (finds_of_mem hf)

end Registry

end Wiring
