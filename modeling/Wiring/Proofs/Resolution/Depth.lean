import Mathlib.Data.List.Dedup
import Mathlib.Data.List.Perm.Subperm
import Wiring.Proofs.Fulfillment
import Wiring.Proofs.Resolution.Visits

/-!
# How long the chains of a resolution get

A chain falls into runs of eager steps, which the deferred steps part. Within a run no concrete type
comes twice, since that would close an eager cycle; and no deferred step is made twice, since the second
one refers back to the first. So chains are bounded by the registry alone, and the limit on their length
is only a guard.

* `Bounded`: the invariant of every chain.
* `depth_le_of_visits`: no chain is longer than `Registry.depthBound`.
* `resolve_eq_of_le`: a limit that is not exceeded does not matter.
-/

namespace Wiring

variable {registry : Registry} {chain next : Chain} {c root : Component} {via : Option Property}
  {limit : Nat}

/-! ## Runs and deferred steps -/

/-- The factory that a component of a chain is built by, with the concrete type of the component. -/
def Frame.deferredStep? (f : Frame) : Option (Property × TypeExpr) :=
  (f.via.filter (·.isDeferred)).map (·, f.component.concreteType)

namespace Chain

/-- The deferred steps of a chain. -/
def deferredSteps (frames : List Frame) : List (Property × TypeExpr) :=
  frames.filterMap Frame.deferredStep?

/-- The last components of a chain, back to the latest one that a factory builds. -/
def eagerRun : List Frame → List Frame
  | [] => []
  | f :: older => f :: if isEager f.via then eagerRun older else []

theorem isEager_eq_true_iff : isEager via = true ↔ ∀ p, via = some p → p.isDeferred = false := by
  cases via <;> simp [isEager]

/-- A component of the last run is followed by eager steps only. -/
theorem exists_eager_of_mem_eagerRun {f : Frame} :
    ∀ {frames : List Frame}, f ∈ eagerRun frames →
      ∃ newer older, frames = newer ++ f :: older ∧ ∀ g ∈ newer, isEager g.via
  | [], h => by cases h
  | g :: frames, h => by
    rcases List.mem_cons.1 h with rfl | h
    · exact ⟨[], frames, rfl, by simp⟩
    · split at h
      · rename_i hg
        obtain ⟨newer, older, rfl, hnewer⟩ := exists_eager_of_mem_eagerRun h
        exact ⟨g :: newer, older, rfl, by simpa [hg] using hnewer⟩
      · cases h

theorem eagerRun_subset {frames : List Frame} : eagerRun frames ⊆ frames := by
  intro f hf
  obtain ⟨newer, older, rfl, -⟩ := exists_eager_of_mem_eagerRun hf
  simp

theorem mem_deferredSteps {frames : List Frame} {p : Property} {type : TypeExpr} :
    (p, type) ∈ deferredSteps frames ↔
      p.isDeferred = true ∧ ∃ f ∈ frames, f.via = some p ∧ f.component.concreteType = type := by
  simp only [deferredSteps, List.mem_filterMap, Frame.deferredStep?, Option.map_eq_some_iff,
    Option.filter_eq_some_iff, Prod.mk.injEq]
  constructor
  · rintro ⟨f, hf, q, ⟨hq, hdeferred⟩, rfl, htype⟩
    exact ⟨hdeferred, f, hf, hq, htype⟩
  · rintro ⟨hdeferred, f, hf, hvia, htype⟩
    exact ⟨f, hf, p, ⟨hvia, hdeferred⟩, rfl, htype⟩

/-- An eager step goes on with the run. -/
theorem eagerRun_cons_of_isEager {frames : List Frame} (h : isEager via = true) :
    eagerRun (⟨c, via⟩ :: frames) = ⟨c, via⟩ :: eagerRun frames := by
  simp [eagerRun, h]

theorem deferredSteps_cons_of_isEager {frames : List Frame} (h : isEager via = true) :
    deferredSteps (⟨c, via⟩ :: frames) = deferredSteps frames := by
  refine List.filterMap_cons_none ?_
  cases via with
  | none => rfl
  | some p =>
    have hp := isEager_eq_true_iff.1 h p rfl
    simp [Frame.deferredStep?, Option.filter, hp]

/-- A deferred step begins a new run. -/
theorem eagerRun_cons_of_isDeferred {frames : List Frame} {p : Property}
    (h : p.isDeferred = true) : eagerRun (⟨c, some p⟩ :: frames) = [⟨c, some p⟩] := by
  simp [eagerRun, isEager, h]

theorem deferredSteps_cons_of_isDeferred {frames : List Frame} {p : Property}
    (h : p.isDeferred = true) :
    deferredSteps (⟨c, some p⟩ :: frames) = (p, c.concreteType) :: deferredSteps frames := by
  refine List.filterMap_cons_some ?_
  simp [Frame.deferredStep?, Option.filter, h]

/-- A factory step that was not made before is not among the steps of the chain. -/
theorem hasDeferredStep_eq_false_iff {p : Property} {type : TypeExpr} :
    chain.hasDeferredStep p type = false ↔ (p, type) ∉ deferredSteps chain.frames := by
  rw [← Bool.not_eq_true, hasDeferredStep_eq_true_iff, mem_deferredSteps]

end Chain

namespace Registry

/-- The deferred steps that a registry allows: each factory property of its components, with the
concrete type of its producer. -/
def deferredSteps (registry : Registry) : List (Property × TypeExpr) :=
  registry.components.flatMap fun c => c.dependencies.filterMap fun d =>
    if d.property.isDeferred then
      (d.producedType?.bind registry.fulfilling).map (d.property, ·.concreteType)
    else none

/-- **How long a chain can get**: one run of components for the root and one for each deferred step. -/
def depthBound (registry : Registry) : Nat :=
  registry.components.length * (registry.deferredSteps.dedup.length + 1)

theorem mem_deferredSteps_of_fulfilling {d : Dependency} {q : Component} {type : TypeExpr}
    (hc : c ∈ registry.components) (hd : d ∈ c.dependencies) (hp : d.property.isDeferred = true)
    (htype : d.producedType? = some type) (hq : registry.fulfilling type = some q) :
    (d.property, q.concreteType) ∈ registry.deferredSteps := by
  refine List.mem_flatMap.2 ⟨c, hc, List.mem_filterMap.2 ⟨d, hd, ?_⟩⟩
  simp [hp, htype, hq]

end Registry

/-! ## The invariant -/

/-- **What holds of every chain**: it is made of registered components and allowed deferred steps; a
deferred step comes once, and a concrete type comes once in a run. All runs but the last one are as long
as the registry at most. -/
structure Bounded (registry : Registry) (frames : List Frame) : Prop where
  registered : ∀ f ∈ frames, f.component ∈ registry.components
  allowed : Chain.deferredSteps frames ⊆ registry.deferredSteps
  steps_nodup : (Chain.deferredSteps frames).Nodup
  run_nodup : ((Chain.eagerRun frames).map (·.component.concreteType)).Nodup
  length_le : frames.length ≤
    registry.components.length * (Chain.deferredSteps frames).length + (Chain.eagerRun frames).length

namespace Bounded

variable {frames : List Frame}

theorem nil : Bounded registry [] :=
  ⟨by simp, by simp [Chain.deferredSteps], by simp [Chain.deferredSteps],
    by simp [Chain.eagerRun], by simp⟩

/-- A run is not longer than the registry. -/
theorem length_eagerRun_le (h : Bounded registry frames) :
    (Chain.eagerRun frames).length ≤ registry.components.length := by
  have hsub : (Chain.eagerRun frames).map (·.component.concreteType) ⊆
      registry.components.map (·.concreteType) := by
    intro t ht
    obtain ⟨f, hf, rfl⟩ := List.mem_map.1 ht
    exact List.mem_map_of_mem (h.registered f (Chain.eagerRun_subset hf))
  simpa using (List.subperm_of_subset h.run_nodup hsub).length_le

/-- There are no more deferred steps than the registry allows. -/
theorem length_deferredSteps_le (h : Bounded registry frames) :
    (Chain.deferredSteps frames).length ≤ registry.deferredSteps.dedup.length := by
  have hsub : Chain.deferredSteps frames ⊆ registry.deferredSteps.dedup :=
    fun s hs => List.mem_dedup.2 (h.allowed hs)
  exact (List.subperm_of_subset h.steps_nodup hsub).length_le

/-- **A bounded chain** is not longer than the bound of the registry. -/
theorem length_le_depthBound (h : Bounded registry frames) :
    frames.length ≤ registry.depthBound := by
  have hrun := h.length_eagerRun_le
  have hsteps := Nat.mul_le_mul_left registry.components.length h.length_deferredSteps_le
  have hlength := h.length_le
  rw [Registry.depthBound, Nat.mul_add_one]
  omega

/-- **Entering a component keeps the chain bounded**, if the step to it is allowed and new. -/
theorem enter (h : Bounded registry chain.frames) (hc : c ∈ registry.components)
    (hnew : ∀ p, via = some p → p.isDeferred = true →
      (p, c.concreteType) ∈ registry.deferredSteps ∧
        (p, c.concreteType) ∉ Chain.deferredSteps chain.frames)
    (henter : chain.enter c via = .ok next) : Bounded registry next.frames := by
  obtain ⟨hcycle, -, hframes⟩ := Chain.enter_eq_ok_iff.1 henter
  rw [hframes]
  have hregistered : ∀ f ∈ (⟨c, via⟩ : Frame) :: chain.frames,
      f.component ∈ registry.components := by
    intro f hf
    rcases List.mem_cons.1 hf with rfl | hf
    · exact hc
    · exact h.registered f hf
  by_cases heager : Chain.isEager via = true
  · -- the run goes on: a second component of one type in it would close an eager cycle
    have hsteps : Chain.deferredSteps (⟨c, via⟩ :: chain.frames) =
        Chain.deferredSteps chain.frames := Chain.deferredSteps_cons_of_isEager heager
    have hrun : Chain.eagerRun (⟨c, via⟩ :: chain.frames) =
        ⟨c, via⟩ :: Chain.eagerRun chain.frames := Chain.eagerRun_cons_of_isEager heager
    refine ⟨hregistered, by rw [hsteps]; exact h.allowed, by rw [hsteps]; exact h.steps_nodup,
      ?_, ?_⟩
    · rw [hrun, List.map_cons, List.nodup_cons]
      refine ⟨?_, h.run_nodup⟩
      intro hmem
      obtain ⟨f, hf, htype⟩ := List.mem_map.1 hmem
      obtain ⟨newer, older, hsplit, hnewer⟩ := Chain.exists_eager_of_mem_eagerRun hf
      rw [hsplit] at hcycle
      exact Chain.eagerCycle?_ne_none hnewer heager htype hcycle
    · rw [hsteps, hrun, List.length_cons, List.length_cons]
      have := h.length_le
      omega
  · -- a new run begins, and the one before it is as long as the registry at most
    obtain ⟨p, rfl, hp⟩ : ∃ p, via = some p ∧ p.isDeferred = true := by
      cases via with
      | none => simp [Chain.isEager] at heager
      | some p => exact ⟨p, rfl, by simpa [Chain.isEager] using heager⟩
    obtain ⟨hallowed, hfresh⟩ := hnew p rfl hp
    have hsteps : Chain.deferredSteps (⟨c, some p⟩ :: chain.frames) =
        (p, c.concreteType) :: Chain.deferredSteps chain.frames :=
      Chain.deferredSteps_cons_of_isDeferred hp
    have hrun : Chain.eagerRun (⟨c, some p⟩ :: chain.frames) = [⟨c, some p⟩] :=
      Chain.eagerRun_cons_of_isDeferred hp
    refine ⟨hregistered, ?_, ?_, by simp [hrun], ?_⟩
    · rw [hsteps]
      exact List.cons_subset.2 ⟨hallowed, h.allowed⟩
    · rw [hsteps]
      exact List.nodup_cons.2 ⟨hfresh, h.steps_nodup⟩
    · have hlast := h.length_eagerRun_le
      have hlength := h.length_le
      rw [hsteps, hrun, List.length_cons, List.length_cons, Nat.mul_add_one]
      simp only [List.length_cons, List.length_nil]
      omega

end Bounded

/-- The invariant of a visit: the chain is bounded, and so is the step to the component. -/
theorem bounded_of_visits (hroot : root ∈ registry.components)
    (h : registry.Visits limit root chain c via) :
    Bounded registry chain.frames ∧ c ∈ registry.components ∧
      ∀ p, via = some p → p.isDeferred = true → (p, c.concreteType) ∈ registry.deferredSteps ∧
        (p, c.concreteType) ∉ Chain.deferredSteps chain.frames := by
  induction h with
  | root => exact ⟨Bounded.nil, hroot, by simp⟩
  | @onward chain next c q via d _ henter hd hleads ih =>
    obtain ⟨hbounded, hc, hnew⟩ := ih
    obtain ⟨type, htype, hq⟩ := hleads.fulfilling
    refine ⟨hbounded.enter hc hnew henter, Registry.mem_of_fulfilling hq, ?_⟩
    rintro p hp hdeferred
    cases hp
    obtain ⟨-, -, -, -, hstep⟩ := hleads
    exact ⟨Registry.mem_deferredSteps_of_fulfilling hc hd hdeferred htype hq,
      Chain.hasDeferredStep_eq_false_iff.1 hstep⟩

/-- **No chain gets longer than the bound.** -/
theorem depth_le_of_visits (hroot : root ∈ registry.components)
    (h : registry.Visits limit root chain c via) (henter : chain.enter c via = .ok next) :
    next.depth ≤ registry.depthBound := by
  obtain ⟨hbounded, hc, hnew⟩ := bounded_of_visits hroot h
  exact (hbounded.enter hc hnew henter).length_le_depthBound

/-! ## The limit -/

/-- A log without a report that the limit was exceeded. -/
def WithinLimit (log : List Fault) : Prop :=
  ∀ depth types, Fault.tooDeep depth types ∉ log

theorem WithinLimit.of_prefix {log more : List Fault} (h : WithinLimit more) (hlog : log <+: more) :
    WithinLimit log :=
  fun depth types hmem => h depth types (hlog.subset hmem)

/-- A chain has as many places as the limit says, taken and free. -/
theorem limit_of_visits (h : registry.Visits limit root chain c via) : chain.limit = limit := by
  induction h with
  | root => simp [Chain.start, Chain.limit, Chain.depth]
  | @onward chain next c q via d _ henter _ _ ih =>
    obtain ⟨-, hroom, hframes⟩ := Chain.enter_eq_ok_iff.1 henter
    simp only [Chain.limit, Chain.depth, hframes, List.length_cons] at ih ⊢
    omega

/-- Only a full chain exceeds the limit. -/
theorem room_of_tooDeep {depth : Nat} {types : List TypeExpr}
    (h : chain.enter c via = .error (.tooDeep depth types)) : chain.room = 0 := by
  rcases Chain.enter_eq_error_iff.1 h with ⟨hroom, -⟩ | ⟨-, cycle, -, ⟨⟩⟩
  exact hroom

/-- A dependency itself never exceeds the limit. -/
theorem ownFaults_withinLimit {d : Dependency} {isRoot : Bool} :
    WithinLimit (Resolution.ownFaults registry chain c isRoot d) := by
  intro depth types hmem
  cases Resolution.isAboutDependency_of_mem_ownFaults hmem

/-- **A limit beyond the bound is never exceeded.** -/
theorem withinLimit_faults (hroot : root ∈ registry.components) (hlimit : registry.depthBound < limit) :
    WithinLimit (registry.faults limit root) := by
  intro depth types hmem
  cases Registry.finds_of_mem hmem with
  | @entering chain c via _ hvisits henter =>
    have hbound := (bounded_of_visits hroot hvisits).1.length_le_depthBound
    have hplaces := limit_of_visits hvisits
    have hroom := room_of_tooDeep henter
    simp only [Chain.limit, Chain.depth] at hplaces
    omega
  | dependency _ _ _ hf => exact ownFaults_withinLimit depth types hf

/-! ## Greater limits -/

open Resolution

/-- Steps that agree as long as the limit is not exceeded agree along all dependencies. -/
theorem forEach_congr {step step' : Dependency → List Fault → Option Binding × List Fault}
    (hkept : ∀ d log, log <+: (step d log).2)
    (hstep : ∀ d log, WithinLimit (step d log).2 → step' d log = step d log) :
    ∀ {ds : List Dependency} {log : List Fault}, WithinLimit (forEach step ds log).2 →
      forEach step' ds log = forEach step ds log
  | [], _, _ => rfl
  | d :: ds, log, h => by
    rw [forEach_cons] at h
    have hd : step' d log = step d log :=
      hstep d log (h.of_prefix (prefix_forEach hkept ds _))
    rw [forEach_cons, forEach_cons, hd, forEach_congr hkept hstep h]

/-- A dependency is handled by what the chain holds, not by how much room there is. -/
theorem dependency_of_room (room more : Nat) (frames : List Frame) (c : Component) (isRoot : Bool)
    (below : Component → Property → List Fault → List Binding × List Fault) (d : Dependency)
    (log : List Fault) :
    dependency registry ⟨frames, more⟩ c isRoot below d log =
      dependency registry ⟨frames, room⟩ c isRoot below d log :=
  rfl

/-- **More room changes nothing** in a call that does not exceed the limit. -/
theorem component_eq_of_le (registry : Registry) :
    ∀ {room more : Nat} {frames : List Frame} {c : Component} {via : Option Property}
      {log : List Fault}, room ≤ more → WithinLimit (component registry room frames c via log).2 →
      component registry more frames c via log = component registry room frames c via log := by
  intro room
  induction room with
  | zero =>
    intro more frames c via log _ h
    exact absurd (List.mem_append_right log (List.mem_singleton_self _)) (h _ _)
  | succ room ih =>
    intro more frames c via log hle h
    obtain ⟨more, rfl⟩ : ∃ n, more = n + 1 := ⟨more - 1, by omega⟩
    simp only [component] at h ⊢
    cases hcycle : Chain.eagerCycle? frames c via with
    | some cycle => rfl
    | none =>
      rw [hcycle] at h
      refine forEach_congr (prefix_dependency registry ⟨⟨c, via⟩ :: frames, room⟩ c via.isNone) ?_ h
      intro d log hd
      rw [dependency_of_room room more]
      by_cases hleads : ∃ q, LeadsTo registry ⟨⟨c, via⟩ :: frames, room⟩ c d q
      · obtain ⟨q, hq⟩ := hleads
        obtain ⟨erased, hdependency⟩ := dependency_of_leadsTo hq
        rw [hdependency] at hd
        have hbelow := ih (Nat.le_of_succ_le_succ hle) hd
        simp only [hdependency, hbelow]
      · obtain ⟨binding, hdependency⟩ :=
          dependency_of_not_leadsTo (fun q hq => hleads ⟨q, hq⟩) via.isNone
        rw [hdependency, hdependency]

/-- A limit that is not exceeded may be raised. -/
theorem resolve_eq_of_le {limit more : Nat} (hle : limit ≤ more)
    (h : WithinLimit (registry.faults limit root)) :
    registry.resolve more root = registry.resolve limit root := by
  unfold Registry.resolve
  rw [component_eq_of_le registry hle h]

/-- Resolving a root reports that a chain got too long. -/
def Registry.Exceeds (registry : Registry) (limit : Nat) (root : Component) : Prop :=
  ∃ faults depth types, registry.resolve limit root = .error faults ∧
    Fault.tooDeep depth types ∈ faults

theorem withinLimit_of_not_exceeds {limit : Nat} (h : ¬ registry.Exceeds limit root) :
    WithinLimit (registry.faults limit root) := by
  intro depth types hmem
  refine h ⟨registry.faults limit root, depth, types, ?_, hmem⟩
  exact Registry.resolve_eq_error_iff.2 ⟨rfl, List.ne_nil_of_mem hmem⟩

/-- **Resolution ends by itself.** The chains below a registered root are never longer than the number
of components times one more than the number of deferred steps. So a greater limit is not exceeded; and
once a limit is not exceeded, every greater one gives the same scope or the same faults. -/
theorem chains_bounded_by_registry (hroot : root ∈ registry.components) :
    (∀ limit chain c via next, registry.Visits limit root chain c via →
      chain.enter c via = .ok next →
      next.depth ≤ registry.components.length * (registry.deferredSteps.dedup.length + 1)) ∧
    (∀ limit, registry.components.length * (registry.deferredSteps.dedup.length + 1) < limit →
      ¬ registry.Exceeds limit root) ∧
    ∀ limit more, limit ≤ more → ¬ registry.Exceeds limit root →
      registry.resolve more root = registry.resolve limit root := by
  refine ⟨?_, ?_, ?_⟩
  · intro limit chain c via next hvisits henter
    exact depth_le_of_visits hroot hvisits henter
  · rintro limit hlimit ⟨faults, depth, types, hfaults, hmem⟩
    obtain ⟨rfl, -⟩ := Registry.resolve_eq_error_iff.1 hfaults
    exact withinLimit_faults hroot hlimit depth types hmem
  · intro limit more hle h
    exact resolve_eq_of_le hle (withinLimit_of_not_exceeds h)

/-- A book starts with a page. -/
def book : Component :=
  ⟨.simple "Book" [], [], true, none,
    [⟨⟨"first", .simple "Page" []⟩, .instantiated none false⟩], .structType⟩

/-- A page makes the next page on demand. -/
def page : Component :=
  ⟨.simple "Page" [], [], false, none,
    [⟨⟨"next", .simple "Instantiator" [.simple "Page" []]⟩, .instantiated none false⟩], .structType⟩

/-- The chain of a book goes on to its first page and through the factory to the next one, where the
factory comes up again: three places are enough, and the bound is four. -/
theorem book_bounded :
    book ∈ Registry.components ⟨[book, page]⟩ ∧
      (∀ chain c via next, Registry.Visits ⟨[book, page]⟩ 256 book chain c via →
        chain.enter c via = .ok next → next.depth ≤ 4) ∧
      ¬ Registry.Exceeds ⟨[book, page]⟩ 5 book ∧
      Registry.resolve ⟨[book, page]⟩ 256 book = Registry.resolve ⟨[book, page]⟩ 3 book := by
  have hroot : book ∈ Registry.components ⟨[book, page]⟩ := List.mem_cons_self
  obtain ⟨hdepth, hlimit, hgreater⟩ := chains_bounded_by_registry hroot
  refine ⟨hroot, ?_, hlimit 5 (by decide), hgreater 3 256 (by decide) ?_⟩
  · intro chain c via next hvisits henter
    exact (hdepth 256 chain c via next hvisits henter).trans (by decide)
  · rintro ⟨faults, depth, types, hfaults, hmem⟩
    obtain ⟨heq, hne⟩ := Registry.resolve_eq_error_iff.1 hfaults
    have hnone : Registry.faults ⟨[book, page]⟩ 3 book = [] := by decide
    exact hne (heq.symm.trans hnone)

end Wiring
