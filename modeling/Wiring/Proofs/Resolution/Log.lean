import Wiring.Proofs.Fulfillment
import Wiring.Proofs.Resolution.Visits

/-!
# What a run adds to its log

Resolution hands one log on from dependency to dependency. It is only read to tell whether a fault of the
same initializer is in it already, so a run can be told apart into what it finds, which does not depend on
the log at all, and what is left out of that because it has been reported.

* `Resolution.outcome`: what a run declares and finds, without a log.
* `Resolution.unreported`: what is added to a log.
* `Resolution.component_eq_outcome`: a run declares what it declares without a log, and adds to its log
  what it finds there and is not reported yet.
* `Resolution.pairwise_unreported`: one initializer is reported once.
* `Resolution.isConsistent_outcome`: the faults of one initializer are the same.
* `Resolution.unreported_perm`: the same faults in another order add the same faults.
-/

namespace Wiring

/-- The component whose initializer a fault is about. -/
def Fault.initialized? : Fault → Option TypeExpr
  | .initializer component _ => some component
  | _ => none

namespace Resolution

/-! ## What has been reported -/

/-- Whether the log has a fault of the same initializer. -/
def isRepeated (log : List Fault) (f : Fault) : Bool :=
  f.initialized?.isSome && log.any (·.initialized? = f.initialized?)

/-- **What is added to a log** for some faults that are found: those of initializers only if none of the
same component is in the log. -/
def unreported : (log faults : List Fault) → List Fault
  | _, [] => []
  | log, f :: fs =>
    if isRepeated log f then unreported log fs else f :: unreported (log ++ [f]) fs

theorem isRepeated_iff {log : List Fault} {f : Fault} :
    isRepeated log f = true ↔
      ∃ c, f.initialized? = some c ∧ ∃ g ∈ log, g.initialized? = some c := by
  cases h : f.initialized? <;> simp [isRepeated, h]

theorem unreported_append (log first rest : List Fault) :
    unreported log (first ++ rest) =
      unreported log first ++ unreported (log ++ unreported log first) rest := by
  induction first generalizing log with
  | nil => simp [unreported]
  | cons f first ih =>
    rw [List.cons_append, unreported, unreported]
    split
    · exact ih log
    · rw [ih, List.cons_append, List.append_assoc, List.singleton_append]

/-- Faults that are not about initializers are always added. -/
theorem unreported_eq_self {faults : List Fault} (h : ∀ f ∈ faults, f.initialized? = none) :
    ∀ log, unreported log faults = faults := by
  induction faults with
  | nil => exact fun log => rfl
  | cons f faults ih =>
    intro log
    have hf := h f List.mem_cons_self
    rw [unreported, if_neg (by simp [isRepeated, hf]),
      ih fun g hg => h g (List.mem_cons_of_mem _ hg)]

/-! ## A run without a log -/

/-- **What a run declares and finds** for the component `c` at the end of a chain, where each fault of an
initializer counts as often as it is found. -/
def outcome (registry : Registry) :
    (room : Nat) → (frames : List Frame) → (c : Component) → (via : Option Property) →
      List Binding × List Fault
  | 0, frames, c, _ => ([], [Chain.overflow frames c])
  | room + 1, frames, c, via =>
    match Chain.eagerCycle? frames c via with
    | some cycle => ([], [.structuralCycle cycle])
    | none =>
      let frames := ⟨c, via⟩ :: frames
      let steps := c.dependencies.map fun d =>
        dependency registry ⟨frames, room⟩ c via.isNone
          (fun producer p _ => outcome registry room frames producer (some p)) d []
      (steps.flatMap (·.1.toList), initializerFaults c [] ++ steps.flatMap (·.2))

variable {registry : Registry} {chain : Chain} {c : Component} {isRoot : Bool} {d : Dependency}

/-- What is wrong with a dependency itself is not about an initializer. -/
theorem initialized?_of_mem_ownFaults {f : Fault} (h : f ∈ ownFaults registry chain c isRoot d) :
    f.initialized? = none := by
  have hf := isAboutDependency_of_mem_ownFaults h
  cases f with
  | initializer component cause => cases hf
  | _ => rfl

/-- The fault of an initializer is added unless one of the same component is in the log. -/
theorem initializerFaults_eq_unreported (c : Component) (log : List Fault) :
    initializerFaults c log = unreported log (initializerFaults c []) := by
  cases hc : c.argumentList with
  | ok text => simp [initializerFaults, hc, unreported]
  | error cause =>
    have hlog : ∀ log, initializerFaults c log =
        if isRepeated log (.initializer c.concreteType cause) then []
        else [.initializer c.concreteType cause] := by
      intro log
      unfold initializerFaults
      rw [hc]
      refine if_congr ?_ rfl rfl
      rw [isRepeated, Fault.initialized?, Option.isSome_some, Bool.true_and, List.any_eq_true,
        List.any_eq_true]
      refine exists_congr fun f => and_congr_right fun _ => ?_
      cases f <;> simp [Fault.initialized?]
    rw [hlog, hlog []]
    rfl

section Log

variable {below : Component → Property → List Fault → List Binding × List Fault}
  {plain : Component → Property → List Binding × List Fault}

/-- If this is so below a dependency, it is so with it. -/
theorem dependency_eq_plain
    (hbelow : ∀ q p log, below q p log = ((plain q p).1, log ++ unreported log (plain q p).2))
    (d : Dependency) (log : List Fault) :
    dependency registry chain c isRoot below d log =
      ((dependency registry chain c isRoot (fun q p _ => plain q p) d []).1,
        log ++ unreported log (dependency registry chain c isRoot (fun q p _ => plain q p) d []).2) := by
  by_cases h : ∃ q, LeadsTo registry chain c d q
  · obtain ⟨q, hq⟩ := h
    obtain ⟨erased, hd⟩ := dependency_of_leadsTo hq
    rw [hd, hd, hbelow]
  · obtain ⟨binding, hd⟩ := dependency_of_not_leadsTo (fun q hq => h ⟨q, hq⟩) isRoot
    rw [hd, hd, List.nil_append, unreported_eq_self fun f hf => initialized?_of_mem_ownFaults hf]

/-- If this is so for each step, it is so for all of them. -/
theorem forEach_eq_plain {step : Dependency → List Fault → Option Binding × List Fault}
    {plain : Dependency → Option Binding × List Fault}
    (hstep : ∀ d log, step d log = ((plain d).1, log ++ unreported log (plain d).2)) :
    ∀ (ds : List Dependency) (log : List Fault), forEach step ds log =
      ((ds.map plain).flatMap (·.1.toList),
        log ++ unreported log ((ds.map plain).flatMap (·.2)))
  | [], log => by simp [forEach, unreported]
  | d :: ds, log => by
    rw [forEach_cons, hstep, forEach_eq_plain hstep ds]
    simp only [List.map_cons, List.flatMap_cons]
    rw [unreported_append, List.append_assoc]

end Log

/-- **A run declares what it declares without a log, and adds to its log what it finds there and is not
reported yet.** -/
theorem component_eq_outcome (registry : Registry) :
    ∀ (room : Nat) (frames : List Frame) (c : Component) (via : Option Property) (log : List Fault),
      component registry room frames c via log =
        ((outcome registry room frames c via).1,
          log ++ unreported log (outcome registry room frames c via).2) := by
  intro room
  induction room with
  | zero =>
    intro frames c via log
    rw [component, outcome, unreported_eq_self (by simp [Chain.overflow, Fault.initialized?])]
  | succ room ih =>
    intro frames c via log
    rw [component, outcome]
    cases Chain.eagerCycle? frames c via with
    | some cycle =>
      simp only
      rw [unreported_eq_self (by simp [Fault.initialized?])]
    | none =>
      simp only
      rw [forEach_eq_plain (dependency_eq_plain fun q p log => ih _ q (some p) log),
        initializerFaults_eq_unreported, unreported_append, List.append_assoc]

/-- The faults of a root are those that are found and not reported before. -/
theorem faults_eq_unreported (registry : Registry) (limit : Nat) (root : Component) :
    registry.faults limit root = unreported [] (outcome registry limit [] root none).2 := by
  rw [Registry.faults, component_eq_outcome, List.nil_append]

/-- A root resolves if it has no faults, and then to what is declared without a log. -/
theorem resolve_eq_ok_iff_outcome {registry : Registry} {limit : Nat} {root : Component}
    {scope : Scope} :
    registry.resolve limit root = .ok scope ↔
      scope = ⟨root, (outcome registry limit [] root none).1⟩ ∧ registry.faults limit root = [] := by
  rw [Registry.resolve_eq_ok_iff, Registry.faults, component_eq_outcome, Prod.mk.injEq]
  obtain ⟨c, bindings⟩ := scope
  rw [Scope.mk.injEq]
  constructor
  · rintro ⟨⟨hbindings, hfaults⟩, hc⟩
    exact ⟨⟨hc, hbindings.symm⟩, hfaults⟩
  · rintro ⟨⟨hc, hbindings⟩, hfaults⟩
    exact ⟨⟨hbindings.symm, hfaults⟩, hc⟩

/-! ## The order in which faults are found -/

theorem unreported_sublist : ∀ (log faults : List Fault), (unreported log faults).Sublist faults
  | _, [] => .slnil
  | log, f :: fs => by
    rw [unreported]
    split
    · exact (unreported_sublist log fs).cons f
    · exact (unreported_sublist _ fs).cons_cons f

/-- Nothing is added that is in the log. -/
theorem not_isRepeated_of_mem {f : Fault} :
    ∀ {log faults : List Fault}, f ∈ unreported log faults → isRepeated log f = false
  | _, [], h => by cases h
  | log, g :: faults, h => by
    rw [unreported] at h
    split at h
    · exact not_isRepeated_of_mem h
    · rename_i hg
      rcases List.mem_cons.1 h with rfl | h
      · simpa using hg
      · have hlater := not_isRepeated_of_mem h
        rw [← Bool.not_eq_true, isRepeated_iff] at hlater ⊢
        rintro ⟨c, hc, g', hg', hc'⟩
        exact hlater ⟨c, hc, g', List.mem_append_left _ hg', hc'⟩

/-- **One initializer is reported once.** -/
theorem pairwise_unreported :
    ∀ (log faults : List Fault), (unreported log faults).Pairwise fun f g =>
      f.initialized?.isSome → f.initialized? ≠ g.initialized?
  | _, [] => .nil
  | log, f :: faults => by
    rw [unreported]
    split
    · exact pairwise_unreported log faults
    · refine List.pairwise_cons.2 ⟨?_, pairwise_unreported _ faults⟩
      intro g hg hf hfg
      obtain ⟨c, hc⟩ := Option.isSome_iff_exists.1 hf
      have hrepeated : isRepeated (log ++ [f]) g = true :=
        isRepeated_iff.2 ⟨c, hfg ▸ hc, f, by simp, hc⟩
      rw [not_isRepeated_of_mem hg] at hrepeated
      cases hrepeated

/-- What is found is added, or one of the same initializer is. -/
theorem exists_reported {f : Fault} :
    ∀ (log : List Fault) {faults : List Fault}, f ∈ faults →
      f ∈ unreported log faults ∨
        f.initialized?.isSome ∧ ∃ g ∈ log ++ unreported log faults, g.initialized? = f.initialized?
  | log, g :: faults, h => by
    rw [unreported]
    split
    · rename_i hg
      rcases List.mem_cons.1 h with rfl | h
      · obtain ⟨c, hc, g', hg', hc'⟩ := isRepeated_iff.1 hg
        exact .inr ⟨by rw [hc]; rfl, g', List.mem_append_left _ hg', hc'.trans hc.symm⟩
      · exact exists_reported log h
    · rcases List.mem_cons.1 h with rfl | h
      · exact .inl List.mem_cons_self
      · rcases exists_reported (log ++ [g]) h with h | ⟨hf, g', hg', hc⟩
        · exact .inl (List.mem_cons_of_mem _ h)
        · exact .inr ⟨hf, g', by simpa using hg', hc⟩

/-- All faults about one initializer are the same. -/
def IsConsistent (faults : List Fault) : Prop :=
  ∀ f ∈ faults, ∀ g ∈ faults, f.initialized?.isSome → g.initialized? = f.initialized? → g = f

/-- A fault of an initializer that is found is that of a component of the registry, or of the component
that the run begins with. -/
theorem exists_initialized {registry : Registry} {t : TypeExpr} {f : Fault}
    (hf : f.initialized? = some t) :
    ∀ {room : Nat} {frames : List Frame} {c : Component} {via : Option Property},
      f ∈ (outcome registry room frames c via).2 →
      ∃ q cause, (q = c ∨ q ∈ registry.components) ∧ q.argumentList = .error cause ∧
        f = .initializer q.concreteType cause := by
  intro room
  induction room with
  | zero =>
    intro frames c via h
    rw [outcome, List.mem_singleton] at h
    rw [h] at hf
    cases hf
  | succ room ih =>
    intro frames c via h
    rw [outcome] at h
    cases hcycle : Chain.eagerCycle? frames c via with
    | some cycle =>
      simp only [hcycle, List.mem_singleton] at h
      rw [h] at hf
      cases hf
    | none =>
      simp only [hcycle, List.mem_append, List.mem_flatMap, List.mem_map] at h
      rcases h with h | ⟨_, ⟨d, hd, rfl⟩, h⟩
      · obtain ⟨cause, hcause, rfl⟩ := exists_of_mem_initializerFaults h
        exact ⟨c, cause, .inl rfl, hcause, rfl⟩
      · rcases dependency_log registry ⟨⟨c, via⟩ :: frames, room⟩ c via.isNone
          (fun q p _ => outcome registry room (⟨c, via⟩ :: frames) q (some p)) d [] with
          hown | ⟨q, hq, hbelow⟩
        · rw [hown, List.nil_append] at h
          rw [initialized?_of_mem_ownFaults h] at hf
          cases hf
        · rw [hbelow] at h
          obtain ⟨type, -, hfulfilling⟩ := hq.fulfilling
          obtain ⟨r, cause, rfl | hr, hcause⟩ := ih h
          · exact ⟨r, cause, .inr (Registry.mem_of_fulfilling hfulfilling), hcause⟩
          · exact ⟨r, cause, .inr hr, hcause⟩

/-- **What is found below a registered component is consistent**: there is one component of a type. -/
theorem isConsistent_outcome {registry : Registry} {c : Component} (hr : registry.Unambiguous)
    (hc : c ∈ registry.components) (room : Nat) (frames : List Frame) (via : Option Property) :
    IsConsistent (outcome registry room frames c via).2 := by
  intro f hf g hg hsome htype
  obtain ⟨t, ht⟩ := Option.isSome_iff_exists.1 hsome
  obtain ⟨a, cause, ha, hcause, rfl⟩ := exists_initialized ht hf
  obtain ⟨b, cause', hb, hcause', rfl⟩ := exists_initialized (htype.trans ht) hg
  have hregistered : ∀ q, q = c ∨ q ∈ registry.components → q ∈ registry.components := by
    rintro q (rfl | hq)
    · exact hc
    · exact hq
  obtain rfl : b = a := Registry.eq_of_concreteType_eq hr (hregistered b hb) (hregistered a ha)
    (Option.some.inj htype)
  rw [hcause] at hcause'
  rw [Except.error.inj hcause']

theorem mem_unreported_iff {faults : List Fault} (h : IsConsistent faults) {f : Fault} :
    f ∈ unreported [] faults ↔ f ∈ faults := by
  refine ⟨fun hf => (unreported_sublist [] faults).subset hf, fun hf => ?_⟩
  rcases exists_reported [] hf with hmem | ⟨hsome, g, hg, hc⟩
  · exact hmem
  · rw [List.nil_append] at hg
    rwa [← h f hf g ((unreported_sublist [] faults).subset hg) hsome hc]

theorem filter_unreported (log faults : List Fault) :
    (unreported log faults).filter (·.initialized?.isNone) =
      faults.filter (·.initialized?.isNone) := by
  induction faults generalizing log with
  | nil => rfl
  | cons f faults ih =>
    rw [unreported]
    split
    · rename_i hf
      obtain ⟨c, hc, -⟩ := isRepeated_iff.1 hf
      rw [ih, List.filter_cons_of_neg (by simp [hc])]
    · rw [List.filter_cons, List.filter_cons, ih]

/-- **The same faults in another order add the same faults**, as long as those of one initializer are the
same. -/
theorem unreported_perm {faults others : List Fault} (hperm : faults.Perm others)
    (hconsistent : IsConsistent faults) :
    (unreported [] faults).Perm (unreported [] others) := by
  have hothers : IsConsistent others := fun f hf g hg =>
    hconsistent f (hperm.mem_iff.2 hf) g (hperm.mem_iff.2 hg)
  have hnodup : ∀ faults, ((unreported [] faults).filter (!·.initialized?.isNone)).Nodup := by
    intro faults
    refine List.Pairwise.imp_of_mem ?_ ((pairwise_unreported [] faults).filter _)
    rintro f g hf - hne rfl
    exact hne (by simpa using (List.mem_filter.1 hf).2) rfl
  -- faults about initializers are added once each, and all others always
  refine (List.filter_append_perm (·.initialized?.isNone) _).symm.trans
    (.trans ?_ (List.filter_append_perm (·.initialized?.isNone) _))
  refine .append ?_ ((List.perm_ext_iff_of_nodup (hnodup _) (hnodup _)).2 fun f => ?_)
  · rw [filter_unreported, filter_unreported]
    exact hperm.filter _
  · rw [List.mem_filter, List.mem_filter, mem_unreported_iff hconsistent, mem_unreported_iff hothers,
      hperm.mem_iff]

end Resolution

end Wiring
