import Wiring.Proofs.Resolution.Log

/-!
# Branches report on their own

What a run of resolution adds to the log is what it would add to an empty one, but for the faults of
initializers that have been reported. So a branch of a tree cannot keep the faults of another one from being
reported, apart from those of an initializer that both of them come to.

* `Resolution.component_eq_filter`: a run with a log against the same run with the empty one.
* `Resolution.others`: the faults that are not about initializers; `others_component_eq_flatMap`: those of a
  component are the ones of its branches, one branch after the other.
* `Registry.branches_report_independently`: the list of all faults of a root.
-/

namespace Wiring

open Resolution

variable {registry : Registry} {limit : Nat} {root c : Component} {chain next : Chain}
  {via : Option Property}

namespace Resolution

/-! ## With a log and without -/

theorem isRepeated_append (log kept : List Fault) (f : Fault) :
    isRepeated (log ++ kept) f = (isRepeated log f || isRepeated kept f) := by
  cases h : f.initialized? <;> simp [isRepeated, h]

/-- A fault whose initializer is in the log already makes no difference to it. -/
theorem isRepeated_concat {log : List Fault} {f : Fault} (h : isRepeated log f = true) (g : Fault) :
    isRepeated (log ++ [f]) g = isRepeated log g := by
  rw [isRepeated_append, Bool.or_eq_left_iff_imp, isRepeated_iff, isRepeated_iff]
  rintro ⟨c, hg, f', hf', hf⟩
  rw [List.mem_singleton.1 hf'] at hf
  obtain ⟨c', hf'', hlog⟩ := isRepeated_iff.1 h
  rw [hf, Option.some.injEq] at hf''
  exact ⟨c, hg, hf'' ▸ hlog⟩

/-- What is added depends only on what counts as repeated. -/
theorem unreported_congr {log log' : List Fault} (h : ∀ f, isRepeated log f = isRepeated log' f)
    (faults : List Fault) : unreported log faults = unreported log' faults := by
  induction faults generalizing log log' with
  | nil => rfl
  | cons f faults ih =>
    rw [unreported, unreported, h f, ih h]
    refine if_congr Iff.rfl rfl ?_
    rw [ih]
    intro g
    rw [isRepeated_append, isRepeated_append, h g]

/-- **A longer log only leaves more out**: those faults of initializers that it has. -/
theorem unreported_append_eq_filter (log kept faults : List Fault) :
    unreported (log ++ kept) faults = (unreported kept faults).filter (!isRepeated log ·) := by
  induction faults generalizing kept with
  | nil => rfl
  | cons f faults ih =>
    have hlog := isRepeated_append log kept f
    rw [unreported, unreported]
    cases hkept : isRepeated kept f with
    | true =>
      rw [hkept, Bool.or_true] at hlog
      rw [hlog]
      exact ih kept
    | false =>
      rw [hkept, Bool.or_false] at hlog
      rw [hlog, if_neg Bool.false_ne_true]
      cases hf : isRepeated log f with
      | true =>
        -- from here on the log knows the initializer, with or without `f`
        have hsame := isRepeated_concat (hlog.trans hf)
        rw [List.filter_cons_of_neg (by simp [hf]), ← ih (kept ++ [f]), ← List.append_assoc]
        exact (unreported_congr hsame faults).symm
      | false =>
        rw [List.filter_cons_of_pos (by simp [hf]), ← ih (kept ++ [f]), ← List.append_assoc]
        rfl

/-- **A run with a log** declares what it declares with the empty one, and adds to the log what it adds to the
empty one, without the faults of initializers that the log has. -/
theorem component_eq_filter (registry : Registry) (chain : Chain) (c : Component)
    (via : Option Property) (log : List Fault) :
    component registry chain.room chain.frames c via log =
      ((component registry chain.room chain.frames c via []).1,
        log ++ (component registry chain.room chain.frames c via []).2.filter (!isRepeated log ·)) := by
  rw [component_eq_outcome, component_eq_outcome, List.nil_append, ← unreported_append_eq_filter,
    List.append_nil]

/-! ## One branch after the other -/

/-- The faults that are not about initializers. -/
def others (faults : List Fault) : List Fault :=
  faults.filter (·.initialized?.isNone)

/-- What resolution reports for a dependency of the component at the end of a chain, with all that is below
it, if nothing has been reported before. -/
def branchLog (registry : Registry) (chain : Chain) (c : Component) (via : Option Property)
    (d : Dependency) : List Fault :=
  (dependency registry chain c via.isNone
    (fun q p log => component registry chain.room chain.frames q (some p) log) d []).2

/-- A step that adds what is not reported yet has the same other faults with every log. -/
theorem others_forEach {step : Dependency → List Fault → Option Binding × List Fault}
    (hstep : ∀ d log, others (step d log).2 = others log ++ others (step d []).2) :
    ∀ (ds : List Dependency) (log : List Fault),
      others (forEach step ds log).2 = others log ++ ds.flatMap fun d => others (step d []).2
  | [], log => by rw [forEach, List.flatMap_nil, List.append_nil]
  | d :: ds, log => by
    rw [forEach_cons, others_forEach hstep ds, hstep, List.flatMap_cons, List.append_assoc]

/-- A run adds the same other faults to every log. -/
theorem others_component (registry : Registry) (chain : Chain) (c : Component)
    (via : Option Property) (log : List Fault) :
    others (component registry chain.room chain.frames c via log).2 =
      others log ++ others (component registry chain.room chain.frames c via []).2 := by
  rw [component_eq_outcome, component_eq_outcome]
  simp only [others, List.filter_append, filter_unreported, List.nil_append]

/-- So does the handling of a dependency. -/
theorem others_dependency (registry : Registry) (chain : Chain) (c : Component)
    (via : Option Property) (d : Dependency) (log : List Fault) :
    others (dependency registry chain c via.isNone
        (fun q p log => component registry chain.room chain.frames q (some p) log) d log).2 =
      others log ++ others (branchLog registry chain c via d) := by
  by_cases h : ∃ q, LeadsTo registry chain c d q
  · obtain ⟨q, hq⟩ := h
    obtain ⟨erased, hd⟩ := dependency_of_leadsTo hq
    rw [branchLog, hd, hd]
    exact others_component registry chain q (some d.property) log
  · obtain ⟨binding, hd⟩ := dependency_of_not_leadsTo (fun q hq => h ⟨q, hq⟩) via.isNone
    rw [branchLog, hd, hd, others, List.filter_append]
    rfl

/-- **What a component reports, its branches report**, one after the other, but for initializers. -/
theorem others_component_eq_flatMap (henter : chain.enter c via = .ok next) :
    others (component registry chain.room chain.frames c via []).2 =
      c.dependencies.flatMap fun d => others (branchLog registry next c via d) := by
  have hinitializer : others (initializerFaults c []) = [] := by
    refine List.filter_eq_nil_iff.2 ?_
    intro f hf
    obtain ⟨cause, -, rfl⟩ := exists_of_mem_initializerFaults hf
    exact Bool.false_ne_true
  rw [component_eq, henter]
  simp only [List.nil_append]
  rw [others_forEach (others_dependency registry next c via), hinitializer, List.nil_append]
  rfl

end Resolution

namespace Registry

/-- What a run below a root reports about anything but initializers is reported for the root, in one
piece. -/
theorem others_infix_of_visits (h : registry.Visits limit root chain c via) :
    others (component registry chain.room chain.frames c via []).2 <:+:
      others (registry.faults limit root) := by
  induction h with
  | root => exact List.infix_refl _
  | @onward chain next c q via d _ henter hd hleads ih =>
    rw [others_component_eq_flatMap henter] at ih
    obtain ⟨erased, hstep⟩ := dependency_of_leadsTo hleads
    have hbranch : branchLog registry next c via d =
        (component registry next.room next.frames q (some d.property) []).2 := by
      rw [branchLog, hstep]
    rw [← hbranch]
    obtain ⟨before, after, hds⟩ := List.append_of_mem hd
    refine List.IsInfix.trans ?_ ih
    rw [hds, List.flatMap_append, List.flatMap_cons]
    exact List.infix_append' _ _ _

/-- **Branches report independently.** A run with a log declares what it declares with the empty one, and
adds to the log what it adds to the empty one, without the faults of initializers that the log has. So the
faults of a root have one fault of each initializer at most; and of everything else, each component that
resolution comes to has reported for its own chain what it reports on its own, which is what its branches
report, one after the other. -/
theorem branches_report_independently (registry : Registry) :
    (∀ (chain : Chain) (c : Component) (via : Option Property) (log : List Fault),
      component registry chain.room chain.frames c via log =
        ((component registry chain.room chain.frames c via []).1,
          log ++ (component registry chain.room chain.frames c via []).2.filter
            (!isRepeated log ·))) ∧
    ∀ (limit : Nat) (root : Component) (faults : List Fault),
      registry.resolve limit root = .error faults →
      (faults.Pairwise fun f g => f.initialized?.isSome → f.initialized? ≠ g.initialized?) ∧
      ∀ chain c via, registry.Visits limit root chain c via →
        others (component registry chain.room chain.frames c via []).2 <:+: others faults ∧
        ∀ next, chain.enter c via = .ok next →
          others (component registry chain.room chain.frames c via []).2 =
            c.dependencies.flatMap fun d => others (branchLog registry next c via d) := by
  refine ⟨component_eq_filter registry, ?_⟩
  intro limit root faults h
  obtain ⟨rfl, -⟩ := resolve_eq_error_iff.1 h
  refine ⟨?_, ?_⟩
  · rw [faults_eq_unreported]
    exact pairwise_unreported [] _
  · intro chain c via hvisits
    refine ⟨others_infix_of_visits hvisits, ?_⟩
    intro next henter
    exact others_component_eq_flatMap henter

end Registry

/-- A truck needs fuel from above, and nobody tells its initializer who drives. -/
def truck : Component :=
  ⟨.simple "Truck" [], [], false,
    some ⟨[⟨none, "fuel", .simple "Fuel" [], false⟩, ⟨none, "driver", .simple "Driver" [], false⟩],
      false, false, false, false, false⟩,
    [⟨⟨"fuel", .simple "Fuel" []⟩, .received⟩], .classType⟩

/-- The north bay has fuel and a truck. -/
def northBay : Component :=
  ⟨.simple "NorthBay" [], [], false, none,
    [⟨⟨"fuel", .simple "Fuel" []⟩, .instantiated none false⟩,
      ⟨⟨"truck", .simple "Truck" []⟩, .instantiated none false⟩], .classType⟩

/-- The south bay has a truck only. -/
def southBay : Component :=
  ⟨.simple "SouthBay" [], [], false, none,
    [⟨⟨"truck", .simple "Truck" []⟩, .instantiated none false⟩], .classType⟩

def fuelComponent : Component :=
  ⟨.simple "Fuel" [], [], false, none, [], .structType⟩

/-- A depot has both bays. -/
def depot : Component :=
  ⟨.simple "Depot" [], [], true, none,
    [⟨⟨"north", .simple "NorthBay" []⟩, .instantiated none false⟩,
      ⟨⟨"south", .simple "SouthBay" []⟩, .instantiated none false⟩], .classType⟩

/-- What is wrong with the initializer of trucks is reported once, for the north bay; that a truck gets no
fuel is reported for the south bay, though the truck of the north bay gets some. -/
theorem depot_branches_report :
    ∃ faults suggestions, Registry.resolve ⟨[depot, northBay, southBay, truck, fuelComponent]⟩ 8 depot =
        .error faults ∧
      (faults.Pairwise fun f g => f.initialized?.isSome → f.initialized? ≠ g.initialized?) ∧
      faults.length = 2 ∧
      others faults = [.unfulfillableReceived ⟨"fuel", .simple "Fuel" []⟩
        [.simple "Depot" [], .simple "SouthBay" [], .simple "Truck" []] suggestions] ∧
      others (component ⟨[depot, northBay, southBay, truck, fuelComponent]⟩ 8 [] depot none []).2 =
        depot.dependencies.flatMap fun d => others (branchLog
          ⟨[depot, northBay, southBay, truck, fuelComponent]⟩ ⟨[⟨depot, none⟩], 7⟩ depot none d) := by
  obtain ⟨suggestions, hresolve⟩ :
      ∃ suggestions, Registry.resolve ⟨[depot, northBay, southBay, truck, fuelComponent]⟩ 8 depot =
        .error [.initializer (.simple "Truck" []) (.unexpectedArgument "driver: Driver"),
          .unfulfillableReceived ⟨"fuel", .simple "Fuel" []⟩
            [.simple "Depot" [], .simple "SouthBay" [], .simple "Truck" []] suggestions] :=
    ⟨_, by with_unfolding_all rfl⟩
  have henter : (Chain.start 8).enter depot none = .ok ⟨[⟨depot, none⟩], 7⟩ := rfl
  obtain ⟨honce, hbranches⟩ :=
    (Registry.branches_report_independently _).2 8 depot _ hresolve
  exact ⟨_, suggestions, hresolve, honce, rfl, rfl,
    (hbranches (.start 8) depot none .root).2 _ henter⟩

end Wiring
