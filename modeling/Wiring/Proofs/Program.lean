import Wiring.Graph.Projection
import Wiring.Proofs.Emission.Rendering
import Wiring.Proofs.Emission.Scoping

/-!
# The file and the graph

The file and the graph are made from the emissions of all roots. Each root that is built has code, so the
two are there for the same registries; and if some roots are not built, both report what is wrong with
all of these.

* `collectFaults_of_ok`, `collectFaults_of_error`: what is collected from several results.
* `Registry.exists_file_iff`, `Registry.file_and_graph_agree`: the file and the graph of a registry.
-/

namespace Wiring

variable {registry : Registry} {limit : Nat} {root : Component} {g : RootEmission} {α β : Type}

/-- What is wrong, if there is no value. -/
def faultsOf : Except (List Fault) α → List Fault
  | .ok _ => []
  | .error faults => faults

/-! ## Collecting results -/

/-- All results are values, or one is not. -/
theorem ok_or_error (results : List (Except (List Fault) α)) :
    (∃ as : List α, results = as.map .ok) ∨ ∃ faults, .error faults ∈ results := by
  induction results with
  | nil => exact .inl ⟨[], rfl⟩
  | cons result results ih =>
    cases result with
    | error faults => exact .inr ⟨faults, List.mem_cons_self⟩
    | ok a =>
      rcases ih with ⟨as, rfl⟩ | ⟨faults, hfaults⟩
      · exact .inl ⟨a :: as, rfl⟩
      · exact .inr ⟨faults, List.mem_cons_of_mem _ hfaults⟩

theorem collectFaults_cons_of_ok {result : Except (List Fault) α}
    {results : List (Except (List Fault) α)} {as : List α} (h : collectFaults results = .ok as) :
    collectFaults (result :: results) = result.map (· :: as) := by
  unfold collectFaults
  rw [h]
  cases result <;> rfl

theorem collectFaults_cons_of_error {result : Except (List Fault) α}
    {results : List (Except (List Fault) α)} {faults : List Fault}
    (h : collectFaults results = .error faults) :
    collectFaults (result :: results) = .error (faultsOf result ++ faults) := by
  unfold collectFaults
  rw [h]
  cases result <;> rfl

/-- If all results are values, these are collected. -/
theorem collectFaults_of_ok (as : List α) : collectFaults (as.map .ok) = .ok as := by
  induction as with
  | nil => rfl
  | cons a as ih =>
    rw [List.map_cons, collectFaults_cons_of_ok ih]
    rfl

/-- **If some results are not values, the faults of all of these are collected**, in order. -/
theorem collectFaults_of_error {results : List (Except (List Fault) α)}
    (h : ∃ faults, .error faults ∈ results) :
    collectFaults results = .error (results.flatMap faultsOf) := by
  induction results with
  | nil =>
    obtain ⟨faults, h⟩ := h
    cases h
  | cons result results ih =>
    rcases ok_or_error results with ⟨as, rfl⟩ | hrest
    · -- only the first result is not a value
      obtain ⟨faults, hfaults⟩ := h
      obtain rfl : result = .error faults := by simpa [eq_comm] using hfaults
      rw [collectFaults_cons_of_ok (collectFaults_of_ok as)]
      simp [Except.map, faultsOf, List.flatMap_map]
    · rw [collectFaults_cons_of_error (ih hrest), List.flatMap_cons]

/-! ## Roots -/

namespace Registry

/-- A root that is not built has something wrong with it. -/
theorem ne_nil_of_build_eq_error {faults : List Fault} (h : registry.build limit root = .error faults) :
    faults ≠ [] := by
  rcases bind_eq_error_iff.1 h with h | ⟨scope, -, h⟩
  · exact (resolve_eq_error_iff.1 h).2
  · cases hemit : scope.emit with
    | ok g => rw [hemit] at h; cases h
    | error fault =>
      rw [hemit] at h
      cases h
      exact List.cons_ne_nil _ _

/-- **The code of a root that is built** is that of its emission. -/
theorem rootCode_of_build (h : registry.build limit root = .ok g) :
    ∃ code, g.code = .ok code ∧ registry.rootCode limit root = .ok code := by
  obtain ⟨code, hcode⟩ := exists_code_of_build h
  refine ⟨code, hcode, ?_⟩
  rw [rootCode, h]
  simp only [bind, Except.bind, hcode]
  rfl

/-- Asking for the code of a root goes wrong where the root is not built. -/
theorem faultsOf_rootCode (f : String → α) :
    faultsOf ((registry.rootCode limit root).map f) = faultsOf (registry.build limit root) := by
  cases hbuild : registry.build limit root with
  | ok g =>
    obtain ⟨code, -, hcode⟩ := rootCode_of_build hbuild
    rw [hcode]
    rfl
  | error faults =>
    rw [rootCode, hbuild]
    rfl

/-- If all roots are built, all of them have code. -/
theorem exists_codes_of_build {roots : List Component} :
    ∀ {gs : List RootEmission}, roots.map (registry.build limit) = gs.map .ok →
      ∃ codes : List (TypeExpr × String),
        (roots.map fun root => (registry.rootCode limit root).map (root.concreteType, ·)) =
          codes.map .ok ∧
        gs.map RootEmission.code = (codes.map (·.2)).map .ok := by
  induction roots with
  | nil =>
    intro gs h
    obtain rfl := List.map_eq_nil_iff.1 h.symm
    exact ⟨[], rfl, rfl⟩
  | cons root roots ih =>
    intro gs h
    obtain ⟨g, rest, rfl, hg, hrest⟩ := List.map_eq_cons_iff.1 h.symm
    obtain ⟨code, hcode, hroot⟩ := rootCode_of_build hg.symm
    obtain ⟨codes, hcodes, htexts⟩ := ih hrest.symm
    refine ⟨(root.concreteType, code) :: codes, ?_, ?_⟩
    · rw [List.map_cons, List.map_cons, hcodes, hroot]
      rfl
    · rw [List.map_cons, htexts, hcode]
      rfl

/-- What is wrong with the roots that are not built, in the order of the roots. -/
def rootFaults (registry : Registry) (limit : Nat) : List Fault :=
  registry.roots.flatMap fun root => faultsOf (registry.build limit root)

/-- If a root is not built, neither the file nor the graph is there. -/
theorem file_and_graph_of_error (imports : List String)
    (h : ∃ faults, .error faults ∈ registry.roots.map (registry.build limit)) :
    registry.rootFaults limit ≠ [] ∧
      registry.file imports limit = .error (registry.rootFaults limit) ∧
      registry.graph limit = .error (registry.rootFaults limit) := by
  obtain ⟨faults, hfaults⟩ := h
  obtain ⟨root, hroot, hbuild⟩ := List.mem_map.1 hfaults
  have hcode : faultsOf ((registry.rootCode limit root).map (root.concreteType, ·)) = faults := by
    rw [faultsOf_rootCode, hbuild]
    rfl
  refine ⟨?_, ?_, ?_⟩
  · intro hnone
    have hown := List.flatMap_eq_nil_iff.1 hnone root hroot
    rw [hbuild] at hown
    exact ne_nil_of_build_eq_error hbuild hown
  · have hcodes : registry.rootCodes limit = .error (registry.rootFaults limit) := by
      unfold rootCodes
      rw [collectFaults_of_error, List.flatMap_map]
      · simp only [faultsOf_rootCode]
        rfl
      · cases hresult : (registry.rootCode limit root).map (root.concreteType, ·) with
        | ok pair =>
          rw [hresult] at hcode
          exact absurd hcode.symm (ne_nil_of_build_eq_error hbuild)
        | error faults => exact ⟨faults, List.mem_map.2 ⟨root, hroot, hresult⟩⟩
    rw [file, hcodes]
    rfl
  · rw [graph, buildRoots, collectFaults_of_error ⟨faults, hfaults⟩, List.flatMap_map]
    rfl

/-- There is a file exactly if there is a graph. -/
theorem exists_file_iff (imports : List String) :
    (∃ text, registry.file imports limit = .ok text) ↔ ∃ graph, registry.graph limit = .ok graph := by
  rcases ok_or_error (registry.roots.map (registry.build limit)) with ⟨gs, hgs⟩ | hfails
  · obtain ⟨codes, hcodes, -⟩ := exists_codes_of_build hgs
    rw [file, rootCodes, hcodes, collectFaults_of_ok, graph, buildRoots, hgs, collectFaults_of_ok]
    exact ⟨fun _ => ⟨_, rfl⟩, fun _ => ⟨_, rfl⟩⟩
  · obtain ⟨-, hfile, hgraph⟩ := file_and_graph_of_error imports hfails
    rw [hfile, hgraph]
    constructor
    · rintro ⟨text, ⟨⟩⟩
    · rintro ⟨graph, ⟨⟩⟩

/-- **The file and the graph are there for the same registries.** A root that is built has code. If all
roots are built, the file holds the code of all of them and the graph draws all of them; and if some are
not, both report what is wrong with each of these, in the order of the roots, and there is nothing else. -/
theorem file_and_graph_agree (registry : Registry) (imports : List String) (limit : Nat) :
    (∀ root g, registry.build limit root = .ok g → ∃ code, g.code = .ok code) ∧
    ((∃ gs codes, registry.roots.map (registry.build limit) = gs.map .ok ∧
        gs.map RootEmission.code = codes.map .ok ∧
        registry.file imports limit = .ok (fileText imports codes) ∧
        registry.graph limit = .ok (Graph.ofRoots gs)) ∨
      ((∃ root ∈ registry.roots, ∃ faults, registry.build limit root = .error faults) ∧
        registry.rootFaults limit ≠ [] ∧
        registry.file imports limit = .error (registry.rootFaults limit) ∧
        registry.graph limit = .error (registry.rootFaults limit))) := by
  refine ⟨fun root g h => exists_code_of_build h, ?_⟩
  rcases ok_or_error (registry.roots.map (registry.build limit)) with ⟨gs, hgs⟩ | hfails
  · obtain ⟨codes, hcodes, htexts⟩ := exists_codes_of_build hgs
    refine .inl ⟨gs, codes.map (·.2), hgs, htexts, ?_, ?_⟩
    · rw [file, rootCodes, hcodes, collectFaults_of_ok]
      rfl
    · rw [graph, buildRoots, hgs, collectFaults_of_ok]
      rfl
  · refine .inr ⟨?_, file_and_graph_of_error imports hfails⟩
    obtain ⟨faults, hfaults⟩ := hfails
    obtain ⟨root, hroot, hbuild⟩ := List.mem_map.1 hfaults
    exact ⟨root, hroot, faults, hbuild⟩

/-- A kiosk that is a root, but gets its ledger from somewhere else. -/
def kiosk : Component :=
  ⟨.simple "Kiosk" [], [], true, none, [⟨⟨"ledger", .simple "Ledger" []⟩, .received⟩], .classType⟩

/-- The shop has code. Next to the kiosk it still has, but neither the file nor the graph is there, and
both report what is wrong with the kiosk. -/
theorem shop_and_kiosk_not_generated :
    Registry.build ⟨[shop, ledger, counter, till, kiosk]⟩ 256 shop = .ok shopEmission ∧
      (∃ code, shopEmission.code = .ok code) ∧
      Registry.file ⟨[shop, ledger, counter, till, kiosk]⟩ ["Tills"] 256 =
        .error [.unfulfillableReceived ⟨"ledger", .simple "Ledger" []⟩ [.simple "Kiosk" []] []] ∧
      Registry.graph ⟨[shop, ledger, counter, till, kiosk]⟩ 256 =
        .error [.unfulfillableReceived ⟨"ledger", .simple "Ledger" []⟩ [.simple "Kiosk" []] []] := by
  obtain ⟨hcode, hagree⟩ :=
    file_and_graph_agree ⟨[shop, ledger, counter, till, kiosk]⟩ ["Tills"] 256
  have hshop : Registry.build ⟨[shop, ledger, counter, till, kiosk]⟩ 256 shop = .ok shopEmission := by
    with_unfolding_all rfl
  have hfaults : rootFaults ⟨[shop, ledger, counter, till, kiosk]⟩ 256 =
      [.unfulfillableReceived ⟨"ledger", .simple "Ledger" []⟩ [.simple "Kiosk" []] []] := by
    with_unfolding_all rfl
  rw [hfaults] at hagree
  rcases hagree with ⟨gs, codes, hgs, -⟩ | ⟨-, -, hfile, hgraph⟩
  · -- the kiosk is not built
    have hnone : rootFaults ⟨[shop, ledger, counter, till, kiosk]⟩ 256 = [] := by
      rw [rootFaults, ← List.flatMap_map, hgs, List.flatMap_map]
      simp [faultsOf]
    rw [hfaults] at hnone
    cases hnone
  · exact ⟨hshop, hcode shop shopEmission hshop, hfile, hgraph⟩

end Registry

end Wiring
