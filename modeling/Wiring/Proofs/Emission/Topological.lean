import Mathlib.Tactic.IntervalCases
import Wiring.Proofs.Emission.Acyclic

/-!
# Arranging a body sorts it topologically

The places of a body require each other: what a declaration needs is required of the first place that
declares it. A body is arranged along an order of its places in which each comes once and after those that
it requires, if there is one; a body that is in such an order already stays as it is; and if there is none,
a cycle of places is reported by the properties declared there.

* `Requires`, `mem_requires_iff_requires`: which places require each other.
* `Visit.order_eq_range`: an order that is there already is kept.
* `IsArrangement`, `IsCycleReport`: what is answered.
* `arrange_sorts_topologically`: when it is answered.
-/

namespace Wiring

/-! ## Visits -/

namespace Visit

variable {requires : Nat → List Nat} {n : Nat}

/-- What was visited before is not visited again. -/
theorem foldlM_visit_of_subset {room : Nat} {path finished : List Nat} :
    ∀ {targets : List Nat}, targets ⊆ finished →
      targets.foldlM (visit requires room path) finished = .ok finished
  | [], _ => rfl
  | i :: targets, h => by
    obtain ⟨hi, htargets⟩ := List.cons_subset.1 h
    have hvisit : visit requires room path finished i = .ok finished := by
      cases room <;> simp [visit, hi]
    rw [List.foldlM_cons, hvisit]
    exact foldlM_visit_of_subset htargets

/-- **If every vertex comes after those that it requires, the order is kept.** -/
theorem order_eq_range (h : ∀ i < n, ∀ j ∈ requires i, j < i) :
    order requires n = .ok (List.range n) := by
  -- after `m` vertices exactly these are finished
  have hfirst : ∀ m, m ≤ n → (List.range m).foldlM (visit requires n []) [] = .ok (List.range m) := by
    intro m
    induction m with
    | zero => intro _; rfl
    | succ m ih =>
      intro hm
      obtain ⟨room, rfl⟩ : ∃ room, n = room + 1 := ⟨n - 1, by omega⟩
      have hrequired : requires m ⊆ List.range m := by
        intro j hj
        exact List.mem_range.2 (h m (by omega) j hj)
      have hvisit : visit requires (room + 1) [] (List.range m) m = .ok (List.range m ++ [m]) := by
        simp only [visit, List.mem_range, Nat.lt_irrefl, if_false, List.not_mem_nil]
        rw [foldlM_visit_of_subset hrequired]
        rfl
      rw [List.range_succ, List.foldlM_append, ih (by omega)]
      change (List.foldlM (visit requires (room + 1) []) (List.range m) [m]) = _
      rw [List.foldlM_cons, hvisit]
      rfl
  exact hfirst n le_rfl

/-- In an order a vertex stands after those that it requires. -/
theorem Ordered.idxOf_lt {finished : List Nat} (h : Ordered requires finished) {i j : Nat}
    (hi : i ∈ finished) (hj : j ∈ requires i) : finished.idxOf j < finished.idxOf i := by
  obtain ⟨before, after, rfl⟩ := List.append_of_mem hi
  have hbefore : j ∈ before := h.closed before i after rfl j hj
  have hnew : i ∉ before := by
    intro hmem
    exact (List.nodup_append.1 h.nodup).2.2 i hmem i List.mem_cons_self rfl
  have hfirst : (before ++ i :: after).idxOf j < before.length := by
    rw [List.idxOf_append_of_mem hbefore]
    exact List.idxOf_lt_length_of_mem hbefore
  have hlast : (before ++ i :: after).idxOf i = before.length := by
    rw [List.idxOf_append_of_notMem hnew, List.idxOf_cons_self, Nat.add_zero]
  omega

/-- All but the first vertex of a path are required. -/
theorem exists_requiring_of_isChain {R : Nat → Nat → Prop} :
    ∀ {i : Nat} {path : List Nat}, (i :: path).IsChain R → ∀ j ∈ path, ∃ k, R k j
  | _, [], _, _, hj => by cases hj
  | i, next :: path, h, j, hj => by
    obtain ⟨hfirst, hrest⟩ := List.isChain_cons_cons.1 h
    rcases List.mem_cons.1 hj with rfl | hj
    · exact ⟨i, hfirst⟩
    · exact exists_requiring_of_isChain hrest j hj

end Visit

namespace Emission

variable {c : Component} {body arranged : List Emission} {p : Property} {i j : Nat}

/-! ## Places of a body -/

/-- The property that is declared at a place. -/
def declaredAt (body : List Emission) (i : Nat) : Option Property :=
  body[i]?.map property

/-- The first place of a body that declares a property. -/
def IsFirstOf (body : List Emission) (p : Property) (j : Nat) : Prop :=
  (∃ e, body[j]? = some e ∧ e.property = p) ∧
    ∀ k e, k < j → body[k]? = some e → e.property ≠ p

/-- **The declaration at `i` requires the one at `j`**: it needs a property, and that is declared at `j`
first. -/
def Requires (body : List Emission) (i j : Nat) : Prop :=
  ∃ e, body[i]? = some e ∧ ∃ p ∈ e.required, IsFirstOf body p j

theorem indexOf?_eq_some_iff : indexOf? body p = some j ↔ IsFirstOf body p j := by
  unfold indexOf? IsFirstOf
  rw [List.findIdx?_eq_some_iff_getElem]
  constructor
  · rintro ⟨hj, hp, hfirst⟩
    refine ⟨⟨body[j], List.getElem?_eq_getElem hj, by simpa using hp⟩, ?_⟩
    intro k e hk he
    obtain ⟨_, rfl⟩ := List.getElem?_eq_some_iff.1 he
    simpa using hfirst k hk
  · rintro ⟨⟨e, he, hp⟩, hfirst⟩
    obtain ⟨hj, rfl⟩ := List.getElem?_eq_some_iff.1 he
    refine ⟨hj, by simpa using hp, ?_⟩
    intro k hk
    have hne := hfirst k body[k] hk (List.getElem?_eq_getElem (hk.trans hj))
    simpa using hne

theorem mem_requires_iff_requires : j ∈ requires body i ↔ Requires body i j := by
  unfold requires Requires
  simp only [List.mem_filterMap, indexOf?_eq_some_iff]
  cases body[i]? with
  | none => simp
  | some e => simp

theorem Requires.lt_length (h : Requires body i j) : i < body.length := by
  obtain ⟨e, he, -⟩ := h
  exact (List.getElem?_eq_some_iff.1 he).1

/-- Required places are told apart by what they declare. -/
theorem eq_of_requires {i' j' : Nat} (h : Requires body i j) (h' : Requires body i' j')
    (hproperty : declaredAt body j = declaredAt body j') : j = j' := by
  obtain ⟨-, -, p, -, hp⟩ := h
  obtain ⟨-, -, p', -, hp'⟩ := h'
  obtain ⟨e, he, rfl⟩ := hp.1
  obtain ⟨e', he', rfl⟩ := hp'.1
  unfold declaredAt at hproperty
  rw [he, he'] at hproperty
  have hindex := indexOf?_eq_some_iff.2 hp
  rw [Option.some.inj hproperty, indexOf?_eq_some_iff.2 hp'] at hindex
  exact (Option.some.inj hindex).symm

/-- What is picked where there is always something to be picked. -/
theorem map_some_filterMap {α β : Type} {f : α → Option β} {xs : List α}
    (h : ∀ x ∈ xs, (f x).isSome) : (xs.filterMap f).map some = xs.map f := by
  rw [List.map_filterMap_some_eq_filter_map_isSome, List.filter_eq_self]
  exact List.forall_mem_map.2 h

/-! ## What is answered -/

/-- **A body is arranged along an order of its places**: each place comes once, and after all those that it
requires. -/
structure IsArrangement (body : List Emission) (order : List Nat) (arranged : List Emission) : Prop where
  places : order.Perm (List.range body.length)
  declarations : arranged.map some = order.map fun i => body[i]?
  served : ∀ i j, Requires body i j → order.idxOf j < order.idxOf i

/-- **A cycle of places is reported by what they declare**: each place requires the next, the last one is
the first again, and no other comes twice, nor does what they declare. -/
structure IsCycleReport (body : List Emission) (cycle : List Nat) (properties : List Property) :
    Prop where
  closed : ∃ i inner, cycle = i :: (inner ++ [i]) ∧ (i :: inner).Nodup
  steps : cycle.IsChain (Requires body)
  declared : properties.map some = cycle.map (declaredAt body)
  distinct : ∃ p others, properties = p :: (others ++ [p]) ∧ (p :: others).Nodup

theorem exists_isArrangement (h : arrange c body = .ok arranged) :
    ∃ order, IsArrangement body order arranged := by
  obtain ⟨order, hperm, hordered, rfl⟩ := exists_order_of_arrange h
  have hplaces : ∀ i ∈ order, (body[i]?).isSome := by
    intro i hi
    simpa using List.mem_range.1 (hperm.mem_iff.1 hi)
  refine ⟨order, hperm, map_some_filterMap hplaces, ?_⟩
  intro i j hrequires
  have hi : i ∈ order := hperm.mem_iff.2 (List.mem_range.2 hrequires.lt_length)
  exact hordered.idxOf_lt hi (mem_requires_iff_requires.2 hrequires)

/-- A cycle of places is reported by as many properties, of which only the first comes again. -/
theorem isCycleReport_of_isCycle {cycle : List Nat} (h : Visit.IsCycle (requires body) cycle) :
    IsCycleReport body cycle (cycle.filterMap (declaredAt body)) := by
  obtain ⟨i, inner, rfl, hnodup, hchain⟩ := h
  simp only [mem_requires_iff_requires] at hchain
  -- every place of the cycle is required by the one before it, the first by the last but one
  have hrequired : ∀ j ∈ i :: (inner ++ [i]), ∃ k, Requires body k j := by
    intro j hj
    exact Visit.exists_requiring_of_isChain hchain j (by simpa [or_comm] using hj)
  have hsome : ∀ j ∈ i :: (inner ++ [i]), (declaredAt body j).isSome := by
    intro j hj
    obtain ⟨k, hk⟩ := hrequired j hj
    simpa [declaredAt] using lt_of_mem_requires (mem_requires_iff_requires.2 hk)
  have hsub : i :: inner ⊆ i :: (inner ++ [i]) := by simp
  obtain ⟨p, hp⟩ := Option.isSome_iff_exists.1 (hsome i List.mem_cons_self)
  refine ⟨⟨i, inner, rfl, hnodup⟩, hchain, map_some_filterMap hsome, p,
    inner.filterMap (declaredAt body), ?_, ?_⟩
  · rw [List.filterMap_cons_some hp, List.filterMap_append, List.filterMap_cons_some hp]
    rfl
  · have hproperties : ((i :: inner).map (declaredAt body)).Nodup := by
      apply hnodup.map_on
      intro j hj j' hj' hproperty
      obtain ⟨k, hk⟩ := hrequired j (hsub hj)
      obtain ⟨k', hk'⟩ := hrequired j' (hsub hj')
      exact eq_of_requires hk hk' hproperty
    rw [← map_some_filterMap fun j hj => hsome j (hsub hj), List.filterMap_cons_some hp]
      at hproperties
    exact hproperties.of_map

/-- **Arranging a body sorts it topologically.**

* A body is arranged exactly if no place requires itself, however indirectly.
* What comes out then holds each declaration once, after all that are required of it.
* A body in which each declaration comes after those that it requires stays as it is.
* What is reported otherwise is a cycle of properties of the component. -/
theorem arrange_sorts_topologically (c : Component) (body : List Emission) :
    ((∃ arranged, arrange c body = .ok arranged) ↔
      ∀ i, ¬ Relation.TransGen (Requires body) i i) ∧
    (∀ arranged, arrange c body = .ok arranged → ∃ order, IsArrangement body order arranged) ∧
    ((∀ i j, Requires body i j → j < i) → arrange c body = .ok body) ∧
    ∀ fault, arrange c body = .error fault →
      ∃ cycle properties, fault = .propertyCycle c.concreteType properties ∧
        IsCycleReport body cycle properties := by
  have hbounded : ∀ i, ∀ j ∈ requires body i, j < body.length := fun _ _ => lt_of_mem_requires
  refine ⟨?_, fun arranged h => exists_isArrangement h, ?_, ?_⟩
  · rw [exists_arrange_iff, Visit.order_eq_ok_iff hbounded]
    simp only [mem_requires_iff_requires]
  · intro hdeclared
    have horder : Visit.order (requires body) body.length = .ok (List.range body.length) :=
      Visit.order_eq_range fun i _ j hj => hdeclared i j (mem_requires_iff_requires.1 hj)
    unfold arrange
    rw [horder]
    simp only [filterMap_range]
  · intro fault h
    unfold arrange at h
    cases horder : Visit.order (requires body) body.length with
    | ok order => rw [horder] at h; cases h
    | error cycle =>
      rw [horder] at h
      cases h
      exact ⟨cycle, _, rfl, isCycleReport_of_isCycle (Visit.isCycle_of_order hbounded horder)⟩

end Emission

/-- A pointer of a clock. -/
def pointer (label : String) : Property :=
  ⟨label, .simple "Pointer" []⟩

/-- A pointer that is moved by another one. -/
def geared (label driver : String) : Emission :=
  .renamed (pointer label) (pointer driver) false

/-- A pointer that nothing else moves. -/
def sprung (label : String) : Emission :=
  .built (pointer label)
    ⟨.simple "Pointer" [], [], false, none, [], .structType⟩ false none []

/-- A clock. -/
def clock : Component :=
  ⟨.simple "Clock" [], [], true, none, [], .classType⟩

/-- The pointers of a clock come to stand each after the one that drives it, and are left so if they stand
so already. Two that drive each other are reported. -/
theorem clock_sorted :
    (∃ order, Emission.IsArrangement
      [geared "hours" "minutes", geared "minutes" "seconds", sprung "seconds"] order
      [sprung "seconds", geared "minutes" "seconds", geared "hours" "minutes"]) ∧
    Emission.arrange clock [sprung "seconds", geared "minutes" "seconds", geared "hours" "minutes"] =
      .ok [sprung "seconds", geared "minutes" "seconds", geared "hours" "minutes"] ∧
    ∃ cycle, Emission.IsCycleReport
      [geared "hours" "minutes", sprung "seconds", geared "minutes" "hours"] cycle
      [pointer "hours", pointer "minutes", pointer "hours"] := by
  obtain ⟨-, harranged, -, -⟩ := Emission.arrange_sorts_topologically clock
    [geared "hours" "minutes", geared "minutes" "seconds", sprung "seconds"]
  obtain ⟨-, -, hkept, -⟩ := Emission.arrange_sorts_topologically clock
    [sprung "seconds", geared "minutes" "seconds", geared "hours" "minutes"]
  obtain ⟨-, -, -, hreported⟩ := Emission.arrange_sorts_topologically clock
    [geared "hours" "minutes", sprung "seconds", geared "minutes" "hours"]
  refine ⟨harranged _ (by with_unfolding_all rfl), ?_, ?_⟩
  · apply hkept
    have hplaces : (List.range 3).map (Emission.requires
        [sprung "seconds", geared "minutes" "seconds", geared "hours" "minutes"]) =
          [[], [0], [1]] := by with_unfolding_all rfl
    simp only [List.range, List.range.loop, List.map_cons, List.map_nil, List.cons.injEq] at hplaces
    obtain ⟨hfirst, hsecond, hthird, -⟩ := hplaces
    intro i j hrequires
    have hi : i < 3 := hrequires.lt_length
    have hj := Emission.mem_requires_iff_requires.2 hrequires
    interval_cases i
    · simp [hfirst] at hj
    · simp [hsecond] at hj
      omega
    · simp [hthird] at hj
      omega
  · have herror : Emission.arrange clock
        [geared "hours" "minutes", sprung "seconds", geared "minutes" "hours"] =
          .error (.propertyCycle (.simple "Clock" [])
            [pointer "hours", pointer "minutes", pointer "hours"]) := by with_unfolding_all rfl
    obtain ⟨cycle, properties, hfault, hreport⟩ := hreported _ herror
    cases hfault
    exact ⟨cycle, hreport⟩

end Wiring
