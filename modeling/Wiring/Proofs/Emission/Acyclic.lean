import Mathlib.Data.List.Chain
import Mathlib.Data.List.Perm.Subperm
import Mathlib.Logic.Relation
import Wiring.Proofs.Emission.Order

/-!
# What can be arranged

Declarations can be arranged exactly if no declaration needs itself, however indirectly. What is reported
otherwise is such a cycle, since a visit only fails at a vertex of the path that leads to it.

* `Visit.isCycle_of_order`: what is reported is a cycle.
* `Visit.order_eq_ok_iff`: when there is an order of vertices.
* `Emission.arrange_eq_ok_iff`: when there is an order of declarations, in terms of their properties.
-/

namespace Wiring

namespace Visit

variable {requires : Nat → List Nat} {n : Nat}

/-- **A cycle of requirements**: each vertex requires the next one, the last is the first again, and the
others are distinct. -/
def IsCycle (requires : Nat → List Nat) (cycle : List Nat) : Prop :=
  ∃ i inner, cycle = i :: (inner ++ [i]) ∧ (i :: inner).Nodup ∧
    cycle.IsChain fun i j => j ∈ requires i

/-- A vertex of the path that is required at its end closes a cycle. -/
theorem isCycle_cycleThrough {path : List Nat} {i : Nat}
    (hchain : (i :: path).IsChain fun i j => i ∈ requires j) (hnodup : path.Nodup) (hi : i ∈ path) :
    IsCycle requires (cycleThrough path i) := by
  obtain ⟨newer, older, rfl⟩ := List.append_of_mem hi
  have hnewer : i ∉ newer := by
    intro hmem
    exact (List.nodup_append.1 hnodup).2.2 i hmem i List.mem_cons_self rfl
  have htake : (newer ++ i :: older).takeWhile (· ≠ i) = newer := by
    rw [List.takeWhile_append_of_pos fun j hj => by
      rw [decide_eq_true_eq]
      exact fun hji => hnewer (hji ▸ hj)]
    simp
  refine ⟨i, newer.reverse, by rw [cycleThrough, htake], ?_, ?_⟩
  · rw [List.nodup_cons, List.mem_reverse, List.nodup_reverse]
    exact ⟨hnewer, (List.nodup_append.1 hnodup).1⟩
  · have hreverse : cycleThrough (newer ++ i :: older) i = (i :: (newer ++ [i])).reverse := by
      rw [cycleThrough, htake]
      simp
    rw [hreverse, List.isChain_reverse]
    have hsplit : i :: (newer ++ i :: older) = i :: (newer ++ [i]) ++ older := by simp
    rw [hsplit] at hchain
    exact (List.isChain_append.1 hchain).1

theorem exists_error_of_foldlM {step : List Nat → Nat → Except (List Nat) (List Nat)}
    {cycle : List Nat} :
    ∀ {targets finished : List Nat}, targets.foldlM step finished = .error cycle →
      ∃ i ∈ targets, ∃ before, step before i = .error cycle
  | [], _, h => by cases h
  | i :: targets, finished, h => by
    rw [List.foldlM_cons] at h
    cases hfirst : step finished i with
    | error cycle' =>
      rw [hfirst] at h
      cases h
      exact ⟨i, List.mem_cons_self, finished, hfirst⟩
    | ok middle =>
      rw [hfirst] at h
      obtain ⟨j, hj, hbefore⟩ := exists_error_of_foldlM h
      exact ⟨j, List.mem_cons_of_mem _ hj, hbefore⟩

/-- **A visit that fails has found a cycle.** -/
theorem isCycle_of_visit (hrequires : ∀ i, ∀ j ∈ requires i, j < n) {cycle : List Nat} :
    ∀ {room : Nat} {path finished : List Nat} {i : Nat}, i < n →
      (i :: path).IsChain (fun i j => i ∈ requires j) → path.Nodup → (∀ j ∈ path, j < n) →
      n ≤ room + path.length → visit requires room path finished i = .error cycle →
      IsCycle requires cycle := by
  intro room
  induction room with
  | zero =>
    intro path finished i hi hchain hnodup hbounded hroom h
    -- all vertices are on the path
    have hperm : path.Perm (List.range n) := by
      have hsub : path.Subperm (List.range n) :=
        List.subperm_of_subset hnodup fun j hj => List.mem_range.2 (hbounded j hj)
      exact hsub.perm_of_length_le (by rw [List.length_range]; omega)
    simp only [visit] at h
    split at h
    · cases h
    · cases h
      exact isCycle_cycleThrough hchain hnodup (hperm.mem_iff.2 (List.mem_range.2 hi))
  | succ room ih =>
    intro path finished i hi hchain hnodup hbounded hroom h
    simp only [visit] at h
    split at h
    · cases h
    split at h
    · rename_i hpath
      cases h
      exact isCycle_cycleThrough hchain hnodup hpath
    rename_i hpath
    cases hfold : (requires i).foldlM (visit requires room (i :: path)) finished with
    | ok middle => rw [hfold] at h; cases h
    | error cycle' =>
      rw [hfold] at h
      cases h
      obtain ⟨j, hj, before, hbefore⟩ := exists_error_of_foldlM hfold
      refine ih (hrequires i j hj) (List.isChain_cons_cons.2 ⟨hj, hchain⟩)
        (List.nodup_cons.2 ⟨hpath, hnodup⟩) (List.forall_mem_cons.2 ⟨hi, hbounded⟩) ?_ hbefore
      rw [List.length_cons]
      omega

/-- **What is reported is a cycle.** -/
theorem isCycle_of_order (hrequires : ∀ i, ∀ j ∈ requires i, j < n) {cycle : List Nat}
    (h : order requires n = .error cycle) : IsCycle requires cycle := by
  obtain ⟨i, hi, before, hbefore⟩ := exists_error_of_foldlM h
  exact isCycle_of_visit hrequires (List.mem_range.1 hi) (.singleton i) List.nodup_nil (by simp)
    (by simp) hbefore

theorem transGen_of_isChain {α : Type} {R : α → α → Prop} {b : α} :
    ∀ {a : α} {inner : List α}, (a :: (inner ++ [b])).IsChain R → Relation.TransGen R a b
  | a, [], h => .single (List.isChain_cons_cons.1 h).1
  | a, c :: inner, h => by
    obtain ⟨hac, hrest⟩ := List.isChain_cons_cons.1 h
    exact .head hac (transGen_of_isChain hrest)

/-- A path is followed step by step where what stands for a vertex is determined by it. -/
theorem exists_transGen {α β : Type} {R : α → α → Prop} {S : β → β → Prop} {For : α → β → Prop}
    (hone : ∀ a x y, For a x → For a y → x = y)
    (hstep : ∀ a b, R a b → ∃ x y, For a x ∧ For b y ∧ S x y) {a b : α}
    (hpath : Relation.TransGen R a b) : ∃ x y, For a x ∧ For b y ∧ Relation.TransGen S x y := by
  induction hpath with
  | single hab =>
    obtain ⟨x, y, hx, hy, hxy⟩ := hstep _ _ hab
    exact ⟨x, y, hx, hy, .single hxy⟩
  | tail _ hbc ih =>
    obtain ⟨x, y, hx, hy, hpath⟩ := ih
    obtain ⟨y', z, hy', hz, hyz⟩ := hstep _ _ hbc
    obtain rfl := hone _ y y' hy hy'
    exact ⟨x, z, hx, hz, hpath.tail hyz⟩

/-- In an order everything that a vertex requires, however indirectly, comes before it. -/
theorem Ordered.mem_before {finished : List Nat} (h : Ordered requires finished) {i j : Nat}
    {before after : List Nat} (hsplit : finished = before ++ i :: after)
    (hpath : Relation.TransGen (fun i j => j ∈ requires i) i j) : j ∈ before := by
  induction hpath with
  | single hj => exact h.closed before i after hsplit _ hj
  | tail _ hj ih =>
    obtain ⟨first, rest, rfl⟩ := List.append_of_mem ih
    have hmem := h.closed first _ (rest ++ i :: after) (by rw [hsplit]; simp) _ hj
    exact List.mem_append_left _ hmem

/-- **There is an order exactly if no vertex requires itself**, however indirectly. -/
theorem order_eq_ok_iff (hrequires : ∀ i, ∀ j ∈ requires i, j < n) :
    (∃ xs, order requires n = .ok xs) ↔
      ∀ i, ¬ Relation.TransGen (fun i j => j ∈ requires i) i i := by
  constructor
  · rintro ⟨xs, h⟩ i hcycle
    obtain ⟨hperm, hordered⟩ := ordered_of_order hrequires h
    have hi : i < n := by
      obtain ⟨k, -, hk⟩ := Relation.TransGen.tail'_iff.1 hcycle
      exact hrequires k i hk
    obtain ⟨before, after, hsplit⟩ := List.append_of_mem (hperm.mem_iff.2 (List.mem_range.2 hi))
    have hbefore := hordered.mem_before hsplit hcycle
    have hnodup := hordered.nodup
    rw [hsplit] at hnodup
    exact (List.nodup_append.1 hnodup).2.2 i hbefore i List.mem_cons_self rfl
  · intro hacyclic
    cases h : order requires n with
    | ok xs => exact ⟨xs, rfl⟩
    | error cycle =>
      obtain ⟨i, inner, rfl, -, hchain⟩ := isCycle_of_order hrequires h
      exact absurd (transGen_of_isChain hchain) (hacyclic i)

end Visit

namespace Emission

variable {c : Component} {body : List Emission}

/-- **The declaration of one property needs another property** of the same body. -/
def NeedsIn (body : List Emission) (p q : Property) : Prop :=
  (∃ e ∈ body, e.property = p ∧ q ∈ e.required) ∧ ∃ e ∈ body, e.property = q

/-- Where no property is declared twice, the place of a declaration is that of its property. -/
theorem indexOf?_of_getElem? (hnodup : (body.map property).Nodup) {i : Nat} {e : Emission}
    (h : body[i]? = some e) : indexOf? body e.property = some i := by
  obtain ⟨hi, he⟩ := List.getElem?_eq_some_iff.1 h
  refine List.findIdx?_eq_some_iff_getElem.2 ⟨hi, by simp [he], fun j hj => ?_⟩
  rw [decide_eq_true_eq]
  intro hproperty
  have hne := List.nodup_iff_getElem?_ne_getElem?.1 hnodup j i hj (by simpa using hi)
  rw [List.getElem?_map, List.getElem?_map, h, List.getElem?_eq_getElem (hj.trans hi)] at hne
  exact hne (congrArg some hproperty)

theorem mem_requires_iff (hnodup : (body.map property).Nodup) {i j : Nat} :
    j ∈ requires body i ↔ ∃ e e', body[i]? = some e ∧ body[j]? = some e' ∧
      e'.property ∈ e.required := by
  constructor
  · intro hj
    obtain ⟨p, hp, hindex⟩ := List.mem_filterMap.1 hj
    obtain ⟨e', he', rfl⟩ := exists_of_indexOf? hindex
    cases hi : body[i]? with
    | none => rw [hi] at hp; cases hp
    | some e =>
      rw [hi] at hp
      exact ⟨e, e', rfl, he', hp⟩
  · rintro ⟨e, e', he, he', hrequired⟩
    refine List.mem_filterMap.2 ⟨e'.property, ?_, indexOf?_of_getElem? hnodup he'⟩
    rwa [he]

/-- A requirement between two places is one between two properties. -/
theorem needsIn_of_mem_requires (hnodup : (body.map property).Nodup) {i j : Nat}
    (h : j ∈ requires body i) :
    ∃ p q, indexOf? body p = some i ∧ indexOf? body q = some j ∧ NeedsIn body p q := by
  obtain ⟨e, e', he, he', hrequired⟩ := (mem_requires_iff hnodup).1 h
  exact ⟨e.property, e'.property, indexOf?_of_getElem? hnodup he, indexOf?_of_getElem? hnodup he',
    ⟨e, List.mem_of_getElem? he, rfl, hrequired⟩, e', List.mem_of_getElem? he', rfl⟩

theorem mem_requires_of_needsIn (hnodup : (body.map property).Nodup) {p q : Property}
    (h : NeedsIn body p q) :
    ∃ i j, indexOf? body p = some i ∧ indexOf? body q = some j ∧ j ∈ requires body i := by
  obtain ⟨⟨e, he, rfl, hrequired⟩, e', he', rfl⟩ := h
  obtain ⟨i, hi⟩ := List.mem_iff_getElem?.1 he
  obtain ⟨j, hj⟩ := List.mem_iff_getElem?.1 he'
  exact ⟨i, j, indexOf?_of_getElem? hnodup hi, indexOf?_of_getElem? hnodup hj,
    (mem_requires_iff hnodup).2 ⟨e, e', hi, hj, hrequired⟩⟩

theorem eq_of_indexOf? {p q : Property} {i : Nat} (hp : indexOf? body p = some i)
    (hq : indexOf? body q = some i) : p = q := by
  obtain ⟨e, he, rfl⟩ := exists_of_indexOf? hp
  obtain ⟨e', he', rfl⟩ := exists_of_indexOf? hq
  rw [he] at he'
  rw [Option.some.inj he']

/-- A body is arranged if there is an order of its places. -/
theorem exists_arrange_iff :
    (∃ arranged, arrange c body = .ok arranged) ↔
      ∃ xs, Visit.order (requires body) body.length = .ok xs := by
  unfold arrange
  cases Visit.order (requires body) body.length <;> simp

/-- **Declarations can be arranged exactly if no property needs itself**, however indirectly. -/
theorem arrange_eq_ok_iff (hnodup : (body.map property).Nodup) :
    (∃ arranged, arrange c body = .ok arranged) ↔
      ∀ p, ¬ Relation.TransGen (NeedsIn body) p p := by
  have hone : ∀ p i j, indexOf? body p = some i → indexOf? body p = some j → i = j :=
    fun p i j hi hj => Option.some.inj (hi.symm.trans hj)
  have hother : ∀ i p q, indexOf? body p = some i → indexOf? body q = some i → p = q :=
    fun i p q => eq_of_indexOf?
  rw [exists_arrange_iff, Visit.order_eq_ok_iff fun _ _ => lt_of_mem_requires]
  -- cycles of places and cycles of properties are the same
  constructor
  · intro hacyclic p hcycle
    obtain ⟨i, j, hi, hj, hplaces⟩ := Visit.exists_transGen hone
      (fun p q => mem_requires_of_needsIn hnodup) hcycle
    obtain rfl := hone p i j hi hj
    exact hacyclic i hplaces
  · intro hacyclic i hcycle
    obtain ⟨p, q, hp, hq, hproperties⟩ := Visit.exists_transGen hother
      (fun i j => needsIn_of_mem_requires hnodup) hcycle
    obtain rfl := hother i p q hp hq
    exact hacyclic p hproperties

end Emission

end Wiring
