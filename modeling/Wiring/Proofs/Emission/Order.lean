import Mathlib.Data.List.Induction
import Mathlib.Data.List.Nodup
import Wiring.Emission.Ordering

/-!
# The order of declarations serves their requirements

A visit finishes a vertex only after all that it requires, and it never finishes a vertex of the path
that leads to it. So the order that comes out lists every vertex once, after what it requires.

* `Visit.ordered_of_order`: the order of vertices.
* `Emission.arrange_perm`, `Emission.declared_before_of_arrange`: an arranged body has the same
  declarations, each after those that declare what it needs.
-/

namespace Wiring

namespace Visit

variable {requires : Nat → List Nat} {n : Nat}

/-- **Every vertex comes once, and after all that it requires.** -/
structure Ordered (requires : Nat → List Nat) (finished : List Nat) : Prop where
  nodup : finished.Nodup
  closed : ∀ before i after, finished = before ++ i :: after → ∀ j ∈ requires i, j ∈ before

theorem Ordered.nil : Ordered requires [] :=
  ⟨List.nodup_nil, by simp⟩

/-- A vertex may be finished when all that it requires is. -/
theorem Ordered.concat {finished : List Nat} {i : Nat} (h : Ordered requires finished)
    (hi : i ∉ finished) (hrequires : ∀ j ∈ requires i, j ∈ finished) :
    Ordered requires (finished ++ [i]) := by
  constructor
  · exact List.nodup_append.2 ⟨h.nodup, List.nodup_singleton i, by
      intro a ha b hb hab
      rw [List.mem_singleton] at hb
      exact hi (hb ▸ hab ▸ ha)⟩
  · intro before k after hsplit j hj
    -- the new vertex is the last one, or the split lies within the older ones
    rcases List.append_eq_append_iff.1 hsplit with ⟨rest, rfl, hlast⟩ | ⟨rest, rfl, hlast⟩
    · obtain ⟨rfl, hlast⟩ : rest = [] ∧ [i] = k :: after := by cases rest <;> simp_all
      rw [List.append_nil]
      cases hlast
      exact hrequires j hj
    · cases rest with
      | nil =>
        cases hlast
        simpa using hrequires j hj
      | cons first rest =>
        cases hlast
        exact h.closed before k rest rfl j hj

/-- What visiting `targets` below the path makes of the finished vertices: they stay in order, those of
the path are left alone, and the targets are among them. -/
structure Extends (requires : Nat → List Nat) (n : Nat) (path finished targets after : List Nat) :
    Prop where
  ordered : Ordered requires after
  bounded : ∀ i ∈ after, i < n
  kept : finished ⊆ after
  reached : targets ⊆ after
  untouched : ∀ i ∈ path, i ∈ after → i ∈ finished

/-- Visits one after the other. -/
theorem extends_foldlM {step : List Nat → Nat → Except (List Nat) (List Nat)} {path : List Nat}
    (hstep : ∀ finished i after, i < n → Ordered requires finished → (∀ j ∈ finished, j < n) →
      step finished i = .ok after → Extends requires n path finished [i] after) :
    ∀ {targets finished after : List Nat}, (∀ i ∈ targets, i < n) → Ordered requires finished →
      (∀ j ∈ finished, j < n) → targets.foldlM step finished = .ok after →
      Extends requires n path finished targets after
  | [], finished, after, _, hordered, hbounded, h => by
    cases h
    exact ⟨hordered, hbounded, List.Subset.refl _, List.nil_subset _, fun _ _ h => h⟩
  | i :: targets, finished, after, htargets, hordered, hbounded, h => by
    rw [List.foldlM_cons] at h
    cases hfirst : step finished i with
    | error cycle => rw [hfirst] at h; cases h
    | ok middle =>
      rw [hfirst] at h
      have hone := hstep finished i middle (htargets i List.mem_cons_self) hordered hbounded hfirst
      have hrest := extends_foldlM hstep (fun j hj => htargets j (List.mem_cons_of_mem _ hj))
        hone.ordered hone.bounded h
      refine ⟨hrest.ordered, hrest.bounded, List.Subset.trans hone.kept hrest.kept, ?_, ?_⟩
      · exact List.cons_subset.2 ⟨hrest.kept (hone.reached List.mem_cons_self), hrest.reached⟩
      · exact fun j hj hafter => hone.untouched j hj (hrest.untouched j hj hafter)

/-- **A visit** finishes its vertex after all that it requires. -/
theorem extends_visit (hrequires : ∀ i, ∀ j ∈ requires i, j < n) :
    ∀ {room : Nat} {path finished : List Nat} {i : Nat} {after : List Nat}, i < n →
      Ordered requires finished → (∀ j ∈ finished, j < n) →
      visit requires room path finished i = .ok after →
      Extends requires n path finished [i] after := by
  intro room
  induction room with
  | zero =>
    intro path finished i after hi hordered hbounded h
    simp only [visit] at h
    split at h
    · rename_i hfinished
      cases h
      exact ⟨hordered, hbounded, List.Subset.refl _, by simpa using hfinished, fun _ _ h => h⟩
    · cases h
  | succ room ih =>
    intro path finished i after hi hordered hbounded h
    simp only [visit] at h
    split at h
    · rename_i hfinished
      cases h
      exact ⟨hordered, hbounded, List.Subset.refl _, by simpa using hfinished, fun _ _ h => h⟩
    rename_i hfinished
    split at h
    · cases h
    rename_i hpath
    cases hfold : (requires i).foldlM (visit requires room (i :: path)) finished with
    | error cycle => rw [hfold] at h; cases h
    | ok middle =>
      rw [hfold] at h
      cases h
      have hmiddle : Extends requires n (i :: path) finished (requires i) middle :=
        extends_foldlM (fun _ _ _ hi hordered hbounded h => ih hi hordered hbounded h)
          (hrequires i) hordered hbounded hfold
      -- `i` is on the path of the visits below it, so none of them has finished it
      have hi' : i ∉ middle := fun hmem =>
        hfinished (hmiddle.untouched i List.mem_cons_self hmem)
      refine ⟨hmiddle.ordered.concat hi' hmiddle.reached, ?_, ?_, ?_, ?_⟩
      · intro j hj
        rcases List.mem_append.1 hj with hj | hj
        · exact hmiddle.bounded j hj
        · rw [List.mem_singleton.1 hj]
          exact hi
      · exact fun j hj => List.mem_append_left _ (hmiddle.kept hj)
      · exact List.subset_append_right _ _
      · intro j hj hafter
        rcases List.mem_append.1 hafter with hafter | hafter
        · exact hmiddle.untouched j (List.mem_cons_of_mem _ hj) hafter
        · rw [List.mem_singleton.1 hafter] at hj
          exact absurd hj hpath

/-- **The order of all vertices** lists each of them once, after all that it requires. -/
theorem ordered_of_order (hrequires : ∀ i, ∀ j ∈ requires i, j < n) {xs : List Nat}
    (h : order requires n = .ok xs) : xs.Perm (List.range n) ∧ Ordered requires xs := by
  have hextends : Extends requires n [] [] (List.range n) xs :=
    extends_foldlM (fun _ _ _ hi hordered hbounded h => extends_visit hrequires hi hordered hbounded h)
      (fun i hi => List.mem_range.1 hi) Ordered.nil (by simp) h
  refine ⟨?_, hextends.ordered⟩
  refine (List.perm_ext_iff_of_nodup hextends.ordered.nodup List.nodup_range).2 fun i => ?_
  exact ⟨fun hi => List.mem_range.2 (hextends.bounded i hi), fun hi => hextends.reached hi⟩

end Visit

namespace Emission

variable {c : Component} {body arranged : List Emission}

theorem exists_of_indexOf? {p : Property} {j : Nat} (h : indexOf? body p = some j) :
    ∃ e, body[j]? = some e ∧ e.property = p := by
  obtain ⟨hj, hp, -⟩ := List.findIdx?_eq_some_iff_getElem.1 h
  exact ⟨body[j], List.getElem?_eq_getElem hj, by simpa using hp⟩

theorem lt_of_mem_requires {i j : Nat} (h : j ∈ requires body i) : j < body.length := by
  obtain ⟨p, -, hp⟩ := List.mem_filterMap.1 h
  obtain ⟨e, he, -⟩ := exists_of_indexOf? hp
  exact (List.getElem?_eq_some_iff.1 he).1

/-- What a declaration needs and the body declares is required of it. -/
theorem exists_mem_requires {e : Emission} {i : Nat} {p : Property} (hi : body[i]? = some e)
    (hp : p ∈ e.required) (hdeclared : ∃ e' ∈ body, e'.property = p) :
    ∃ j ∈ requires body i, indexOf? body p = some j := by
  cases hj : indexOf? body p with
  | none =>
    obtain ⟨e', he', hproperty⟩ := hdeclared
    have hfree := List.findIdx?_eq_none_iff.1 hj e' he'
    simp [hproperty] at hfree
  | some j =>
    refine ⟨j, List.mem_filterMap.2 ⟨p, ?_, hj⟩, rfl⟩
    rwa [hi]

theorem filterMap_range (body : List Emission) :
    (List.range body.length).filterMap (body[·]?) = body := by
  induction body using List.reverseRecOn with
  | nil => rfl
  | append_singleton body e ih =>
    rw [List.length_append, List.length_singleton, List.range_succ, List.filterMap_append]
    have hbody : (List.range body.length).filterMap ((body ++ [e])[·]?) =
        (List.range body.length).filterMap (body[·]?) :=
      List.filterMap_congr fun i hi => List.getElem?_append_left (List.mem_range.1 hi)
    rw [hbody, ih]
    simp

/-- An arranged body follows an order of its vertices. -/
theorem exists_order_of_arrange (h : arrange c body = .ok arranged) :
    ∃ order, order.Perm (List.range body.length) ∧ Visit.Ordered (requires body) order ∧
      arranged = order.filterMap (body[·]?) := by
  unfold arrange at h
  cases horder : Visit.order (requires body) body.length with
  | error cycle => rw [horder] at h; cases h
  | ok order =>
    rw [horder] at h
    cases h
    obtain ⟨hperm, hordered⟩ := Visit.ordered_of_order (fun _ _ => lt_of_mem_requires) horder
    exact ⟨order, hperm, hordered, rfl⟩

/-- **Arranging a body only moves its declarations.** -/
theorem arrange_perm (h : arrange c body = .ok arranged) : arranged.Perm body := by
  obtain ⟨order, hperm, -, rfl⟩ := exists_order_of_arrange h
  have := hperm.filterMap (body[·]?)
  rwa [filterMap_range] at this

/-- **What a declaration needs stands before it**, if the body declares it at all. -/
theorem declared_before_of_arrange (h : arrange c body = .ok arranged) {before after : List Emission}
    {e : Emission} (hsplit : arranged = before ++ e :: after) {p : Property} (hp : p ∈ e.required)
    (hdeclared : ∃ e' ∈ arranged, e'.property = p) : ∃ e' ∈ before, e'.property = p := by
  have hdeclared : ∃ e' ∈ body, e'.property = p := by
    obtain ⟨e', he', hproperty⟩ := hdeclared
    exact ⟨e', (arrange_perm h).mem_iff.1 he', hproperty⟩
  obtain ⟨order, -, hordered, harranged⟩ := exists_order_of_arrange h
  -- the place of `e` in the arranged body is a place in the order
  obtain ⟨first, rest, rfl, hfirst, hrest⟩ :=
    List.filterMap_eq_append_iff.1 (harranged.symm.trans hsplit)
  obtain ⟨skipped, i, last, rfl, hskipped, hi, -⟩ := List.filterMap_eq_cons_iff.1 hrest
  obtain ⟨j, hj, hindex⟩ := exists_mem_requires hi hp hdeclared
  obtain ⟨e', he', hproperty⟩ := exists_of_indexOf? hindex
  have hbefore : j ∈ first ++ skipped :=
    hordered.closed (first ++ skipped) i last (by simp) j hj
  refine ⟨e', ?_, hproperty⟩
  rw [← hfirst]
  rcases List.mem_append.1 hbefore with hmem | hmem
  · exact List.mem_filterMap.2 ⟨j, hmem, he'⟩
  · rw [hskipped j hmem] at he'
    cases he'

end Emission

end Wiring
