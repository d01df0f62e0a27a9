import Mathlib.Data.List.Chain
import Mathlib.Data.List.Induction
import Mathlib.Data.List.Nodup
import Wiring.Sorted

/-!
# Lists without repeats

Repeats are left out of a list in two ways: all but the first occurrence of each element, and, in sorted
sets, repeats next to each other. A list without repeats next to each other in ascending order is the
sorted set of its own elements.

* `eraseDups_concat`, `nodup_eraseDups`: first occurrences.
* `sortedSet_eq_self`: a list in ascending order without repeats is kept as it is.
* `sortedSet_sortedSet`: a sorted set is one.
* `sorted_eq_of_perm`, `sortedSet_congr`: under a total order, what is sorted does not depend on the order
  before.
-/

namespace Wiring

variable {α : Type}

section Dups

variable [DecidableEq α]

/-- One item more is kept if it is new. -/
theorem eraseDups_concat (l : List α) (a : α) :
    (l ++ [a]).eraseDups = if a ∈ l then l.eraseDups else l.eraseDups ++ [a] := by
  rw [List.eraseDups_append]
  by_cases h : a ∈ l <;> simp [List.removeAll, h, List.eraseDups_cons]

/-- Leaving out repeats goes along with a function that keeps the elements apart. -/
theorem eraseDups_map {β : Type} [DecidableEq β] {f : α → β} {l : List α}
    (hf : ∀ a ∈ l, ∀ b ∈ l, f a = f b → a = b) : (l.map f).eraseDups = l.eraseDups.map f := by
  induction l using List.reverseRecOn with
  | nil => rfl
  | append_singleton l a ih =>
    have ih := ih fun b hb c hc =>
      hf b (List.mem_append_left _ hb) c (List.mem_append_left _ hc)
    have hmem : f a ∈ l.map f ↔ a ∈ l := by
      constructor
      · intro hfa
        obtain ⟨b, hb, hba⟩ := List.mem_map.1 hfa
        rwa [← hf b (List.mem_append_left _ hb) a (by simp) hba]
      · exact List.mem_map_of_mem
    rw [List.map_append, List.map_singleton, eraseDups_concat, eraseDups_concat, ih]
    by_cases ha : a ∈ l
    · rw [if_pos ha, if_pos (hmem.2 ha)]
    · rw [if_neg ha, if_neg (mt hmem.1 ha), List.map_append, List.map_singleton]

theorem nodup_eraseDups (l : List α) : l.eraseDups.Nodup := by
  induction l using List.reverseRecOn with
  | nil => exact List.nodup_nil
  | append_singleton l a ih =>
    rw [eraseDups_concat]
    split
    · exact ih
    · rename_i hnew
      have hnew : a ∉ l.eraseDups := fun h => hnew (List.mem_eraseDups.1 h)
      exact List.nodup_append.2 ⟨ih, List.nodup_singleton a, by
        rintro b hb c hc rfl
        exact hnew (List.mem_singleton.1 hc ▸ hb)⟩

end Dups

section Reps

variable [BEq α]

/-- What is left stands in the same order. -/
theorem sublist_eraseRepsBy_loop :
    ∀ (a : α) (as kept : List α),
      (List.eraseRepsBy.loop (· == ·) a as kept).Sublist (kept.reverse ++ a :: as)
  | a, [], kept => by simp [List.eraseRepsBy.loop]
  | a, b :: as, kept => by
    rw [List.eraseRepsBy.loop]
    split
    · have hrest := sublist_eraseRepsBy_loop a as kept
      exact hrest.trans (((List.sublist_cons_self b as).cons_cons a).append_left _)
    · have hrest := sublist_eraseRepsBy_loop b as (a :: kept)
      simpa using hrest

theorem sublist_eraseReps (xs : List α) : xs.eraseReps.Sublist xs := by
  cases xs with
  | nil => exact .slnil
  | cons a as => exact sublist_eraseRepsBy_loop a as []

variable [LawfulBEq α] {cmp : α → α → Ordering}

/-- Where no element comes twice in a row, nothing is left out. -/
theorem eraseRepsBy_loop_of_isChain :
    ∀ (a : α) (as kept : List α), (a :: as).IsChain (· ≠ ·) →
      List.eraseRepsBy.loop (· == ·) a as kept = kept.reverse ++ a :: as
  | a, [], kept, _ => by simp [List.eraseRepsBy.loop]
  | a, b :: as, kept, h => by
    obtain ⟨hab, hrest⟩ := List.isChain_cons_cons.1 h
    rw [List.eraseRepsBy.loop, beq_false_of_ne hab]
    simp only
    rw [eraseRepsBy_loop_of_isChain b as (a :: kept) hrest]
    simp

theorem eraseReps_of_isChain {xs : List α} (h : xs.IsChain (· ≠ ·)) : xs.eraseReps = xs := by
  cases xs with
  | nil => rfl
  | cons a as => exact eraseRepsBy_loop_of_isChain a as [] h

/-- What is left has no element twice in a row. -/
theorem isChain_eraseRepsBy_loop :
    ∀ (a : α) (as kept : List α), (a :: kept).IsChain (· ≠ ·) →
      (List.eraseRepsBy.loop (· == ·) a as kept).IsChain (· ≠ ·)
  | a, [], kept, h => by
    rw [List.eraseRepsBy.loop, List.isChain_reverse]
    exact h.imp fun _ _ hne => hne.symm
  | a, b :: as, kept, h => by
    rw [List.eraseRepsBy.loop]
    split
    · exact isChain_eraseRepsBy_loop a as kept h
    · rename_i hab
      have hne : b ≠ a := fun heq => by simp [heq] at hab
      exact isChain_eraseRepsBy_loop b as (a :: kept) (List.isChain_cons_cons.2 ⟨hne, h⟩)

theorem isChain_eraseReps (xs : List α) : xs.eraseReps.IsChain (· ≠ ·) := by
  cases xs with
  | nil => exact .nil
  | cons a as => exact isChain_eraseRepsBy_loop a as [] (.singleton a)

/-- **A list in ascending order without repeats** is a sorted set. -/
theorem sortedSet_eq_self {xs : List α} (hsorted : xs.Pairwise fun a b => (cmp a b).isLE = true)
    (hchain : xs.IsChain (· ≠ ·)) : sortedSet cmp xs = xs := by
  rw [sortedSet, sorted, List.mergeSort_of_pairwise hsorted, eraseReps_of_isChain hchain]

end Reps

/-! ## Under a total order -/

section Order

variable {cmp : α → α → Ordering} [Std.TransCmp cmp]

/-- What is sorted is in ascending order. -/
theorem pairwise_sorted (xs : List α) :
    (sorted cmp xs).Pairwise fun a b => (cmp a b).isLE = true := by
  refine List.pairwise_mergeSort ?_ ?_ xs
  · intro a b c hab hbc
    exact Std.TransCmp.isLE_trans hab hbc
  · intro a b
    have hswap : cmp b a = (cmp a b).swap := Std.OrientedCmp.eq_swap
    rw [hswap]
    cases cmp a b <;> rfl

/-- **A sorted set stays the same** when it is sorted again. -/
theorem sortedSet_sortedSet [BEq α] [LawfulBEq α] (xs : List α) :
    sortedSet cmp (sortedSet cmp xs) = sortedSet cmp xs :=
  sortedSet_eq_self ((pairwise_sorted xs).sublist (sublist_eraseReps _)) (isChain_eraseReps _)

variable [Std.LawfulEqCmp cmp]

/-- Elements that are neither smaller nor greater than each other are equal. -/
theorem eq_of_isLE {a b : α} (hab : (cmp a b).isLE = true) (hba : (cmp b a).isLE = true) : a = b := by
  have hswap : cmp b a = (cmp a b).swap := Std.OrientedCmp.eq_swap
  have heq : cmp a b = .eq := by
    cases h : cmp a b <;> rw [hswap, h] at hba <;> rw [h] at hab <;> simp at hab hba
  exact Std.LawfulEqCmp.eq_of_compare heq

/-- **Sorting does not see the order** that the elements came in. -/
theorem sorted_eq_of_perm {xs ys : List α} (h : xs.Perm ys) : sorted cmp xs = sorted cmp ys := by
  have hperm : (sorted cmp xs).Perm (sorted cmp ys) :=
    (sorted_perm cmp xs).trans (h.trans (sorted_perm cmp ys).symm)
  exact hperm.eq_of_pairwise (fun a b _ _ => eq_of_isLE) (pairwise_sorted xs) (pairwise_sorted ys)

/-- In ascending order, elements that differ from their neighbours differ from all others. -/
theorem pairwise_lt_of_isChain :
    ∀ {xs : List α}, (xs.Pairwise fun a b => (cmp a b).isLE = true) → xs.IsChain (· ≠ ·) →
      xs.Pairwise fun a b => cmp a b = .lt
  | [], _, _ => .nil
  | [a], _, _ => List.pairwise_singleton _ a
  | a :: b :: xs, hle, hne => by
    obtain ⟨ha, hle⟩ := List.pairwise_cons.1 hle
    obtain ⟨hab, hne⟩ := List.isChain_cons_cons.1 hne
    have hrest := pairwise_lt_of_isChain hle hne
    have hlt : cmp a b = .lt := by
      have hisLE := ha b List.mem_cons_self
      cases h : cmp a b with
      | lt => rfl
      | eq => exact absurd (Std.LawfulEqCmp.eq_of_compare h) hab
      | gt => rw [h] at hisLE; cases hisLE
    refine List.pairwise_cons.2 ⟨?_, hrest⟩
    intro x hx
    rcases List.mem_cons.1 hx with rfl | hx
    · exact hlt
    · exact Std.TransCmp.lt_trans hlt ((List.pairwise_cons.1 hrest).1 x hx)

variable [BEq α] [LawfulBEq α]

/-- **A sorted set is strictly ascending.** -/
theorem pairwise_sortedSet (xs : List α) : (sortedSet cmp xs).Pairwise fun a b => cmp a b = .lt :=
  pairwise_lt_of_isChain ((pairwise_sorted xs).sublist (sublist_eraseReps _)) (isChain_eraseReps _)

/-- **Sets with the same elements are the same list.** -/
theorem sortedSet_congr {xs ys : List α} (h : ∀ x, x ∈ xs ↔ x ∈ ys) :
    sortedSet cmp xs = sortedSet cmp ys := by
  have hnodup : ∀ zs : List α, (sortedSet cmp zs).Nodup := by
    intro zs
    have hpairwise : (sortedSet cmp zs).Pairwise fun a b => cmp a b = .lt := pairwise_sortedSet zs
    refine hpairwise.imp ?_
    rintro a _ hlt rfl
    have hself : cmp a a = .eq := Std.ReflCmp.compare_self
    rw [hself] at hlt
    cases hlt
  have hperm : (sortedSet cmp xs).Perm (sortedSet cmp ys) := by
    refine (List.perm_ext_iff_of_nodup (hnodup xs) (hnodup ys)).2 ?_
    intro x
    rw [mem_sortedSet, mem_sortedSet, h]
  refine hperm.eq_of_pairwise ?_ (pairwise_sortedSet xs) (pairwise_sortedSet ys)
  intro a b _ _ hab hba
  have hle : (cmp a b).isLE = true := by simp [hab]
  exact eq_of_isLE hle (by simp [hba])

end Order

end Wiring
