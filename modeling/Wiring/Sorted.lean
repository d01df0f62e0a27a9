/-!
# Sorted lists

Sets are kept as lists in ascending order without repeats, so that equal sets are equal lists.
Both functions take the order as an argument; equal elements keep the order they came in.
-/

namespace Wiring

variable {α : Type}

/-- The elements in ascending order. -/
def sorted (cmp : α → α → Ordering) (xs : List α) : List α :=
  xs.mergeSort fun a b => (cmp a b).isLE

/-- The elements in ascending order, each once. -/
def sortedSet [BEq α] (cmp : α → α → Ordering) (xs : List α) : List α :=
  (sorted cmp xs).eraseReps

/-- Sorting only moves the elements. -/
theorem sorted_perm (cmp : α → α → Ordering) (xs : List α) : (sorted cmp xs).Perm xs :=
  List.mergeSort_perm xs _

theorem mem_eraseRepsBy_loop [BEq α] [LawfulBEq α] {x : α} :
    ∀ (a : α) (as kept : List α),
      x ∈ List.eraseRepsBy.loop (· == ·) a as kept ↔ x ∈ kept ∨ x ∈ a :: as
  | a, [], kept => by simp [List.eraseRepsBy.loop, or_comm]
  | a, b :: as, kept => by
    rw [List.eraseRepsBy.loop]
    split
    · rename_i hab
      rw [mem_eraseRepsBy_loop a as kept, eq_of_beq hab]
      simp
    · rw [mem_eraseRepsBy_loop b as (a :: kept)]
      simp only [List.mem_cons, or_assoc]
      exact or_left_comm

/-- A sorted set has the elements that it was made of. -/
@[simp]
theorem mem_sortedSet [BEq α] [LawfulBEq α] {cmp : α → α → Ordering} {x : α} {xs : List α} :
    x ∈ sortedSet cmp xs ↔ x ∈ xs := by
  rw [← (sorted_perm cmp xs).mem_iff]
  unfold sortedSet List.eraseReps List.eraseRepsBy
  cases sorted cmp xs with
  | nil => rfl
  | cons a as =>
    rw [mem_eraseRepsBy_loop a as []]
    simp

end Wiring
