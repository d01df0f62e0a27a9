import Wiring.Proofs.TypeExpr.Canonical
import Wiring.Proofs.TypeExpr.Outline
import Wiring.Property

/-!
# Types and properties are totally ordered

Types with one source text are told apart by their outlines, and no two types have one outline; so types
that are neither smaller nor greater than each other are one type. The same holds of properties, which are
compared by their labels first.

* the instances of `Std.TransCmp` and `Std.LawfulEqCmp` for `TypeExpr.compare` and `Property.compare`.
* `TypeExpr.compare_of_source_eq`: types of one text are ordered by their outlines.
* `types_and_properties_totally_ordered`: the two orders, and what they make of types of one text.
-/

namespace Wiring

instance : Std.LawfulEqCmp TypeExpr.compare where
  eq_of_compare {a b} h := by
    by_contra hne
    rw [TypeExpr.compare, if_neg hne, Ordering.then_eq_eq] at h
    exact hne (TypeExpr.outline_injective (Std.LawfulEqOrd.eq_of_compare h.2))

/-- The order of properties compares their labels, and their types if these are the same. -/
theorem Property.compare_eq :
    Property.compare = compareLex (compareOn Property.label)
      (fun p q => TypeExpr.compare p.type q.type) :=
  rfl

instance : Std.TransCmp Property.compare :=
  have : Std.TransCmp fun p q : Property => TypeExpr.compare p.type q.type :=
    { eq_swap {p q} := @Std.OrientedCmp.eq_swap _ TypeExpr.compare _ p.type q.type
      isLE_trans {p q r} := @Std.TransCmp.isLE_trans _ TypeExpr.compare _ p.type q.type r.type }
  Property.compare_eq ▸ inferInstance

instance : Std.LawfulEqCmp Property.compare where
  eq_of_compare {p q} h := by
    rw [Property.compare, Ordering.then_eq_eq] at h
    obtain ⟨label, type⟩ := p
    obtain ⟨label', type'⟩ := q
    obtain rfl : label = label' := Std.LawfulEqOrd.eq_of_compare h.1
    obtain rfl : type = type' := Std.LawfulEqCmp.eq_of_compare h.2
    rfl

/-! ## Types of one text -/

namespace TypeExpr

variable {t a b : TypeExpr}

/-- A composition of one member is written as the member, in parentheses where it needs them. -/
theorem pieces_composition_singleton (m : TypeExpr) :
    (composition [m]).pieces = grouped (needsGrouping m) m.pieces := by
  rw [pieces, groupedAll, groupedAll, List.intercalate_singleton]

theorem source_composition_singleton (h : t.needsGrouping = false) :
    (composition [t]).source = t.source := by
  rw [source, source, pieces_composition_singleton, h]
  rfl

/-- A tuple of one element without a label is written as the element. -/
theorem source_tuple_singleton (t : TypeExpr) : (tuple [⟨none, t⟩]).source = t.source := by
  rw [source, source, pieces]

theorem source_unknown (text : String) : (unknown text).source = text := by
  simp [source, pieces, Piece.usual, String.join]

/-- **Types of one text are ordered by their outlines.** -/
theorem compare_of_source_eq (h : a.source = b.source) :
    compare a b = Ord.compare a.outline b.outline := by
  rw [compare_eq, compareLex, compareOn, compareOn, h, Std.ReflOrd.compare_self]
  rfl

end TypeExpr

/-! ## The orders -/

/-- **A total order**: only equal values compare as equal, a comparison the other way round has the reverse
result, and comparisons go on from one to the next. -/
structure IsTotalOrder {α : Type} (cmp : α → α → Ordering) : Prop where
  eq_iff : ∀ a b, cmp a b = .eq ↔ a = b
  swap : ∀ a b, cmp b a = (cmp a b).swap
  isLE_trans : ∀ a b c, (cmp a b).isLE = true → (cmp b c).isLE = true → (cmp a c).isLE = true
  lt_trans : ∀ a b c, cmp a b = .lt → cmp b c = .lt → cmp a c = .lt

theorem isTotalOrder_of_lawful {α : Type} {cmp : α → α → Ordering} [Std.TransCmp cmp]
    [Std.LawfulEqCmp cmp] : IsTotalOrder cmp where
  eq_iff _ _ := Std.LawfulEqCmp.compare_eq_iff_eq
  swap _ _ := Std.OrientedCmp.eq_swap
  isLE_trans _ _ _ := Std.TransCmp.isLE_trans
  lt_trans _ _ _ := Std.TransCmp.lt_trans

/-- **Types and properties are totally ordered**, and equal in the order only if they are equal in
structure. Types of one text are ordered by their outlines, which tell them apart. So the order separates a
type from each other structure that is written like it: the tuple of it alone, its own text kept as unknown,
and the composition of it alone, if it needs no parentheses there. -/
theorem types_and_properties_totally_ordered :
    IsTotalOrder TypeExpr.compare ∧ IsTotalOrder Property.compare ∧
    (∀ a b : TypeExpr, a.source = b.source →
      TypeExpr.compare a b = compare a.outline b.outline ∧ (a.outline = b.outline → a = b)) ∧
    ∀ t : TypeExpr,
      ((TypeExpr.tuple [⟨none, t⟩]).source = t.source ∧
        TypeExpr.compare (.tuple [⟨none, t⟩]) t ≠ .eq) ∧
      ((TypeExpr.unknown t.source).source = t.source ∧
        (t ≠ .unknown t.source → TypeExpr.compare (.unknown t.source) t ≠ .eq)) ∧
      (t.needsGrouping = false → (TypeExpr.composition [t]).source = t.source ∧
        TypeExpr.compare (.composition [t]) t ≠ .eq) := by
  have htypes : IsTotalOrder TypeExpr.compare := isTotalOrder_of_lawful
  have hne : ∀ {a b : TypeExpr}, a ≠ b → TypeExpr.compare a b ≠ .eq := by
    intro a b hab heq
    exact hab ((htypes.eq_iff a b).1 heq)
  refine ⟨htypes, isTotalOrder_of_lawful, ?_, ?_⟩
  · intro a b hsource
    exact ⟨TypeExpr.compare_of_source_eq hsource, fun houtline => TypeExpr.outline_injective houtline⟩
  · intro t
    refine ⟨⟨TypeExpr.source_tuple_singleton t, hne ?_⟩, ⟨TypeExpr.source_unknown _, ?_⟩, ?_⟩
    · -- a type is smaller than what it is a part of
      intro h
      have hsize := congrArg sizeOf h
      simp at hsize
      omega
    · intro hother
      exact hne hother.symm
    · intro hplain
      refine ⟨TypeExpr.source_composition_singleton hplain, hne ?_⟩
      intro h
      have hsize := congrArg sizeOf h
      simp at hsize
      omega

/-- A door, written by its name. -/
def door : TypeExpr :=
  .simple "Door" []

/-- A composition of a door alone, a door, and unknown text that spells a door are written alike, and come
in this order. -/
theorem doors_ordered :
    (TypeExpr.composition [door]).source = door.source ∧
      (TypeExpr.unknown door.source).source = door.source ∧
      TypeExpr.compare (.composition [door]) door = .lt ∧
      TypeExpr.compare door (.unknown door.source) = .lt ∧
      TypeExpr.compare (.composition [door]) (.unknown door.source) = .lt := by
  obtain ⟨htypes, -, htext, hforms⟩ := types_and_properties_totally_ordered
  obtain ⟨-, ⟨hunknown, -⟩, hcomposition⟩ := hforms door
  obtain ⟨hcomposition, -⟩ := hcomposition rfl
  have hfirst : TypeExpr.compare (.composition [door]) door = .lt := by
    rw [(htext _ _ hcomposition).1]
    decide
  have hsecond : TypeExpr.compare door (.unknown door.source) = .lt := by
    rw [(htext _ _ hunknown.symm).1]
    decide
  exact ⟨hcomposition, hunknown, hfirst, hsecond, htypes.lt_trans _ _ _ hfirst hsecond⟩

end Wiring
