import Wiring.Proofs.TypeExpr.Order

/-!
# Compositions stand for sets of types

A composition is made of types that may be compositions themselves. One level of these is replaced by its
members, and that is enough: what was composed before has no compositions among its members. Since the order
tells different types apart, sorting then leaves each member once, and two compositions are one type exactly
if they have the same members.

* `IsComposed`: types in which compositions came about by composing.
* `IsPartOf`: what is left of a type if compositions are taken apart, however deep they lie.
* `IsComposed.isPartOf_iff`: taking apart one level is enough.
* `compositions_are_sets`: when compositions are equal, and what their members are like.
-/

namespace Wiring.TypeExpr

variable {t x : TypeExpr} {ms xs ys : List TypeExpr}

/-- **What was composed**, or is no composition. -/
inductive IsComposed : TypeExpr → Prop
  | plain {t : TypeExpr} : t.isComposition = false → IsComposed t
  | composed {ts : List TypeExpr} : (∀ t ∈ ts, IsComposed t) → IsComposed (compose ts)

/-- **A part of a type**: the type itself, or a part of a member if it is a composition. -/
inductive IsPartOf (t : TypeExpr) : TypeExpr → Prop
  | self : t.isComposition = false → IsPartOf t t
  | member {m : TypeExpr} {ms : List TypeExpr} :
    m ∈ ms → IsPartOf t m → IsPartOf t (.composition ms)

/-! ## Members -/

theorem members_of_not_isComposition (h : t.isComposition = false) : members t = [t] := by
  cases t <;> first | rfl | cases h

theorem mem_members_compose : t ∈ members (compose xs) ↔ t ∈ xs.flatMap members :=
  mem_sortedSet

/-- **The members of what was composed are no compositions.** -/
theorem IsComposed.isComposition_of_mem_members (h : IsComposed x) :
    ∀ m ∈ members x, m.isComposition = false := by
  induction h with
  | plain hplain =>
    rw [members_of_not_isComposition hplain]
    exact List.forall_mem_singleton.2 hplain
  | composed _ ih =>
    intro m hm
    obtain ⟨t, ht, hm⟩ := List.mem_flatMap.1 (mem_members_compose.1 hm)
    exact ih t ht m hm

/-- A type that is no composition has itself as its only part. -/
theorem isPartOf_iff_eq (h : x.isComposition = false) : IsPartOf t x ↔ t = x := by
  constructor
  · rintro (_ | _)
    · rfl
    · cases h
  · rintro rfl
    exact .self h

/-- **The parts of what was composed are its members.** -/
theorem IsComposed.isPartOf_iff (h : IsComposed x) : IsPartOf t x ↔ t ∈ members x := by
  have hmembers := h.isComposition_of_mem_members
  cases hx : x.isComposition with
  | false => rw [isPartOf_iff_eq hx, members_of_not_isComposition hx, List.mem_singleton]
  | true =>
    cases x with
    | composition ms =>
      constructor
      · rintro (_ | ⟨hm, hpart⟩)
        · contradiction
        · rwa [(isPartOf_iff_eq (hmembers _ hm)).1 hpart]
      · intro ht
        exact .member ht (.self (hmembers t ht))
    | _ => cases hx

/-! ## Composing -/

/-- Types make one composition exactly if they have the same members. -/
theorem compose_eq_iff :
    compose xs = compose ys ↔ ∀ t, t ∈ xs.flatMap members ↔ t ∈ ys.flatMap members := by
  constructor
  · intro h t
    rw [← mem_members_compose, ← mem_members_compose, h]
  · intro h
    rw [compose, compose, sortedSet_congr h]

/-- **Composing is associative**: a composition among the types can be replaced by what it was composed
of. -/
theorem compose_compose_cons : compose (compose xs :: ys) = compose (xs ++ ys) := by
  rw [compose_eq_iff]
  intro t
  rw [List.flatMap_cons, List.flatMap_append, List.mem_append, List.mem_append, mem_members_compose]

/-- **Compositions stand for sets of types.** Types that were composed, or are no compositions, make one
composition exactly if they have the same members, or the same parts at any depth. The members of the
composition ascend strictly, none of them is a composition, and together they make it again. -/
theorem compositions_are_sets (hxs : ∀ x ∈ xs, IsComposed x) (hys : ∀ y ∈ ys, IsComposed y) :
    (compose xs = compose ys ↔ ∀ t, t ∈ xs.flatMap members ↔ t ∈ ys.flatMap members) ∧
    (compose xs = compose ys ↔ ∀ t, (∃ x ∈ xs, IsPartOf t x) ↔ ∃ y ∈ ys, IsPartOf t y) ∧
    ∃ ms, compose xs = .composition ms ∧ (ms.Pairwise fun a b => compare a b = .lt) ∧
      (∀ m ∈ ms, m.isComposition = false) ∧ compose ms = .composition ms := by
  have hparts : ∀ {zs : List TypeExpr}, (∀ z ∈ zs, IsComposed z) →
      ∀ t, (∃ z ∈ zs, IsPartOf t z) ↔ t ∈ zs.flatMap members := by
    intro zs hzs t
    rw [List.mem_flatMap]
    exact exists_congr fun z => and_congr_right fun hz => (hzs z hz).isPartOf_iff
  have hplain := (IsComposed.composed hxs).isComposition_of_mem_members
  refine ⟨compose_eq_iff, ?_, _, rfl, pairwise_sortedSet _, hplain, ?_⟩
  · simp only [hparts hxs, hparts hys, compose_eq_iff]
  · have hkept : compose (members (compose xs)) =
        .composition (sortedSet compare (members (compose xs))) := by
      rw [compose, flatMap_members hplain]
    exact hkept.trans (congrArg _ (sortedSet_sortedSet _))

/-- A hinge and a latch, which a door goes with. -/
def hinge : TypeExpr :=
  .simple "Hinge" []

def latch : TypeExpr :=
  .simple "Latch" []

/-- A composition with a composition in it is that of all three members, in any order and with repeats, but
it is not that of two of them; and a type kept as unknown text is another member than the type that the text
spells. -/
theorem hinges_compose_as_sets :
    compose [compose [door, hinge], latch] = compose [latch, compose [hinge, latch], door] ∧
      compose [compose [door, hinge], latch] ≠ compose [hinge, latch] ∧
      compose [door, .unknown "Door"] ≠ compose [door] := by
  have hplain : ∀ {ts : List TypeExpr}, (∀ t ∈ ts, t.isComposition = false) →
      ∀ t ∈ ts, IsComposed t := by
    intro ts hts t ht
    exact .plain (hts t ht)
  have hnested : ∀ t ∈ [compose [door, hinge], latch], IsComposed t :=
    List.forall_mem_cons.2 ⟨.composed (hplain (by decide)), hplain (by decide)⟩
  have hother : ∀ t ∈ [latch, compose [hinge, latch], door], IsComposed t :=
    List.forall_mem_cons.2 ⟨.plain rfl,
      List.forall_mem_cons.2 ⟨.composed (hplain (by decide)), hplain (by decide)⟩⟩
  have hdoor : members door = [door] := rfl
  have hhinge : members hinge = [hinge] := rfl
  have hlatch : members latch = [latch] := rfl
  refine ⟨?_, ?_, ?_⟩
  · rw [(compositions_are_sets hnested hother).1]
    intro t
    simp only [List.flatMap_cons, List.flatMap_nil, List.mem_append, mem_members_compose, hdoor, hhinge,
      hlatch, List.mem_singleton, List.not_mem_nil]
    tauto
  · rw [Ne, (compositions_are_sets hnested (hplain (by decide))).1]
    intro hsame
    have hmem : door ∈ [compose [door, hinge], latch].flatMap members :=
      List.mem_flatMap.2 ⟨_, List.mem_cons_self, mem_members_compose.2 (by decide)⟩
    have hnot : door ∉ [hinge, latch].flatMap members := by decide
    exact hnot ((hsame door).1 hmem)
  · rw [Ne, (compositions_are_sets (hplain (by decide)) (hplain (by decide))).1]
    intro hsame
    have hnot : .unknown "Door" ∉ [door].flatMap members := by decide
    exact hnot ((hsame (.unknown "Door")).1 (by decide))

end Wiring.TypeExpr
