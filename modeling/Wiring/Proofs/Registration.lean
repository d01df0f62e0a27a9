import Wiring.Proofs.Fulfillment
import Wiring.Proofs.Sorted

/-!
# What registration accepts

Registration goes through the components in order and looks for the types of each one among those before
it. What it reports does not need that order of work to be said: a type clashes wherever a component lists
it and another component comes first with it. So a list is refused exactly if two different components of
it share a type, and neither the order of the list nor repeats in it matter.

* `clashes_eq`: the clashes, by the first component of each type.
* `allClashes_eq_nil_iff`: when there are none.
* `register_exact`: what is registered, what is looked up and what is reported.
-/

namespace Wiring.Registry

variable {registry other : Registry} {components others earlier later : List Component}
  {a b c : Component} {t : TypeExpr}

/-! ## Clashes -/

/-- The first of some components that stands for a type, unless it is `c`. -/
def otherClaimant (components : List Component) (c : Component) (t : TypeExpr) : Option Component :=
  (claimant components t).filter (· ≠ c)

/-- The clashes of one of some components: each time that it lists a type for which another one comes
first. -/
def clashesOf (components : List Component) (c : Component) : List Fault :=
  c.types.filterMap fun t => (otherClaimant components c t).map fun first =>
    .duplicateFulfillment t first.concreteType c.concreteType

/-- **The clashes among some components**, those of each after those of the components before it. -/
def allClashes (components : List Component) : List Fault :=
  components.flatMap (clashesOf components)

theorem otherClaimant_eq_some_iff :
    otherClaimant components c t = some a ↔ claimant components t = some a ∧ a ≠ c := by
  simp [otherClaimant, Option.filter_eq_some_iff]

/-- Another component that comes first with a type of `c` comes before `c`. -/
theorem otherClaimant_eq_claimant (hnodup : (earlier ++ c :: later).Nodup) (ht : t ∈ c.types) :
    otherClaimant (earlier ++ c :: later) c t = claimant earlier t := by
  have hfirst : claimant (earlier ++ c :: later) t = (claimant earlier t).or (some c) := by
    simp [claimant, List.find?_append, ht]
  unfold otherClaimant
  rw [hfirst]
  cases hearlier : claimant earlier t with
  | none => simp
  | some first =>
    have hmem : first ∈ earlier := List.mem_of_find?_eq_some hearlier
    have hne : first ≠ c :=
      (List.nodup_append.1 hnodup).2.2 first hmem c List.mem_cons_self
    simp [hne]

/-- **What registration finds** are the clashes among the components. -/
theorem clashes_eq : ∀ {later earlier : List Component}, (earlier ++ later).Nodup →
    clashes earlier later = later.flatMap (clashesOf (earlier ++ later))
  | [], _, _ => rfl
  | c :: later, earlier, hnodup => by
    have hsplit : earlier ++ [c] ++ later = earlier ++ c :: later := by simp
    have hlater := clashes_eq (hsplit.symm ▸ hnodup)
    have hown : clashesOf (earlier ++ c :: later) c =
        c.types.filterMap fun t => (claimant earlier t).map fun first =>
          .duplicateFulfillment t first.concreteType c.concreteType := by
      unfold clashesOf
      apply List.filterMap_congr
      intro t ht
      rw [otherClaimant_eq_claimant hnodup ht]
    rw [clashes, hlater, hsplit, List.flatMap_cons, hown]

/-- **There are no clashes exactly if different components share no type.** -/
theorem allClashes_eq_nil_iff :
    allClashes components = [] ↔
      ∀ a ∈ components, ∀ b ∈ components, a ≠ b → a.types.Disjoint b.types := by
  unfold allClashes clashesOf
  rw [List.flatMap_eq_nil_iff]
  simp only [List.filterMap_eq_nil_iff, Option.map_eq_none_iff]
  constructor
  · intro hnone a ha b hb hne t hta htb
    -- of two components with one type, one at least is not the first with it
    obtain ⟨first, hfirst⟩ : ∃ first, claimant components t = some first := by
      cases h : claimant components t with
      | none => exact absurd hta (claimant_eq_none_iff.1 h a ha)
      | some first => exact ⟨first, rfl⟩
    have hown : ∀ c ∈ components, t ∈ c.types → first = c := by
      intro c hc htc
      by_contra hother
      have hsome := otherClaimant_eq_some_iff.2 ⟨hfirst, hother⟩
      rw [hnone c hc t htc] at hsome
      cases hsome
    exact hne ((hown a ha hta).symm.trans (hown b hb htb))
  · intro hdisjoint c hc t ht
    cases h : otherClaimant components c t with
    | none => rfl
    | some first =>
      obtain ⟨hfirst, hne⟩ := otherClaimant_eq_some_iff.1 h
      have hmem : first ∈ components := List.mem_of_find?_eq_some hfirst
      have htypes : t ∈ first.types := by simpa using List.find?_some hfirst
      exact absurd ht (hdisjoint first hmem c hc hne htypes)

/-! ## Registration -/

/-- Registration gives the components without repeats, or all clashes among them. -/
theorem register_eq (components : List Component) :
    register components =
      if allClashes components.eraseDups = [] then .ok ⟨components.eraseDups⟩
      else .error (allClashes components.eraseDups) := by
  have hclashes : clashes [] components.eraseDups = allClashes components.eraseDups :=
    clashes_eq (nodup_eraseDups components)
  unfold register
  simp only [hclashes]
  split
  · rename_i hnone
    rw [if_pos hnone]
  · rename_i hsome
    rw [if_neg hsome]

/-- **A list of components is registered exactly if different ones share no type.** -/
theorem exists_register_iff :
    (∃ registry, register components = .ok registry) ↔
      ∀ a ∈ components, ∀ b ∈ components, a ≠ b → a.types.Disjoint b.types := by
  have hkept : (∃ registry, register components = .ok registry) ↔
      allClashes components.eraseDups = [] := by
    rw [register_eq]
    by_cases h : allClashes components.eraseDups = [] <;> simp [h]
  rw [hkept, allClashes_eq_nil_iff]
  simp only [List.mem_eraseDups]

theorem components_of_register (h : register components = .ok registry) :
    registry.components = components.eraseDups := by
  rw [register_eq] at h
  split at h
  · cases h
    rfl
  · cases h

/-- Registered components have different concrete types. -/
theorem nodup_concreteTypes (h : register components = .ok registry) :
    (registry.components.map (·.concreteType)).Nodup := by
  have hnodup : registry.components.Nodup := by
    rw [components_of_register h]
    exact nodup_eraseDups components
  apply hnodup.map_on
  intro a ha b hb htype
  exact eq_of_concreteType_eq (unambiguous_of_register h) ha hb htype

/-- **Lists with the same components are registered alike**, and types are looked up alike. -/
theorem fulfilling_eq_of_same_mem (hsame : ∀ c, c ∈ others ↔ c ∈ components)
    (h : register components = .ok registry) (hother : register others = .ok other) (t : TypeExpr) :
    other.fulfilling t = registry.fulfilling t := by
  ext c
  rw [fulfilling_eq_some_iff (unambiguous_of_register hother),
    fulfilling_eq_some_iff (unambiguous_of_register h), mem_components_of_register hother,
    mem_components_of_register h, hsame]

/-- **Registration is exact.**

* A list of components is registered exactly if no two different ones have a common type.
* What is registered is the list without repeats. The look-up of a type finds the one component that has
  the type, and no concrete type comes twice.
* What is reported otherwise are the clashes: each time that a component lists a type for which another
  one comes first.
* A list with the same components, in another order or with other repeats, is registered as well, and
  types are looked up alike. -/
theorem register_exact (components : List Component) :
    ((∃ registry, register components = .ok registry) ↔
      ∀ a ∈ components, ∀ b ∈ components, a ≠ b → a.types.Disjoint b.types) ∧
    (∀ registry, register components = .ok registry →
      registry.components = components.eraseDups ∧
      (∀ t c, registry.fulfilling t = some c ↔ c ∈ registry.components ∧ t ∈ c.types) ∧
      (∀ t, ∀ a ∈ registry.components, ∀ b ∈ registry.components,
        t ∈ a.types → t ∈ b.types → a = b) ∧
      (registry.components.map (·.concreteType)).Nodup) ∧
    (∀ faults, register components = .error faults →
      faults ≠ [] ∧ faults = allClashes components.eraseDups) ∧
    ∀ others, (∀ c, c ∈ others ↔ c ∈ components) →
      ((∃ other, register others = .ok other) ↔ ∃ registry, register components = .ok registry) ∧
      ∀ registry other, register components = .ok registry → register others = .ok other →
        ∀ t, other.fulfilling t = registry.fulfilling t := by
  refine ⟨exists_register_iff, ?_, ?_, ?_⟩
  · intro registry h
    have hr := unambiguous_of_register h
    refine ⟨components_of_register h, fun t c => fulfilling_eq_some_iff hr, ?_, nodup_concreteTypes h⟩
    intro t a ha b hb hta htb
    exact eq_of_mem_types hr ha hb hta htb
  · intro faults h
    rw [register_eq] at h
    split at h
    · cases h
    · rename_i hsome
      cases h
      exact ⟨hsome, rfl⟩
  · intro others hsame
    refine ⟨?_, fun registry other h hother => fulfilling_eq_of_same_mem hsame h hother⟩
    rw [exists_register_iff, exists_register_iff]
    simp only [hsame]

end Wiring.Registry

namespace Wiring

/-- An inn offers lodging. -/
def inn : Component :=
  ⟨.simple "Inn" [], [.simple "Lodging" []], false, none, [], .classType⟩

/-- A hostel says twice that it offers lodging. -/
def hostel : Component :=
  ⟨.simple "Hostel" [], [.simple "Lodging" [], .simple "Lodging" []], false, none, [], .classType⟩

/-- A tent offers lodging and shade. -/
def tent : Component :=
  ⟨.simple "Tent" [], [.simple "Shade" [], .simple "Lodging" []], false, none, [], .structType⟩

/-- The lodging of a component clashes with that of the inn. -/
def lodgingClash (second : Component) : Fault :=
  .duplicateFulfillment (.simple "Lodging" []) inn.concreteType second.concreteType

/-- An inn that is listed twice is one inn. Next to it the hostel clashes each time that it lists lodging,
and the tent clashes with the inn, which comes first, but not with the hostel. -/
theorem lodgings_registered_exactly :
    Registry.register [inn, inn] = .ok ⟨[inn]⟩ ∧
      Registry.fulfilling ⟨[inn]⟩ (.simple "Lodging" []) = some inn ∧
      (∃ other, Registry.register [inn] = .ok other) ∧
      (¬ ∃ registry, Registry.register [inn, hostel, inn, tent] = .ok registry) ∧
      Registry.register [inn, hostel, inn, tent] =
        .error [lodgingClash hostel, lodgingClash hostel, lodgingClash tent] ∧
      Registry.allClashes [inn, hostel, tent] =
        [lodgingClash hostel, lodgingClash hostel, lodgingClash tent] := by
  obtain ⟨-, hsuccess, -, hsame⟩ := Registry.register_exact [inn, inn]
  obtain ⟨hexists, -, hfailure, -⟩ := Registry.register_exact [inn, hostel, inn, tent]
  have hinn : Registry.register [inn, inn] = .ok ⟨[inn]⟩ := by rfl
  have herror : Registry.register [inn, hostel, inn, tent] =
      .error [lodgingClash hostel, lodgingClash hostel, lodgingClash tent] := by rfl
  obtain ⟨-, hlookup, -, -⟩ := hsuccess _ hinn
  obtain ⟨hother, -⟩ := hsame [inn] (by simp)
  refine ⟨hinn, ?_, hother.2 ⟨_, hinn⟩, ?_, herror, (hfailure _ herror).2.symm⟩
  · exact (hlookup _ _).2 ⟨List.mem_singleton_self inn, by simp [inn, Component.types]⟩
  · rw [hexists]
    intro hdisjoint
    have hlodging := hdisjoint inn (by simp) hostel (by simp) (by simp [inn, hostel])
    exact hlodging (a := .simple "Lodging" []) (by simp [inn, Component.types])
      (by simp [hostel, Component.types])

end Wiring
