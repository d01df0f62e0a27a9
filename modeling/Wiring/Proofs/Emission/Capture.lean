import Wiring.Proofs.Emission.Scoping

/-!
# Which declaration a label denotes

Resolution finds the supplier of a property by label and type, but the emitted code refers to it by its
label alone. So a declaration of the same label between the supplier and the use captures the label.

* `Enclosure.lookup`: the innermost declaration of a label.
* `Body.supplier?`: where resolution has found a property.
* `lookup_eq_supplier_iff`: the label denotes what resolution has found exactly if no body in between
  has a declaration of that label in scope.
* `label_is_captured`: this can fail.
-/

namespace Wiring

variable {registry : Registry} {limit : Nat} {root : Component} {g : RootEmission}
  {outer : List Enclosure} {b : Body} {l : Enclosure} {p q : Property}

/-- **What a label denotes**: the innermost declaration of it, and how many bodies are around the one
that it is in. -/
def Enclosure.lookup (label : String) : List Enclosure → Option (Nat × Property)
  | [] => none
  | l :: outer =>
    match l.visible.find? (·.label = label) with
    | some p => some (outer.length, p)
    | none => lookup label outer

/-- Where resolution has found a property that the body needs: how many bodies are around the one whose
component supplies it. -/
def Body.supplier? (b : Body) (outer : List Enclosure) (p : Property) : Option Nat :=
  if b.component.holds p then some outer.length
  else
    match Chain.locateIn p (b.frame :: outer.map (·.body.frame)) with
    | .available index => some index
    | _ => none

/-! ## The bodies around something -/

/-- Something around a body is a body itself, as far as it is emitted by then. -/
theorem contains_of_mem_outer (hb : g.Contains outer b) :
    ∀ {newer older : List Enclosure}, outer = newer ++ l :: older →
      g.Contains older l.body ∧ l.earlier ⊆ l.body.declarations := by
  induction hb with
  | root =>
    intro newer older hsplit
    simp at hsplit
  | @inner outer b earlier later body p c erased function hb hdeclarations ih =>
    intro newer older hsplit
    cases newer with
    | nil =>
      cases hsplit
      exact ⟨hb, hdeclarations ▸ List.subset_append_left _ _⟩
    | cons first newer =>
      cases hsplit
      exact ih rfl

/-- The bodies around a body, and the body itself, are bodies of the root. -/
theorem exists_contains_of_append (hb : g.Contains outer b) {f : Body} {inner older : List Body}
    (hsplit : b :: outer.map (·.body) = inner ++ f :: older) :
    ∃ above, g.Contains above f ∧ above.map (·.body) = older := by
  cases inner with
  | nil =>
    cases hsplit
    exact ⟨outer, hb, rfl⟩
  | cons first inner =>
    obtain ⟨-, houter⟩ := List.cons.inj hsplit
    obtain ⟨newer, rest, rfl, -, hrest⟩ := List.map_eq_append_iff.1 houter
    obtain ⟨l, older', rfl, rfl, rfl⟩ := List.map_eq_cons_iff.1 hrest
    exact ⟨older', (contains_of_mem_outer hb rfl).1, rfl⟩

theorem RootEmission.Reads.earlier_subset (h : g.Reads outer l p) :
    l.earlier ⊆ l.body.declarations := by
  cases h with
  | argument => exact List.Subset.refl _
  | renamed _ hsplit => exact hsplit ▸ List.subset_append_left _ _

/-- What can be used somewhere in a body and comes from the body itself, its component supplies. -/
theorem mem_supplied_of_visible (h : registry.build limit root = .ok g)
    (hl : g.Contains outer l.body) (hearlier : l.earlier ⊆ l.body.declarations) (hp : p ∈ l.visible) :
    p ∈ l.body.component.supplied := by
  rcases Enclosure.mem_visible.1 hp with hparameter | ⟨e, he, rfl⟩
  · obtain ⟨-, -, d, hd, hforwarded, rfl⟩ := Body.mem_parameters.1 hparameter
    exact Component.mem_supplied.2 ⟨d, hd, Dependency.isSupplied_iff.2 (.inr hforwarded), rfl⟩
  · obtain ⟨d, hd, hfulfills⟩ := (emitted_of_contains h hl).exists_fulfills (hearlier he)
    have hsupplied := Dependency.isSupplied_iff.2 (.inl hfulfills.isDeclared)
    exact Component.mem_supplied.2 ⟨d, hd, hsupplied, hfulfills.property_eq.symm⟩

/-- A property is found under its label where no other one has that label. -/
theorem find?_visible_of_unique (hp : p ∈ l.visible)
    (hunique : ∀ q ∈ l.visible, q.label = p.label → q = p) :
    l.visible.find? (·.label = p.label) = some p := by
  cases hfind : l.visible.find? (·.label = p.label) with
  | none =>
    have hfree := List.find?_eq_none.1 hfind p hp
    simp at hfree
  | some q =>
    have hlabel : q.label = p.label := by simpa using List.find?_some hfind
    rw [hunique q (List.mem_of_find?_eq_some hfind) hlabel]

/-- Where no component has a label twice, a label denotes one property in each body. -/
theorem find?_visible_eq_some (hlabels : (l.body.component.dependencies.map (·.property.label)).Nodup)
    (h : registry.build limit root = .ok g) (hl : g.Contains outer l.body)
    (hearlier : l.earlier ⊆ l.body.declarations) (hp : p ∈ l.visible) :
    l.visible.find? (·.label = p.label) = some p := by
  refine find?_visible_of_unique hp fun q hq hlabel => ?_
  have hq := mem_supplied_of_visible h hl hearlier hq
  have hp := mem_supplied_of_visible h hl hearlier hp
  obtain ⟨d, hd, -, rfl⟩ := Component.mem_supplied.1 hq
  obtain ⟨d', hd', -, rfl⟩ := Component.mem_supplied.1 hp
  rw [List.inj_on_of_nodup_map hlabels hd hd' hlabel]

/-! ## Looking up a label -/

theorem lookup_eq_some_iff {label : String} {s : Nat} :
    ∀ {place : List Enclosure}, Enclosure.lookup label place = some (s, p) ↔
      ∃ newer l older, place = newer ++ l :: older ∧ older.length = s ∧
        l.visible.find? (·.label = label) = some p ∧
        ∀ l' ∈ newer, ∀ q ∈ l'.visible, q.label ≠ label
  | [] => by simp [Enclosure.lookup]
  | first :: outer => by
    unfold Enclosure.lookup
    cases hfind : first.visible.find? (·.label = label) with
    | some q =>
      constructor
      · intro h
        cases h
        exact ⟨[], first, outer, rfl, rfl, hfind, by simp⟩
      · rintro ⟨newer, l, older, hsplit, rfl, hl, hnewer⟩
        cases newer with
        | nil =>
          cases hsplit
          rw [hfind] at hl
          cases hl
          rfl
        | cons first newer =>
          -- the first body has a declaration of the label
          cases hsplit
          have hlabel : q.label = label := by simpa using List.find?_some hfind
          have hfree := hnewer first List.mem_cons_self q (List.mem_of_find?_eq_some hfind)
          exact absurd hlabel hfree
    | none =>
      have hfirst : ∀ q ∈ first.visible, q.label ≠ label := by
        simpa using List.find?_eq_none.1 hfind
      rw [lookup_eq_some_iff]
      constructor
      · rintro ⟨newer, l, older, rfl, hlength, hl, hnewer⟩
        exact ⟨first :: newer, l, older, rfl, hlength, hl, List.forall_mem_cons.2 ⟨hfirst, hnewer⟩⟩
      · rintro ⟨newer, l, older, hsplit, hlength, hl, hnewer⟩
        cases newer with
        | nil =>
          cases hsplit
          rw [hfind] at hl
          cases hl
        | cons first newer =>
          cases hsplit
          exact ⟨newer, l, older, rfl, hlength, hl, (List.forall_mem_cons.1 hnewer).2⟩

/-- The nearest ancestor that supplies a property is where resolution finds it. -/
theorem index_eq_of_locateIn {f : Frame} {older : List Frame} {index : Nat}
    (hf : p ∈ f.component.supplied) :
    ∀ {frame : Frame} {newer : List Frame}, (∀ f' ∈ newer, p ∉ f'.component.supplied) →
      Chain.locateIn p (frame :: (newer ++ f :: older)) = .available index → index = older.length
  | frame, [], _, h => by
    rw [List.nil_append, Chain.locateIn, if_pos hf] at h
    split at h <;> cases h
    rfl
  | frame, first :: newer, hnewer, h => by
    obtain ⟨hfirst, hnewer⟩ := List.forall_mem_cons.1 hnewer
    rw [List.cons_append, Chain.locateIn, if_neg hfirst] at h
    exact index_eq_of_locateIn hf hnewer h

/-! ## Labels and suppliers -/

/-- Resolution has found a supplier for everything that is received or renamed. -/
theorem exists_supplier?_eq_some (h : registry.build limit root = .ok g) (hb : g.Contains outer b)
    (hp : p ∈ b.component.required) : ∃ s, b.supplier? outer p = some s := by
  unfold Body.supplier?
  rcases (emitted_of_contains h hb).holds_or_located hp with hholds | ⟨index, hlocated⟩
  · exact ⟨outer.length, by rw [if_pos hholds]⟩
  · by_cases hholds : b.component.holds p = true
    · exact ⟨outer.length, by rw [if_pos hholds]⟩
    · exact ⟨index, by rw [if_neg hholds, hlocated]⟩

/-- **What a body needs can be used where resolution has found it**, and nothing in between supplies it. -/
theorem exists_visible_of_located (h : registry.build limit root = .ok g) (hb : g.Contains outer b)
    (hp : p ∈ b.required) {index : Nat}
    (hlocated : Chain.locateIn p (b.frame :: outer.map (·.body.frame)) = .available index) :
    ∃ newer l' older, outer = newer ++ l' :: older ∧ older.length = index ∧ p ∈ l'.visible ∧
      ∀ l'' ∈ newer, p ∉ l''.body.component.supplied := by
  obtain ⟨newer, l', older, hsplit, hvisible, hnewer⟩ := exists_visible_of_required h hb hp
  obtain ⟨hl', hearlier⟩ := contains_of_mem_outer hb hsplit
  have hl'supplied := mem_supplied_of_visible h hl' hearlier hvisible
  rw [hsplit, List.map_append, List.map_cons] at hlocated
  have hindex := index_eq_of_locateIn (f := l'.body.frame) hl'supplied
    (by simpa [Body.frame] using hnewer) hlocated
  exact ⟨newer, l', older, hsplit, by rw [hindex, List.length_map], hvisible, hnewer⟩

/-- **The supplier's declaration can be used** where a property is read that the body does not declare
itself, and no body in between supplies the property. -/
theorem exists_supplier_visible (h : registry.build limit root = .ok g) (hreads : g.Reads outer l p)
    {s : Nat} (hs : l.body.supplier? outer p = some s) (hl : p ∉ l.visible) :
    ∃ newer l' older, outer = newer ++ l' :: older ∧ older.length = s ∧ p ∈ l'.visible := by
  have hrequired := (visible_or_required_of_reads h hreads).resolve_left hl
  have hsupplied : p ∉ l.body.component.supplied := (Component.mem_needs.1 hrequired).2
  unfold Body.supplier? at hs
  rw [if_neg fun hholds => hsupplied (Component.mem_supplied_of_holds hholds)] at hs
  split at hs
  · rename_i index hlocated
    cases hs
    obtain ⟨newer, l', older, hsplit, hindex, hvisible, -⟩ :=
      exists_visible_of_located h hreads.contains hrequired hlocated
    exact ⟨newer, l', older, hsplit, hindex, hvisible⟩
  · cases hs

theorem le_of_supplier? {s : Nat} (hs : b.supplier? outer p = some s) : s ≤ outer.length := by
  unfold Body.supplier? at hs
  split at hs
  · cases hs
    exact le_refl _
  · split at hs
    · rename_i index hlocated
      cases hs
      obtain ⟨newer, f, rest, hsplit, rfl, -, -⟩ := Chain.exists_supplier_of_locateIn hlocated
      have hlength := congrArg List.length hsplit
      rw [List.length_map, List.length_append, List.length_cons] at hlength
      omega
    · cases hs

/-- The bodies inside the one that has `older` around it. -/
theorem take_inside {newer older : List Enclosure} {l' : Enclosure}
    (h : l :: outer = newer ++ l' :: older) :
    (l :: outer).take (outer.length - older.length) = newer := by
  have hlength := congrArg List.length h
  rw [List.length_cons, List.length_append, List.length_cons] at hlength
  have hinside : outer.length - older.length = newer.length := by omega
  rw [h, hinside, List.take_left]

/-- The bodies inside the one that has `older` around it, and that one itself. -/
theorem take_within {newer older : List Enclosure} {l' : Enclosure}
    (h : l :: outer = newer ++ l' :: older) :
    (l :: outer).take (outer.length + 1 - older.length) = newer ++ [l'] := by
  have hlength := congrArg List.length h
  rw [List.length_cons, List.length_append, List.length_cons] at hlength
  have hwithin : outer.length + 1 - older.length = (newer ++ [l']).length := by
    rw [List.length_append, List.length_singleton]
    omega
  rw [h, hwithin, List.append_cons newer l' older, List.take_left]

/-- **A label denotes what resolution has found** for the property that is received or renamed, exactly
if none of the bodies inside the supplier's, down to the one with the use, has a declaration of that
label in scope there. -/
theorem Registry.lookup_eq_supplier_iff
    (hlabels : ∀ c ∈ registry.components, (c.dependencies.map (·.property.label)).Nodup)
    (hroot : root ∈ registry.components) (h : registry.build limit root = .ok g)
    (hreads : g.Reads outer l p) (hp : p ∈ l.body.component.required) :
    ∃ s, l.body.supplier? outer p = some s ∧
      (Enclosure.lookup p.label (l :: outer) = some (s, p) ↔
        ∀ l' ∈ (l :: outer).take (outer.length - s), ∀ q ∈ l'.visible, q.label ≠ p.label) := by
  obtain ⟨s, hs⟩ := exists_supplier?_eq_some h hreads.contains hp
  have hfind : ∀ {around : List Enclosure} {l' : Enclosure}, g.Contains around l'.body →
      l'.earlier ⊆ l'.body.declarations → p ∈ l'.visible →
      l'.visible.find? (·.label = p.label) = some p := by
    intro around l' hl' hearlier hvisible
    have hunique := hlabels _ (mem_components_of_contains hroot h hl')
    exact find?_visible_eq_some hunique h hl' hearlier hvisible
  refine ⟨s, hs, ?_, ?_⟩
  · intro hlookup
    obtain ⟨newer, l', older, hsplit, rfl, -, hnewer⟩ := lookup_eq_some_iff.1 hlookup
    rw [take_inside hsplit]
    exact hnewer
  · intro hfree
    rw [lookup_eq_some_iff]
    by_cases hl : p ∈ l.visible
    · -- the body with the use declares the property, so it has to be the supplier itself
      have hle : outer.length ≤ s := by
        by_contra hlt
        have hinside : l ∈ (l :: outer).take (outer.length - s) := by
          obtain ⟨k, hk⟩ := Nat.exists_eq_add_one.2 (show 0 < outer.length - s by omega)
          rw [hk, List.take_succ_cons]
          exact List.mem_cons_self
        exact hfree l hinside p hl rfl
      have hlength : outer.length = s := le_antisymm hle (le_of_supplier? hs)
      exact ⟨[], l, outer, rfl, hlength, hfind hreads.contains hreads.earlier_subset hl, by simp⟩
    · obtain ⟨newer, l', older, hsplit, rfl, hvisible⟩ := exists_supplier_visible h hreads hs hl
      have hplace : l :: outer = (l :: newer) ++ l' :: older := by rw [hsplit, List.cons_append]
      rw [take_inside hplace] at hfree
      obtain ⟨hl', hearlier⟩ := contains_of_mem_outer hreads.contains hsplit
      exact ⟨l :: newer, l', older, hplace, rfl, hfind hl' hearlier hvisible, hfree⟩

/-- A counter that is opened for a clerk passes the ledger of the shop on: nothing else in scope there is
called so. -/
theorem ledger_is_not_captured :
    Registry.build ⟨[shop, ledger, counter, till]⟩ 256 shop = .ok shopEmission ∧
      ∃ outer, shopEmission.Reads outer ⟨counterBody, counterBody.declarations⟩
          ⟨"ledger", .simple "Ledger" []⟩ ∧
        Enclosure.lookup "ledger" (⟨counterBody, counterBody.declarations⟩ :: outer) =
          some (0, ⟨"ledger", .simple "Ledger" []⟩) := by
  have hbuild : Registry.build ⟨[shop, ledger, counter, till]⟩ 256 shop = .ok shopEmission := by
    with_unfolding_all rfl
  have hcounter : shopEmission.Contains
      [⟨⟨none, shop, none, shopEmission.body⟩, shopEmission.body.take 2⟩] counterBody :=
    .inner .root rfl
  have hreads : shopEmission.Reads _ _ _ :=
    .argument (a := ⟨none, "ledger", .simple "Ledger" [], false⟩) hcounter (by decide)
  refine ⟨hbuild, _, hreads, ?_⟩
  obtain ⟨s, hs, hlookup⟩ :=
    Registry.lookup_eq_supplier_iff (by decide) List.mem_cons_self hbuild hreads (by decide)
  cases hs
  exact hlookup.2 (by with_unfolding_all decide)

/-! ## A label that is captured -/

/-- A house has a key and a flat. -/
def house : Component :=
  ⟨.simple "House" [], [], true, none,
    [⟨⟨"key", .simple "HouseKey" []⟩, .instantiated none false⟩,
      ⟨⟨"flat", .simple "Flat" []⟩, .instantiated none false⟩], .classType⟩

/-- A flat has a key of its own and a tenant. -/
def flat : Component :=
  ⟨.simple "Flat" [], [], false, none,
    [⟨⟨"key", .simple "FlatKey" []⟩, .instantiated none false⟩,
      ⟨⟨"tenant", .simple "Tenant" []⟩, .instantiated none false⟩], .classType⟩

/-- A tenant gets the key of the house. -/
def tenant : Component :=
  ⟨.simple "Tenant" [], [], false, none, [⟨⟨"key", .simple "HouseKey" []⟩, .received⟩], .classType⟩

def houseKey : Component :=
  ⟨.simple "HouseKey" [], [], false, none, [], .structType⟩

def flatKey : Component :=
  ⟨.simple "FlatKey" [], [], false, none, [], .structType⟩

/-- The body of the flat, after the declaration of its key. -/
def flatBody : Body :=
  ⟨some ⟨"flat", .simple "Flat" []⟩, flat, some "__wg_flat",
    [.built ⟨"key", .simple "FlatKey" []⟩ flatKey false none [],
      .built ⟨"tenant", .simple "Tenant" []⟩ tenant false none []]⟩

/-- What is emitted for the house. -/
def houseEmission : RootEmission :=
  ⟨house, [.built ⟨"key", .simple "HouseKey" []⟩ houseKey false none [],
    .built ⟨"flat", .simple "Flat" []⟩ flat false (some "__wg_flat") flatBody.declarations]⟩

/-- **A label need not denote what resolution has found.** The tenant gets the key of the house, but the
call that builds the tenant stands after the declaration of the flat's key. -/
theorem label_is_captured :
    ¬ ∀ (components : List Component) (registry : Registry) (limit : Nat) (root : Component)
        (g : RootEmission) (outer : List Enclosure) (l : Enclosure) (p : Property) (s : Nat),
      Registry.register components = .ok registry →
      (∀ c ∈ registry.components, (c.dependencies.map (·.property.label)).Nodup) →
      root ∈ registry.components → registry.build limit root = .ok g →
      g.Reads outer l p → p ∈ l.body.component.required →
      l.body.supplier? outer p = some s → Enclosure.lookup p.label (l :: outer) = some (s, p) := by
  intro h
  have hregister : Registry.register [house, flat, tenant, houseKey, flatKey] =
      .ok ⟨[house, flat, tenant, houseKey, flatKey]⟩ := by rfl
  have hbuild : Registry.build ⟨[house, flat, tenant, houseKey, flatKey]⟩ 256 house =
      .ok houseEmission := by
    with_unfolding_all rfl
  have hflat : houseEmission.Contains
      [⟨⟨none, house, none, houseEmission.body⟩, houseEmission.body.take 1⟩] flatBody :=
    .inner .root rfl
  have hdeclarations : flatBody.declarations = flatBody.declarations.take 1 ++
      [.built ⟨"tenant", .simple "Tenant" []⟩ tenant false none []] := rfl
  have htenant : houseEmission.Contains _
      ⟨some ⟨"tenant", .simple "Tenant" []⟩, tenant, none, []⟩ :=
    .inner hflat hdeclarations
  have hreads : houseEmission.Reads _ _ _ :=
    .argument (a := ⟨none, "key", .simple "HouseKey" [], false⟩) htenant (by decide)
  have hlookup := h _ _ 256 house houseEmission _ _ _ 0 hregister (by decide) List.mem_cons_self
    hbuild hreads (by decide) (by decide)
  exact absurd hlookup (by decide)

end Wiring
