import Wiring.Proofs.Emission.References
import Wiring.Proofs.Emission.Reordered

/-!
# What a body needs are its free properties

Components ask for properties, by receiving them or by giving them another name, and they supply
properties to all that is built below them. A property is free in a body if something below asks for it and
no component on the way down supplies it, much as a variable is free if no binder stands between it and the
top of a term. What a body needs from outside is computed from the bottom up, by joining what its
declarations need and leaving out what its component supplies; these are the free properties.

* `Body.Reaches`: the ways down from a body.
* `Body.IsFree`: a property that is asked for at the end of a way and supplied nowhere on it.
* `Body.mem_required_iff_isFree`: what is needed is what is free.
* `Scope.required_iff_isFree`: the bodies of a scope's emission, and of the scope in another order.
-/

namespace Wiring

/-! ## Free properties -/

namespace Component

variable {c : Component} {p : Property}

/-- **The component makes a property visible** to what is built below it: it has the property built, has
it passed in, or gives another property its name. -/
def Supplies (c : Component) (p : Property) : Prop :=
  ∃ d ∈ c.dependencies, d.property = p ∧
    ((∃ fulfilling erased, d.origin = .instantiated fulfilling erased) ∨ d.origin = .forwarded ∨
      ∃ fulfilling erased, d.origin = .aliased fulfilling erased)

/-- **The component asks for a property**: it receives it, or gives it another name. -/
def AsksFor (c : Component) (p : Property) : Prop :=
  ∃ d ∈ c.dependencies, (d.origin = .received ∧ d.property = p) ∨
    ∃ erased, d.origin = .aliased p erased

theorem mem_supplied_iff_supplies : p ∈ c.supplied ↔ c.Supplies p := by
  rw [mem_supplied]
  refine exists_congr fun d => and_congr_right fun _ => ?_
  rw [and_comm]
  refine and_congr_right fun _ => ?_
  unfold Dependency.isSupplied
  cases d.origin <;> simp

theorem mem_required_iff_asksFor : p ∈ c.required ↔ c.AsksFor p := by
  unfold required AsksFor
  rw [List.mem_filterMap]
  refine exists_congr fun d => and_congr_right fun _ => ?_
  unfold Dependency.required?
  cases d.origin <;> simp

end Component

namespace Body

/-- **The ways down from a body**: the bodies on the way, from the first one to the last one, both of
them included. -/
inductive Reaches : Body → List Body → Body → Prop
  | here {b : Body} : Reaches b [b] b
  | down {b last : Body} {way : List Body} {p : Property} {c : Component} {erased : Bool}
      {function : Option String} {body : List Emission} :
    .built p c erased function body ∈ b.declarations →
      Reaches ⟨some p, c, function, body⟩ way last → Reaches b (b :: way) last

/-- Something in the body asks for the property: its component, or a declaration that renames it. -/
def AsksFor (b : Body) (p : Property) : Prop :=
  b.component.AsksFor p ∨ ∃ q erased, .renamed q p erased ∈ b.declarations

/-- **The property is free in a body**: it is asked for at the end of a way down, and no component on the
way supplies it. -/
def IsFree (b : Body) (p : Property) : Prop :=
  ∃ way last, b.Reaches way last ∧ last.AsksFor p ∧ ∀ passed ∈ way, ¬ passed.component.Supplies p

variable {b : Body} {p : Property}

/-- A property is free in a body if its component does not supply it, and the body itself asks for it or
it is free in a body right below. -/
theorem isFree_iff :
    b.IsFree p ↔ ¬ b.component.Supplies p ∧ (b.AsksFor p ∨
      ∃ q c erased function body, .built q c erased function body ∈ b.declarations ∧
        IsFree ⟨some q, c, function, body⟩ p) := by
  constructor
  · rintro ⟨way, last, hway, hasks, hsupplied⟩
    cases hway with
    | here => exact ⟨hsupplied b (by simp), .inl hasks⟩
    | down hmem hway =>
      exact ⟨hsupplied b (by simp), .inr ⟨_, _, _, _, _, hmem, _, last, hway, hasks,
        fun passed hpassed => hsupplied passed (by simp [hpassed])⟩⟩
  · rintro ⟨hown, hasks | ⟨q, c, erased, function, body, hmem, way, last, hway, hasks, hsupplied⟩⟩
    · exact ⟨[b], b, .here, hasks, by simpa using hown⟩
    · exact ⟨b :: way, last, .down hmem hway, hasks, List.forall_mem_cons.2 ⟨hown, hsupplied⟩⟩

/-- What a body needs it does not supply, and it is asked for in the body or needed right below. -/
theorem mem_required_iff :
    p ∈ b.required ↔ ¬ b.component.Supplies p ∧ (b.AsksFor p ∨
      ∃ q c erased function body, .built q c erased function body ∈ b.declarations ∧
        p ∈ required ⟨some q, c, function, body⟩) := by
  rw [required, Component.mem_needs, Component.mem_required_iff_asksFor,
    Component.mem_supplied_iff_supplies, and_comm, AsksFor, or_assoc]
  refine and_congr_right fun _ => or_congr_right ?_
  rw [Emission.mem_requiredAll]
  constructor
  · rintro ⟨e, he, hp⟩
    cases e with
    | built q c erased function body => exact .inr ⟨q, c, erased, function, body, he, hp⟩
    | recursive q c function => cases hp
    | renamed q fulfilling erased =>
      rw [Emission.required, List.mem_singleton] at hp
      exact .inl ⟨q, erased, hp ▸ he⟩
  · rintro (⟨q, erased, he⟩ | ⟨q, c, erased, function, body, he, hp⟩)
    · exact ⟨_, he, List.mem_singleton.2 rfl⟩
    · exact ⟨_, he, hp⟩

/-- **What a body needs from outside are its free properties.** -/
theorem mem_required_iff_isFree (b : Body) (p : Property) : p ∈ b.required ↔ b.IsFree p := by
  rw [mem_required_iff, isFree_iff]
  refine and_congr_right fun _ => or_congr_right ?_
  constructor
  · rintro ⟨q, c, erased, function, body, he, hp⟩
    have hsmaller := List.sizeOf_lt_of_mem he
    exact ⟨q, c, erased, function, body, he, (mem_required_iff_isFree _ p).1 hp⟩
  · rintro ⟨q, c, erased, function, body, he, hp⟩
    have hsmaller := List.sizeOf_lt_of_mem he
    exact ⟨q, c, erased, function, body, he, (mem_required_iff_isFree _ p).2 hp⟩
termination_by sizeOf b.declarations
decreasing_by all_goals simp at hsmaller ⊢; omega

end Body

/-- **What is needed around a body are the free properties below it.** That holds for every body that is
emitted for a scope, be it a root's or that of a value. The order of siblings does not matter: if the scope is
emitted with its declarations in another order, the same way down leads to a body for the same, which needs
the same. -/
theorem Scope.required_iff_isFree {scope : Scope} {g : RootEmission} (h : scope.emit = .ok g)
    {outer : List Enclosure} {b : Body} (hb : g.Contains outer b) :
    (∀ p, p ∈ b.required ↔ b.IsFree p) ∧
      ∀ scope' g', scope.IsReordered scope' → scope'.emit = .ok g' →
        ∃ outer' b', g'.Contains outer' b' ∧
          outer'.map (·.body.via) = outer.map (·.body.via) ∧ b.IsReordered b' ∧
          b'.required = b.required := by
  refine ⟨b.mem_required_iff_isFree, ?_⟩
  intro scope' g' hscope h'
  obtain ⟨outer', b', hb', houter, hreordered⟩ := (hscope.emit h h').exists_contains hb
  exact ⟨outer', b', hb', houter, hreordered, hreordered.required_eq⟩

/-- The shop with its declarations the other way round. -/
def turnedShopScope : Scope :=
  ⟨shop, shopScope.bindings.reverse⟩

/-- A counter needs the ledger, for which it asks itself, and not the clerk, for whom its till asks but who is
passed to the counter. It needs the same if the shop opens it before it has a ledger. -/
theorem counterBody_needs_ledger :
    (shopScope.emit = .ok shopEmission ∧ ∃ outer, shopEmission.Contains outer counterBody) ∧
      (⟨"ledger", .simple "Ledger" []⟩ ∈ counterBody.required ∧
        counterBody.IsFree ⟨"ledger", .simple "Ledger" []⟩) ∧
      ⟨"clerk", .simple "Clerk" []⟩ ∉ counterBody.required ∧
      ∃ g', turnedShopScope.emit = .ok g' ∧ ∃ outer' b', g'.Contains outer' b' ∧
        b'.via = some opener ∧ b'.required = counterBody.required := by
  have hshop : shopScope.emit = .ok shopEmission := by with_unfolding_all rfl
  have hcounter : ∃ outer, shopEmission.Contains outer counterBody :=
    ⟨_, .inner .root (show shopEmission.body = shopEmission.body.take 2 ++ _ :: [] from rfl)⟩
  obtain ⟨outer, hb⟩ := hcounter
  obtain ⟨hfree, horder⟩ := Scope.required_iff_isFree hshop hb
  have hledger : counterBody.IsFree ⟨"ledger", .simple "Ledger" []⟩ := by
    refine ⟨[counterBody], counterBody, .here, .inl ⟨⟨⟨"ledger", .simple "Ledger" []⟩, .received⟩,
      by simp [counterBody, counter], .inl ⟨rfl, rfl⟩⟩, ?_⟩
    simp [counterBody, counter, Component.Supplies]
  have hclerk : counterBody.component.Supplies ⟨"clerk", .simple "Clerk" []⟩ :=
    ⟨⟨⟨"clerk", .simple "Clerk" []⟩, .forwarded⟩, by simp [counterBody, counter], rfl, .inr (.inl rfl)⟩
  have hturned : shopScope.IsReordered turnedShopScope :=
    ⟨⟨_, .rfl, rfl⟩, _, Binding.areReordered_refl _, (List.reverse_perm _).symm⟩
  obtain ⟨g', hg'⟩ : ∃ g', turnedShopScope.emit = .ok g' := ⟨_, by with_unfolding_all rfl⟩
  obtain ⟨outer', b', hb', -, hreordered, hrequired⟩ := horder _ g' hturned hg'
  refine ⟨⟨hshop, outer, hb⟩, ⟨(hfree _).2 hledger, hledger⟩, ?_, g', hg', outer', b', hb',
    hreordered.via_eq, hrequired⟩
  intro hmem
  exact (Body.isFree_iff.1 ((hfree _).1 hmem)).1 hclerk

end Wiring
