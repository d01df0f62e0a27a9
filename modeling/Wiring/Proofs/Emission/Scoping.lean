import Wiring.Proofs.Emission.Bodies

/-!
# Every emitted name is declared

What a declaration of a body needs is declared before it, or it is a parameter, or the body itself needs
it from outside. A root needs nothing from outside, so what is read anywhere is declared earlier in the
same body or in one around it, or it is a parameter of one of their functions.

* `Body.WellScoped`: what a body needs and declares.
* `RootEmission.Reads`: what the emitted code refers to, and where.
* `build_well_scoped`: every body is well scoped, and everything that is read can be used there.
-/

namespace Wiring

variable {registry : Registry} {limit : Nat} {root : Component} {g : RootEmission}

/-- The emitted declaration is what the dependency asks for. -/
def Emission.IsFor (d : Dependency) : Emission → Prop
  | .built p _ erased _ _ => d.property = p ∧ ∃ fulfilling, d.origin = .instantiated fulfilling erased
  | .recursive p _ _ => d.property = p ∧ d.isInstantiated = true
  | .renamed p fulfilling erased => d.property = p ∧ d.origin = .aliased fulfilling erased

/-- **A body is well scoped.** -/
structure Body.WellScoped (b : Body) : Prop where
  /-- It has one declaration for each dependency that its component declares. -/
  declares : ∃ declarations, List.Forall₂ Emission.IsFor
      (b.component.dependencies.filter (·.isDeclared)) declarations ∧
    declarations.Perm b.declarations
  /-- What a declaration needs comes from outside, or it is passed in, or it is declared before. -/
  ordered : ∀ earlier e later, b.declarations = earlier ++ e :: later → ∀ p ∈ e.required,
    p ∈ b.required ∨ p ∈ b.parameters ∨ ∃ e' ∈ earlier, e'.property = p
  /-- What the component receives comes from outside, or the component supplies it itself. -/
  received : ∀ d ∈ b.component.dependencies, d.origin = .received →
    d.property ∈ b.component.supplied ∨ d.property ∈ b.required

/-- **The emitted code refers to a property** inside `l`, with `outer` around it: the call that builds the
value passes it after all declarations of the body, or a declaration renames it. The wrapper around a
function refers to nothing but its own parameters. -/
inductive RootEmission.Reads (g : RootEmission) : List Enclosure → Enclosure → Property → Prop
  | argument {outer : List Enclosure} {b : Body} {a : Argument} :
    g.Contains outer b → a ∈ b.component.passed → Reads g outer ⟨b, b.declarations⟩ a.property
  | renamed {outer : List Enclosure} {b : Body} {earlier later : List Emission}
      {p fulfilling : Property} {erased : Bool} :
    g.Contains outer b → b.declarations = earlier ++ .renamed p fulfilling erased :: later →
      Reads g outer ⟨b, earlier⟩ fulfilling

theorem RootEmission.Reads.contains {outer : List Enclosure} {l : Enclosure} {p : Property}
    (h : g.Reads outer l p) : g.Contains outer l.body := by
  cases h <;> assumption

/-! ## Where a property can be used -/

theorem Enclosure.mem_visible {l : Enclosure} {p : Property} :
    p ∈ l.visible ↔ p ∈ l.body.parameters ∨ ∃ e ∈ l.earlier, e.property = p := by
  simp [visible, or_comm]

theorem Body.required_of_needed {b : Body} {p : Property} (hp : p ∈ b.component.required)
    (hsupplied : p ∉ b.component.supplied) : p ∈ b.required :=
  Component.mem_needs.2 ⟨.inl hp, hsupplied⟩

/-- **What a body needs can be used around it**, in the nearest body whose component supplies it. -/
theorem exists_visible_of_required (h : registry.build limit root = .ok g) {p : Property}
    {outer : List Enclosure} {b : Body} (hb : g.Contains outer b) (hp : p ∈ b.required) :
    ∃ newer l older, outer = newer ++ l :: older ∧ p ∈ l.visible ∧
      ∀ l' ∈ newer, p ∉ l'.body.component.supplied := by
  induction hb with
  | root =>
    have hnone : p ∈ g.required := hp
    rw [required_eq_nil_of_build h] at hnone
    cases hnone
  | @inner outer b earlier later body q c erased function hb hsplit ih =>
    have hrequired : p ∈ (Emission.built q c erased function body).required := hp
    have hemitted := emitted_of_contains h hb
    rcases hemitted.declared_before hsplit hrequired with houtside | hinside
    · obtain ⟨newer, l, older, rfl, hl, hnewer⟩ := ih houtside
      have hb : p ∉ b.component.supplied := (Component.mem_needs.1 houtside).2
      exact ⟨⟨b, earlier⟩ :: newer, l, older, rfl, hl, List.forall_mem_cons.2 ⟨hb, hnewer⟩⟩
    · exact ⟨[], ⟨b, earlier⟩, outer, rfl, Enclosure.mem_visible.2 hinside, by simp⟩

/-- What is read can be used in the same body, or the body needs it from outside. -/
theorem visible_or_required_of_reads (h : registry.build limit root = .ok g)
    {outer : List Enclosure} {l : Enclosure} {p : Property} (hreads : g.Reads outer l p) :
    p ∈ l.visible ∨ p ∈ l.body.required := by
  have hemitted := emitted_of_contains h hreads.contains
  cases hreads with
  | @argument b a hb ha =>
    obtain ⟨text, htext⟩ := hemitted.called
    have hperm := (Component.argumentList_eq_ok htext).2
    obtain ⟨d, hd, hproperty⟩ := List.mem_map.1 (hperm.mem_iff.1 (List.mem_map_of_mem ha))
    by_cases hsupplied : a.property ∈ b.component.supplied
    · exact .inl (Enclosure.mem_visible.2 (hemitted.held_of_supplied hsupplied))
    · -- a dependency that the component does not supply is received
      have hreceived : d.isSupplied = false := by
        by_contra hd'
        exact hsupplied (Component.mem_supplied.2 ⟨d, hd, by simpa using hd', hproperty⟩)
      have hrequired : a.property ∈ b.component.required := by
        rw [← hproperty]
        exact List.mem_filterMap.2 ⟨d, hd, Dependency.required?_of_not_supplied hreceived⟩
      exact .inr (Body.required_of_needed hrequired hsupplied)
  | renamed hb hsplit =>
    have hrequired := hemitted.declared_before hsplit (List.mem_singleton.2 rfl)
    rw [← Enclosure.mem_visible, or_comm] at hrequired
    exact hrequired

/-! ## Well-scoped emissions -/

theorem Emission.Fulfills.isFor {frames : List Frame} {d : Dependency} {e : Emission}
    (h : e.Fulfills registry frames d) : e.IsFor d := by
  cases h with
  | renamed horigin => exact ⟨rfl, horigin⟩
  | recursive horigin => exact ⟨rfl, by simp [Dependency.isInstantiated, horigin]⟩
  | built horigin => exact ⟨rfl, _, horigin⟩

theorem Body.Emitted.wellScoped {older : List Frame} {b : Body} (h : b.Emitted registry older) :
    b.WellScoped := by
  refine ⟨?_, fun _ _ _ hsplit _ hp => h.declared_before hsplit hp, ?_⟩
  · obtain ⟨declarations, hfulfills, hperm⟩ := h.fulfills
    exact ⟨declarations, hfulfills.imp fun _ _ hfulfills => hfulfills.isFor, hperm⟩
  · intro d hd horigin
    by_cases hsupplied : d.property ∈ b.component.supplied
    · exact .inl hsupplied
    · have hrequired : d.property ∈ b.component.required :=
        List.mem_filterMap.2 ⟨d, hd, by simp [Dependency.required?, horigin]⟩
      exact .inr (Body.required_of_needed hrequired hsupplied)

/-- **What is emitted for a root is well scoped.** Nothing is needed around the root; every body has one
declaration for each dependency, after what it needs; and whatever the code reads can be used where it
reads it. -/
theorem Registry.build_well_scoped (h : registry.build limit root = .ok g) :
    g.component = root ∧ g.required = [] ∧ (∀ outer b, g.Contains outer b → b.WellScoped) ∧
      ∀ outer l p, g.Reads outer l p → ∃ l' ∈ l :: outer, p ∈ l'.visible := by
  refine ⟨(emitted_of_build h).1, required_eq_nil_of_build h,
    fun _ _ hb => (emitted_of_contains h hb).wellScoped, ?_⟩
  intro outer l p hreads
  rcases visible_or_required_of_reads h hreads with hvisible | hrequired
  · exact ⟨l, List.mem_cons_self, hvisible⟩
  · obtain ⟨newer, l', older, rfl, hvisible, -⟩ :=
      exists_visible_of_required h hreads.contains hrequired
    exact ⟨l', by simp, hvisible⟩

/-- The factory that opens counters for clerks. -/
def opener : Property :=
  ⟨"open", .simple "ForwardingInstantiator" [.simple "Clerk" [], .simple "Counter" []]⟩

/-- A shop keeps a ledger, which it also calls its journal, and opens counters. -/
def shop : Component :=
  ⟨.simple "Shop" [], [], true, none,
    [⟨⟨"journal", .simple "Ledger" []⟩, .aliased ⟨"ledger", .simple "Ledger" []⟩ false⟩,
      ⟨⟨"ledger", .simple "Ledger" []⟩, .instantiated none false⟩,
      ⟨opener, .instantiated none false⟩], .classType⟩

def ledger : Component :=
  ⟨.simple "Ledger" [], [], false, none, [], .structType⟩

/-- A counter is opened for a clerk, writes to the ledger of the shop and has a till. -/
def counter : Component :=
  ⟨.simple "Counter" [], [], false, none,
    [⟨⟨"clerk", .simple "Clerk" []⟩, .forwarded⟩, ⟨⟨"ledger", .simple "Ledger" []⟩, .received⟩,
      ⟨⟨"till", .simple "Till" []⟩, .instantiated none false⟩], .classType⟩

/-- A till belongs to the clerk of its counter and can have further counters opened. -/
def till : Component :=
  ⟨.simple "Till" [], [], false, none,
    [⟨⟨"clerk", .simple "Clerk" []⟩, .received⟩, ⟨opener, .instantiated none false⟩], .classType⟩

/-- The function that opens a counter. -/
def counterBody : Body :=
  ⟨some opener, counter, some "__wg_open",
    [.built ⟨"till", .simple "Till" []⟩ till false (some "__wg_till")
      [.recursive opener counter "__wg_open"]]⟩

/-- What is emitted for the shop: the ledger comes before the journal. -/
def shopEmission : RootEmission :=
  ⟨shop, [.built ⟨"ledger", .simple "Ledger" []⟩ ledger false none [],
    .renamed ⟨"journal", .simple "Ledger" []⟩ ⟨"ledger", .simple "Ledger" []⟩ false,
    .built opener counter false (some "__wg_open") counterBody.declarations]⟩

/-- What is emitted for the shop is well scoped, and every property can be used where it is read. -/
theorem shop_well_scoped :
    Registry.build ⟨[shop, ledger, counter, till]⟩ 256 shop = .ok shopEmission ∧
      shopEmission.required = [] ∧ (∀ outer b, shopEmission.Contains outer b → b.WellScoped) ∧
      ∀ outer l p, shopEmission.Reads outer l p → ∃ l' ∈ l :: outer, p ∈ l'.visible := by
  have hbuild : Registry.build ⟨[shop, ledger, counter, till]⟩ 256 shop = .ok shopEmission := by
    with_unfolding_all rfl
  obtain ⟨-, hrequired, hscoped, hreads⟩ := Registry.build_well_scoped hbuild
  exact ⟨hbuild, hrequired, hscoped, hreads⟩

end Wiring
