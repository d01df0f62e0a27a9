import Wiring.Proofs.Emission.Capture
import Wiring.Proofs.Emission.Free
import Wiring.Proofs.Emission.Functions

/-!
# What a recursion that is cut passes on

Where a factory comes up again below itself, the function around it is used once more. Whatever the
function needs comes from above it, as resolution has found it there. If the producer were entered again
instead, resolution would look from there, and something between the two places may supply the same
property. What the function needs, something in it or below refers to by a label, so that the label has to
denote what resolution has found.

* `Chain.locateIn_again_iff`: where a property is found again further down.
* `RootEmission.ReadsPast`: where a property is read that comes from around a body; `exists_readsPast`:
  whatever a body needs is read somewhere; `lookup_of_readsPast`: what the label denotes there.
* `Registry.recursion_keeps_supplier_iff`: what a recursive reference passes on, and when entering the
  producer again would find the same.
* `recursion_changes_supplier`: this can fail.
-/

namespace Wiring

variable {registry : Registry} {limit : Nat} {root : Component} {g : RootEmission}
  {outer above : List Enclosure} {l : Enclosure} {b f : Body} {older : List Body} {p q : Property}
  {c : Component} {function : String}

/-! ## Looking from further down -/

namespace Chain

/-- Ancestors that do not supply a property are passed over. -/
theorem locateIn_append_of_not_supplied {f : Frame} {older : List Frame}
    (hf : q ∉ f.component.supplied) :
    ∀ {newer : List Frame}, (∀ f' ∈ newer, q ∉ f'.component.supplied) → ∀ frame : Frame,
      locateIn q (frame :: (newer ++ f :: older)) = locateIn q (f :: older)
  | [], _, frame => locateIn_cons_of_not_supplied hf
  | first :: newer, hnewer, frame => by
    obtain ⟨hfirst, hnewer⟩ := List.forall_mem_cons.1 hnewer
    rw [List.cons_append, locateIn_cons_of_not_supplied hfirst]
    exact locateIn_append_of_not_supplied hf hnewer first

/-- **A property is found again further down** at the same ancestor exactly if nothing in between
supplies it. -/
theorem locateIn_again_iff {f frame : Frame} {newer older : List Frame} {index : Nat}
    (hf : q ∉ f.component.supplied) (hlocated : locateIn q (f :: older) = .available index) :
    locateIn q (frame :: (newer ++ f :: older)) = .available index ↔
      ∀ f' ∈ newer, q ∉ f'.component.supplied := by
  constructor
  · intro hagain
    obtain ⟨above, g, rest, habove, hindex, -, -⟩ := exists_supplier_of_locateIn hlocated
    obtain ⟨passed, g', rest', hpassed, hindex', -, hfree⟩ := exists_supplier_of_locateIn hagain
    -- as many ancestors are around both suppliers, so all of `newer` was passed over
    have hlength : (newer ++ f :: above).length = passed.length := by
      have htotal := congrArg List.length hpassed
      rw [habove] at htotal
      simp only [List.length_append, List.length_cons] at htotal ⊢
      omega
    have hsplit : newer ++ f :: above = passed := by
      rw [habove, ← List.cons_append, ← List.append_assoc] at hpassed
      exact (List.append_inj hpassed hlength).1
    intro f' hf'
    exact hfree f' (hsplit ▸ List.mem_append_left _ hf')
  · intro hnewer
    rw [locateIn_append_of_not_supplied hf hnewer, hlocated]

end Chain

/-! ## What is read from around a body -/

/-- **Something reads a property from around a body**: it stands in the body `f` or below, with the bodies
`older` around `f`, it refers to the property, and no component from there up to that of `f` supplies it. -/
def RootEmission.ReadsPast (g : RootEmission) (f : Body) (older : List Body) (q : Property)
    (outer : List Enclosure) (l : Enclosure) : Prop :=
  g.Reads outer l q ∧ ∃ newer, (l :: outer).map (·.body) = newer ++ f :: older ∧
    ∀ b' ∈ newer ++ [f], q ∉ b'.component.supplied

theorem RootEmission.ReadsPast.not_supplied (h : g.ReadsPast f older q outer l) :
    q ∉ l.body.component.supplied := by
  obtain ⟨-, newer, hbodies, hfree⟩ := h
  -- the body of the place is the first one of them
  cases newer with
  | nil =>
    obtain rfl : l.body = f := (List.cons.inj hbodies).1
    exact hfree _ List.mem_cons_self
  | cons first newer =>
    obtain rfl : l.body = first := (List.cons.inj hbodies).1
    exact hfree _ List.mem_cons_self

/-- A property that a body asks for is read there. -/
theorem exists_reads_of_asksFor (h : registry.build limit root = .ok g) (hb : g.Contains outer b)
    (hasks : b.AsksFor q) : ∃ earlier, g.Reads outer ⟨b, earlier⟩ q := by
  have hrenamed : ∀ {p erased}, .renamed p q erased ∈ b.declarations →
      ∃ earlier, g.Reads outer ⟨b, earlier⟩ q := by
    intro p erased hmem
    obtain ⟨earlier, later, hsplit⟩ := List.append_of_mem hmem
    exact ⟨earlier, .renamed hb hsplit⟩
  have hemitted := emitted_of_contains h hb
  rcases hasks with ⟨d, hd, ⟨-, rfl⟩ | ⟨erased, horigin⟩⟩ | ⟨p, erased, hmem⟩
  · -- every dependency is passed to the component when it is built
    obtain ⟨text, htext⟩ := hemitted.called
    have hperm := (Component.argumentList_eq_ok htext).2
    obtain ⟨a, ha, hproperty⟩ := List.mem_map.1 (hperm.mem_iff.2 (List.mem_map_of_mem hd))
    have hreads : g.Reads outer ⟨b, b.declarations⟩ a.property := .argument hb ha
    exact ⟨_, hproperty ▸ hreads⟩
  · obtain ⟨declarations, hfulfills, hperm⟩ := hemitted.fulfills
    have hdeclared : d.isDeclared = true := by simp [Dependency.isDeclared, horigin]
    obtain ⟨e, he, hfulfilled⟩ :=
      exists_of_mem_forall₂ hfulfills.flip d (List.mem_filter.2 ⟨hd, hdeclared⟩)
    cases hfulfilled with
    | renamed horigin' =>
      rw [horigin] at horigin'
      cases horigin'
      exact hrenamed (hperm.mem_iff.1 he)
    | recursive horigin' | built horigin' =>
      rw [horigin] at horigin'
      cases horigin'
  · exact hrenamed hmem

/-- What is asked for at the end of a way down is read from around the body at its start, if it is supplied
nowhere on the way. -/
theorem exists_readsPast_of_reaches {last : Body} {way : List Body}
    (h : registry.build limit root = .ok g) (hway : f.Reaches way last) (hasks : last.AsksFor q)
    (hfree : ∀ b ∈ way, q ∉ b.component.supplied) :
    ∀ {above : List Enclosure}, g.Contains above f →
      ∃ outer l, g.ReadsPast f (above.map (·.body)) q outer l := by
  induction hway with
  | here =>
    intro above hf
    obtain ⟨earlier, hreads⟩ := exists_reads_of_asksFor h hf hasks
    exact ⟨above, _, hreads, [], rfl, hfree⟩
  | @down f last way p c erased function body hmem _ ih =>
    intro above hf
    obtain ⟨earlier, later, hsplit⟩ := List.append_of_mem hmem
    obtain ⟨hown, hway⟩ := List.forall_mem_cons.1 hfree
    obtain ⟨outer, l, hreads, newer, hbodies, hnewer⟩ := ih hasks hway (.inner hf hsplit)
    refine ⟨outer, l, hreads, newer ++ [⟨some p, c, function, body⟩], ?_, ?_⟩
    · rw [hbodies, List.append_assoc]
      rfl
    · rw [List.forall_mem_append]
      exact ⟨hnewer, List.forall_mem_singleton.2 hown⟩

/-- **What a body needs is read from around it.** -/
theorem exists_readsPast (h : registry.build limit root = .ok g) (hf : g.Contains above f)
    (hq : q ∈ f.required) :
    ∃ outer l, g.ReadsPast f (above.map (·.body)) q outer l := by
  obtain ⟨way, last, hway, hasks, hfree⟩ := (Body.mem_required_iff_isFree f q).1 hq
  refine exists_readsPast_of_reaches h hway hasks (fun b hb hsupplied => ?_) hf
  exact hfree b hb (Component.mem_supplied_iff_supplies.1 hsupplied)

/-- Looking from where a property is read past a body, and from that body, resolution finds the same. -/
theorem locateIn_of_readsPast (h : g.ReadsPast f older q outer l) :
    Chain.locateIn q ((l :: outer).map (·.body.frame)) =
      Chain.locateIn q ((f :: older).map Body.frame) := by
  obtain ⟨-, newer, hbodies, hfree⟩ := h
  obtain ⟨hnewer, hf⟩ := List.forall_mem_append.1 hfree
  have hframes : (l :: outer).map (·.body.frame) = (newer ++ f :: older).map Body.frame := by
    rw [← hbodies, List.map_map]
    rfl
  rw [hframes]
  cases newer with
  | nil => rfl
  | cons first newer =>
    obtain ⟨-, hnewer⟩ := List.forall_mem_cons.1 hnewer
    have hf : q ∉ f.frame.component.supplied := hf f List.mem_cons_self
    rw [List.cons_append, List.map_cons, List.map_append, List.map_cons]
    exact Chain.locateIn_append_of_not_supplied hf (List.forall_mem_map.2 hnewer) _

/-- **The label denotes what resolution has found at a body** where a property is read past it, if no other
property of that label can be used from the supplier's body down to there. -/
theorem lookup_of_readsPast {index : Nat} (h : registry.build limit root = .ok g)
    (hreads : g.ReadsPast f older q outer l)
    (hlocated : Chain.locateIn q ((f :: older).map Body.frame) = .available index)
    (hunique : ∀ l' ∈ (l :: outer).take (outer.length + 1 - index), ∀ q' ∈ l'.visible,
      q'.label = q.label → q' = q) :
    Enclosure.lookup q.label (l :: outer) = some (index, q) := by
  rw [← locateIn_of_readsPast hreads] at hlocated
  have hl := hreads.not_supplied
  replace hreads : g.Reads outer l q := hreads.1
  have hlvisible : q ∉ l.visible :=
    fun hvisible => hl (mem_supplied_of_visible h hreads.contains hreads.earlier_subset hvisible)
  have hrequired := (visible_or_required_of_reads h hreads).resolve_left hlvisible
  obtain ⟨passed, l', rest, rfl, rfl, hvisible, hpassed⟩ :=
    exists_visible_of_located h hreads.contains hrequired hlocated
  have hplace : l :: (passed ++ l' :: rest) = (l :: passed) ++ l' :: rest := rfl
  rw [take_within hplace] at hunique
  obtain ⟨hinside, hsupplier⟩ := List.forall_mem_append.1 hunique
  refine lookup_eq_some_iff.2 ⟨l :: passed, l', rest, hplace, rfl, ?_, fun l'' hl'' q' hq' hlabel => ?_⟩
  · exact find?_visible_of_unique hvisible (hsupplier l' List.mem_cons_self)
  · -- what has the label is the property itself, and none of these bodies supplies that
    rw [hinside l'' hl'' q' hq' hlabel] at hq'
    rcases List.mem_cons.1 hl'' with rfl | hl''
    · exact hlvisible hq'
    · obtain ⟨before, after, rfl⟩ := List.append_of_mem hl''
      obtain ⟨hcontains, hearlier⟩ :=
        contains_of_mem_outer hreads.contains (List.append_assoc before (l'' :: after) (l' :: rest))
      exact hpassed l'' hl'' (mem_supplied_of_visible h hcontains hearlier hq')

/-! ## Recursive references -/

/-- A body around something is emitted below those around it. -/
theorem emitted_of_append (h : registry.build limit root = .ok g) (hb : g.Contains outer b)
    {inner older : List Body} (hsplit : b :: outer.map (·.body) = inner ++ f :: older) :
    f.Emitted registry (older.map Body.frame) := by
  obtain ⟨above, hf, rfl⟩ := exists_contains_of_append hb hsplit
  rw [List.map_map]
  exact emitted_of_contains h hf

/-- **What a recursive reference passes on.** It refers to the nearest function around it that builds its
property from its component. Whatever that function needs, its component does not supply itself, and
resolution has found it above; entering the producer again where the reference stands would find the same
ancestor exactly if no component from there up to the function supplies the property.

The values that the reference builds get the property where something in the function or below reads it past
the function. There the label denotes the declaration of that ancestor, if no other property of that label
can be used from the ancestor's body down to the place. -/
theorem Registry.recursion_keeps_supplier_iff (h : registry.build limit root = .ok g)
    (hb : g.Contains outer b) (hr : Emission.recursive p c function ∈ b.declarations) :
    ∃ inner f older, b :: outer.map (·.body) = inner ++ f :: older ∧ f.Builds p c function ∧
      (∀ b' ∈ inner, ∀ name, ¬ b'.Builds p c name) ∧
      ∀ q ∈ f.required, q ∉ f.component.supplied ∧ (∃ place l, g.ReadsPast f older q place l) ∧
        ∃ index, Chain.locateIn q (f.frame :: older.map Body.frame) = .available index ∧
          (Chain.locateIn q (⟨c, some p⟩ :: (inner ++ f :: older).map Body.frame) =
              .available index ↔
            ∀ b' ∈ inner, q ∉ b'.component.supplied) ∧
          ∀ place l, g.ReadsPast f older q place l →
            (∀ l' ∈ (l :: place).take (place.length + 1 - index), ∀ q' ∈ l'.visible,
              q'.label = q.label → q' = q) →
            Enclosure.lookup q.label (l :: place) = some (index, q) := by
  obtain ⟨scope, -, hemit⟩ := Registry.build_eq_ok h
  obtain ⟨inner, f, older, hsplit, hbuilds, hnearest⟩ := builds_of_recursive hemit hb hr
  obtain ⟨above, hf, rfl⟩ := exists_contains_of_append hb hsplit
  refine ⟨inner, f, _, hsplit, hbuilds, hnearest, ?_⟩
  intro q hq
  have hsupplied : q ∉ f.component.supplied := (Component.mem_needs.1 hq).2
  have hemitted := emitted_of_append h hb hsplit
  obtain ⟨index, hlocated⟩ := hemitted.located_of_required hq
  refine ⟨hsupplied, exists_readsPast h hf hq, index, hlocated, ?_, ?_⟩
  · have hsupplied : q ∉ f.frame.component.supplied := hsupplied
    rw [List.map_append, List.map_cons, Chain.locateIn_again_iff hsupplied hlocated,
      List.forall_mem_map]
    rfl
  · exact fun place l hreads hunique => lookup_of_readsPast h hreads hlocated hunique

/-- The property of the shop's ledger. -/
def shopLedger : Property :=
  ⟨"ledger", .simple "Ledger" []⟩

/-- The body of the shop. -/
def shopBody : Body :=
  ⟨none, shop, none, shopEmission.body⟩

/-- The body of a till. -/
def tillBody : Body :=
  ⟨some ⟨"till", .simple "Till" []⟩, till, some "__wg_till",
    [.recursive opener counter "__wg_open"]⟩

/-- The till refers to the function that opens counters, and the counters opened by it get the ledger of
the shop, as they would if the till had a function of its own. -/
theorem till_keeps_ledger :
    Registry.build ⟨[shop, ledger, counter, till]⟩ 256 shop = .ok shopEmission ∧
      (∃ outer, shopEmission.Contains outer tillBody ∧
        outer.map (·.body) = [counterBody, shopBody]) ∧
      Emission.recursive opener counter "__wg_open" ∈ tillBody.declarations ∧
      counterBody.Builds opener counter "__wg_open" ∧
      Chain.locateIn shopLedger [counterBody.frame, shopBody.frame] = .available 0 ∧
      Chain.locateIn shopLedger
        [⟨counter, some opener⟩, tillBody.frame, counterBody.frame, shopBody.frame] = .available 0 ∧
      ∃ place, shopEmission.Reads place ⟨counterBody, counterBody.declarations⟩ shopLedger ∧
        Enclosure.lookup "ledger" (⟨counterBody, counterBody.declarations⟩ :: place) =
          some (0, shopLedger) := by
  have hbuild : Registry.build ⟨[shop, ledger, counter, till]⟩ 256 shop = .ok shopEmission := by
    with_unfolding_all rfl
  have hcounter : shopEmission.Contains [⟨shopBody, shopBody.declarations.take 2⟩] counterBody :=
    .inner .root rfl
  have htill : shopEmission.Contains [⟨counterBody, []⟩, _] tillBody :=
    .inner hcounter (List.nil_append _).symm
  have hreads : shopEmission.Reads _ ⟨counterBody, counterBody.declarations⟩ shopLedger :=
    .argument (a := ⟨none, "ledger", .simple "Ledger" [], false⟩) hcounter (by decide)
  obtain ⟨inner, f, older, hsplit, hbuilds, -, hkeeps⟩ :=
    Registry.recursion_keeps_supplier_iff hbuild htill List.mem_cons_self
  -- of the bodies around the till, only that of the counter builds counters
  obtain ⟨rfl, rfl, rfl⟩ : inner = [tillBody] ∧ f = counterBody ∧ older = [shopBody] := by
    match inner, hsplit with
    | [], hsplit =>
      cases hsplit
      exact absurd hbuilds.1 (by decide)
    | [first], hsplit =>
      cases hsplit
      exact ⟨rfl, rfl, rfl⟩
    | [first, second], hsplit =>
      cases hsplit
      cases hbuilds.1
    | first :: second :: third :: inner, hsplit => simp at hsplit
  have hledger : shopLedger ∈ counterBody.required :=
    Body.required_of_needed (by decide) (by decide)
  obtain ⟨-, -, index, hlocated, hagain, hlookup⟩ := hkeeps shopLedger hledger
  have hfound : Chain.locateIn shopLedger [counterBody.frame, shopBody.frame] = .available 0 := rfl
  cases hfound.symm.trans hlocated
  have hpast : shopEmission.ReadsPast counterBody [shopBody] shopLedger _ _ :=
    ⟨hreads, [], rfl, List.forall_mem_singleton.2 (by decide)⟩
  exact ⟨hbuild, ⟨_, htill, rfl⟩, List.mem_cons_self, hbuilds, hlocated,
    hagain.2 (List.forall_mem_singleton.2 (by decide)), _, hreads,
    hlookup _ _ hpast (by with_unfolding_all decide)⟩

/-! ## A supplier that changes -/

/-- The water that drives a wheel. -/
def water : Property :=
  ⟨"water", .simple "Water" []⟩

/-- The factory of wheels. -/
def wheels : Property :=
  ⟨"wheel", .simple "Instantiator" [.simple "Wheel" []]⟩

/-- A mill has water and makes wheels. -/
def mill : Component :=
  ⟨.simple "Mill" [], [], true, none,
    [⟨water, .instantiated none false⟩, ⟨wheels, .instantiated none false⟩], .classType⟩

/-- A wheel gets its water from around it. -/
def wheel : Component :=
  ⟨.simple "Wheel" [], [], false, none,
    [⟨water, .received⟩, ⟨⟨"hub", .simple "Hub" []⟩, .instantiated none false⟩], .classType⟩

/-- The hub of a wheel has water of its own and makes wheels again. -/
def hub : Component :=
  ⟨.simple "Hub" [], [], false, none,
    [⟨water, .instantiated none false⟩, ⟨wheels, .instantiated none false⟩], .classType⟩

def waterComponent : Component :=
  ⟨.simple "Water" [], [], false, none, [], .structType⟩

/-- The body of the hub. -/
def hubBody : Body :=
  ⟨some ⟨"hub", .simple "Hub" []⟩, hub, some "__wg_hub",
    [.built water waterComponent false none [], .recursive wheels wheel "__wg_wheel"]⟩

/-- The function that makes wheels. -/
def wheelBody : Body :=
  ⟨some wheels, wheel, some "__wg_wheel",
    [.built ⟨"hub", .simple "Hub" []⟩ hub false (some "__wg_hub") hubBody.declarations]⟩

/-- What is emitted for the mill. -/
def millEmission : RootEmission :=
  ⟨mill, [.built water waterComponent false none [],
    .built wheels wheel false (some "__wg_wheel") wheelBody.declarations]⟩

/-- **Cutting a recursion can change a supplier.** The hub makes wheels by the function of the mill, which
needs water; so these wheels get the water of the mill, though the hub has water as well. -/
theorem recursion_changes_supplier :
    ¬ ∀ (components : List Component) (registry : Registry) (limit : Nat) (root : Component)
        (g : RootEmission) (outer : List Enclosure) (b : Body) (p : Property) (c : Component)
        (function : String) (inner : List Body) (f : Body) (older : List Body) (q : Property),
      Registry.register components = .ok registry → root ∈ registry.roots →
      registry.build limit root = .ok g → g.Contains outer b →
      Emission.recursive p c function ∈ b.declarations →
      b :: outer.map (·.body) = inner ++ f :: older → f.Builds p c function →
      (∀ b' ∈ inner, ∀ name, ¬ b'.Builds p c name) → q ∈ f.required →
      ∀ b' ∈ inner ++ [f], q ∉ b'.component.supplied := by
  intro h
  have hregister : Registry.register [mill, wheel, hub, waterComponent] =
      .ok ⟨[mill, wheel, hub, waterComponent]⟩ := by rfl
  have hbuild : Registry.build ⟨[mill, wheel, hub, waterComponent]⟩ 256 mill = .ok millEmission := by
    with_unfolding_all rfl
  have hwheel : millEmission.Contains
      [⟨⟨none, mill, none, millEmission.body⟩, millEmission.body.take 1⟩] wheelBody :=
    .inner .root rfl
  have hhub : millEmission.Contains
      [⟨wheelBody, []⟩, ⟨⟨none, mill, none, millEmission.body⟩, millEmission.body.take 1⟩] hubBody :=
    .inner hwheel (List.nil_append _).symm
  have hnearest : ∀ b' ∈ [hubBody], ∀ name, ¬ b'.Builds wheels wheel name := by
    intro b' hb' name hbuilds
    rw [List.mem_singleton.1 hb'] at hbuilds
    exact absurd hbuilds.1 (by decide)
  have hwater : water ∈ wheelBody.required := Body.required_of_needed (by decide) (by decide)
  have hfree := h _ _ 256 mill millEmission _ hubBody wheels wheel "__wg_wheel" [hubBody] wheelBody
    [⟨none, mill, none, millEmission.body⟩] water hregister (by decide) hbuild hhub
    (List.mem_cons_of_mem _ List.mem_cons_self) rfl ⟨rfl, rfl, rfl⟩ hnearest hwater
  exact hfree hubBody List.mem_cons_self (by decide)

end Wiring
