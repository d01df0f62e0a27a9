import Wiring.Proofs.Resolution.Edited
import Wiring.Proofs.Resolution.Receiving

/-!
# Suggested repairs are accepted

Three reports say what to write instead. A property whose producer has something forwarded to it should be
a factory; a factory that passes on the wrong arguments should have the right ones in its type; and a
factory that is received below the place where it is being made should be instantiated there. Whoever
follows the advice meets the same checks again.

The checks agree with the advice because the wrapper of a type depends on its name and the number of its
generic arguments only, and what it makes on the last of them. So the look-up finds the producer that it
found, and the first argument can be set right. In the third case the chain has come through the very
property that is received, from the supplier to the component that the factory makes; so what the supplier
looks up is found, and it is on the chain already.

* `TypeExpr.wrapper?_withGeneric`, `TypeExpr.produced_withGeneric`: what setting an argument keeps.
* `Property.Fits`: what is checked of a property and its producer, apart from the look-up.
* `fits_of_expected`: the suggested type fits.
* `Registry.Steps`, `steps_of_visits`: how a chain goes on from a component to the next one.
* `Registry.suggested_repairs_accepted`: each repair, where it is suggested and after it has been made.
-/

namespace Wiring

open Resolution

variable {registry : Registry} {limit : Nat} {root c q : Component} {chain next : Chain}
  {via : Option Property} {p : Property} {d : Dependency} {f : Fault} {t type : TypeExpr}

/-! ## Arguments of a wrapper -/

namespace TypeExpr

variable {i : Nat} {x : TypeExpr} {w : Wrapper}

theorem generics_withGeneric (t : TypeExpr) (i : Nat) (x : TypeExpr) :
    (t.withGeneric i x).generics = t.generics.set i x := by
  cases t <;> simp [withGeneric, generics]

/-- A type with another argument has the same wrapper. -/
theorem wrapper?_withGeneric (t : TypeExpr) (i : Nat) (x : TypeExpr) :
    (t.withGeneric i x).wrapper? = t.wrapper? := by
  cases t <;> simp [withGeneric, wrapper?]

/-- A wrapper has as many arguments as it takes. -/
theorem length_generics_of_wrapper? (h : t.wrapper? = some w) : t.generics.length = w.arity := by
  have hname : ∀ {name : String} {n : Nat}, Wrapper.ofName? name n = some w → n = w.arity := by
    intro name n hfound
    have hfits := List.find?_some hfound
    simp only [Bool.and_eq_true, decide_eq_true_eq] at hfits
    exact hfits.2.symm
  cases t with
  | simple name generics => exact hname h
  | nested name parent generics =>
    rw [wrapper?] at h
    split at h
    · exact hname h
    · cases h
  | _ => cases h

/-- A wrapper that says what it passes on has two arguments. -/
theorem exists_generics_of_forwards (h : t.wrapper?.any (·.forwards) = true) :
    ∃ arguments made, t.generics = [arguments, made] := by
  obtain ⟨w, hw, hforwards⟩ := (Option.any_eq_true _ _).1 h
  have hlength := length_generics_of_wrapper? hw
  rw [Wrapper.arity, if_pos hforwards] at hlength
  exact List.length_eq_two.1 hlength

theorem isDeferred_of_forwards (h : t.wrapper?.any (·.forwards) = true) : t.isDeferred = true := by
  obtain ⟨w, hw, -⟩ := (Option.any_eq_true _ _).1 h
  rw [isDeferred, hw, Option.isSome_some]

theorem isDeferred_withGeneric (t : TypeExpr) (i : Nat) (x : TypeExpr) :
    (t.withGeneric i x).isDeferred = t.isDeferred := by
  rw [isDeferred, isDeferred, wrapper?_withGeneric]

/-- **A wrapper that passes on other arguments** makes the same, and its type says what it passes on. -/
theorem produced_withGeneric (h : t.wrapper?.any (·.forwards) = true) :
    (t.withGeneric 0 x).produced = t.produced ∧ (t.withGeneric 0 x).generics.head? = some x := by
  obtain ⟨arguments, made, hgenerics⟩ := exists_generics_of_forwards h
  have hdeferred := isDeferred_of_forwards h
  constructor
  · rw [produced, produced, isDeferred_withGeneric, if_pos hdeferred, if_pos hdeferred,
      generics_withGeneric, hgenerics]
    rfl
  · rw [generics_withGeneric, hgenerics]
    rfl

end TypeExpr

/-! ## Types that are suggested -/

/-- The type that a report suggests for a property. -/
def Fault.expected? : Fault → Option TypeExpr
  | .forwardedOnInstantiated _ _ expected | .genericMismatch _ _ expected => some expected
  | _ => none

/-- The dependency with its property of another type. -/
def Dependency.retyped (d : Dependency) (t : TypeExpr) : Dependency :=
  ⟨⟨d.property.label, t⟩, d.origin⟩

/-- **The property can have its value from the component**: a component that has something forwarded to it
needs a factory, and a factory with arguments needs the right ones. -/
def Property.Fits (p : Property) (q : Component) : Prop :=
  (p.isDeferred = false → q.hasForwarded = false) ∧
    (p.type.wrapper?.any (·.forwards) = true → p.type.generics.head? = some q.forwardedType)

/-- **The suggested type fits.** The producer is there, it is looked up under the same type, and the
property of the suggested type can have its value from it. -/
theorem fits_of_expected (h : producer registry c p type = .error f)
    (hexpected : f.expected? = some t) :
    ∃ q, registry.fulfilling type = some q ∧ t.produced = p.type.produced ∧
      Property.Fits ⟨p.label, t⟩ q := by
  rcases cases_of_producer h with ⟨-, rfl⟩ | ⟨q, hq, ⟨hconstant, -, rfl⟩ | ⟨hforwards, -, rfl⟩⟩
  · cases hexpected
  · -- a factory without arguments makes what the constant was
    cases hexpected
    have hwrapper : (TypeExpr.simple Wrapper.instantiator.name [p.type]).wrapper? =
        some .instantiator := rfl
    have hproduced : (TypeExpr.simple Wrapper.instantiator.name [p.type]).produced = p.type := rfl
    have hown : p.type.produced = p.type := by
      rw [TypeExpr.produced, if_neg]
      rw [← Property.isDeferred, hconstant]
      exact Bool.false_ne_true
    refine ⟨q, hq, hproduced.trans hown.symm, ?_, ?_⟩
    · intro hdeferred
      cases hdeferred
    · intro hforwards
      rw [hwrapper] at hforwards
      cases hforwards
  · cases hexpected
    obtain ⟨hproduced, hhead⟩ := TypeExpr.produced_withGeneric (x := q.forwardedType) hforwards
    refine ⟨q, hq, hproduced, ?_, fun _ => hhead⟩
    intro hconstant
    rw [Property.isDeferred, TypeExpr.isDeferred_withGeneric,
      TypeExpr.isDeferred_of_forwards hforwards] at hconstant
    cases hconstant

/-- **A dependency is accepted** where `c` ends the chain: the producer is found under the type, and nothing
is wrong with the dependency itself. -/
structure Dependency.AcceptedAt (d : Dependency) (registry : Registry) (chain : Chain) (c : Component)
    (isRoot : Bool) (type : TypeExpr) (q : Component) : Prop where
  looked : d.producedType? = some type
  found : registry.fulfilling type = some q
  faultless : ownFaults registry chain c isRoot d = []

theorem Dependency.acceptedAt_of_fits {isRoot : Bool} (hlooked : d.producedType? = some type)
    (hfound : registry.fulfilling type = some q) (hfits : d.property.Fits q) :
    d.AcceptedAt registry chain c isRoot type q := by
  refine ⟨hlooked, hfound, List.eq_nil_iff_forall_not_mem.2 ?_⟩
  intro f hf
  unfold producedType? at hlooked
  split at hlooked
  · rename_i fulfilling erased horigin
    cases hlooked
    rw [mem_ownFaults_iff, horigin] at hf
    simp only at hf
    have hproducer : producer registry c d.property (fulfilling.getD d.property.type.produced) =
        .ok q := producer_eq_ok_iff.2 ⟨hfound, hfits⟩
    rw [hproducer] at hf
    cases hf
  · cases hlooked

/-! ## How a chain goes on -/

/-- **The chain goes on from a component to the next one through a dependency** on `p` with the fulfilling
type that is given. -/
structure Registry.Through (registry : Registry) (supplier child : Frame) (p : Property)
    (fulfilling : Option TypeExpr) : Prop where
  via : child.via = some p
  declared : ∃ erased, ⟨p, .instantiated fulfilling erased⟩ ∈ supplier.component.dependencies
  found : registry.fulfilling (fulfilling.getD p.type.produced) = some child.component

/-- A step of a chain: it goes through a dependency that the next component fits. -/
def Registry.Steps (registry : Registry) (supplier child : Frame) : Prop :=
  ∃ p fulfilling, registry.Through supplier child p fulfilling ∧ p.Fits child.component

/-- **A chain that resolution comes to goes on by steps.** -/
theorem steps_of_visits (h : registry.Visits limit root chain c via) :
    (⟨c, via⟩ :: chain.frames).IsChain fun child supplier => registry.Steps supplier child := by
  induction h with
  | root => exact .singleton _
  | @onward chain next c q via d _ henter hd hleads ih =>
    obtain ⟨fulfilling, erased, horigin, hproducer, -⟩ := hleads
    obtain ⟨hfound, hfits⟩ := producer_eq_ok_iff.1 hproducer
    have hdeclared : ⟨d.property, .instantiated fulfilling erased⟩ ∈ c.dependencies := by
      rw [← horigin]
      exact hd
    rw [Chain.frames_of_enter henter]
    exact List.isChain_cons_cons.2
      ⟨⟨d.property, fulfilling, ⟨rfl, ⟨erased, hdeclared⟩, hfound⟩, hfits⟩, ih⟩

/-- **A dependency refers back**: it resolves to a reference to a factory that is being made, and nothing is
reported, whatever there may be below. -/
def Dependency.RefersBackAt (d : Dependency) (registry : Registry) (chain : Chain) (c : Component)
    (isRoot : Bool) (q : Component) : Prop :=
  ∀ below log, dependency registry chain c isRoot below d log =
    (some (.recursive d.property q), log)

theorem Dependency.refersBackAt {fulfilling : Option TypeExpr} {erased isRoot : Bool}
    (hfound : registry.fulfilling (fulfilling.getD p.type.produced) = some q) (hfits : p.Fits q)
    (hback : chain.hasDeferredStep p q.concreteType = true) :
    Dependency.RefersBackAt ⟨p, .instantiated fulfilling erased⟩ registry chain c isRoot q := by
  intro below log
  have hproducer : producer registry c p (fulfilling.getD p.type.produced) = .ok q :=
    producer_eq_ok_iff.2 ⟨hfound, hfits⟩
  simp only [dependency, hproducer, hback, if_true]

/-! ## The repairs -/

/-- What has a suggestion leads nowhere. -/
theorem not_leadsTo_of_mem_ownFaults {isRoot : Bool} {chain' : Chain}
    (hf : f ∈ ownFaults registry chain c isRoot d) : ¬ LeadsTo registry chain' c d q := by
  rintro ⟨fulfilling, erased, horigin, hproducer, -⟩
  rw [mem_ownFaults_iff, horigin] at hf
  simp only [hproducer] at hf
  cases hf

/-- A type is suggested for an instantiated dependency, instead of one that does not fit. -/
theorem exists_producer_of_expected {isRoot : Bool} (hf : f ∈ ownFaults registry chain c isRoot d)
    (hexpected : f.expected? = some t) :
    ∃ fulfilling erased, d.origin = .instantiated fulfilling erased ∧
      producer registry c d.property (fulfilling.getD d.property.type.produced) = .error f := by
  have hreceiving : ∀ p, f ∉ receivingFaults chain c p := by
    intro p hmem
    rcases cases_of_mem_receivingFaults hmem with ⟨-, rfl⟩ | ⟨_, _, -, ⟨-, rfl⟩ | ⟨-, rfl⟩⟩ <;>
      cases hexpected
  rw [mem_ownFaults_iff] at hf
  cases horigin : d.origin with
  | forwarded =>
    rw [horigin] at hf
    rw [hf.2] at hexpected
    cases hexpected
  | received =>
    rw [horigin] at hf
    exact absurd hf (hreceiving _)
  | aliased fulfilling erased =>
    rw [horigin] at hf
    exact absurd hf.2 (hreceiving _)
  | instantiated fulfilling erased =>
    rw [horigin] at hf
    exact ⟨fulfilling, erased, rfl, hf⟩

/-- **Where a factory is received below the place where it is being made**, the chain has gone on through
that factory from the nearest component that supplies it. -/
theorem exists_through_of_deferredCycle (hvisits : registry.Visits limit root chain c via)
    (henter : chain.enter c via = .ok next) (horigin : d.origin = .received)
    {receiver : TypeExpr} {cycle : List TypeExpr}
    (hf : .deferredCycle p receiver cycle ∈ ownFaults registry next c via.isNone d) :
    ∃ newer child supplier rest, next.frames = newer ++ child :: supplier :: rest ∧
      (∀ g ∈ (newer ++ [child]).tail, p ∉ g.component.supplied) ∧
      (∃ fulfilling, registry.Through supplier child p fulfilling) ∧
      p.Fits child.component ∧ next.hasDeferredStep p child.component.concreteType = true := by
  rw [mem_ownFaults_iff, horigin] at hf
  rcases cases_of_mem_receivingFaults hf with
    ⟨-, hfault⟩ | ⟨index, instantiator, hlocate, ⟨-, hfault⟩ | ⟨hdeferred, hfault⟩⟩
  · cases hfault
  · cases hfault
  · cases hfault
    have hframes := Chain.frames_of_enter henter
    rw [Chain.locate, hframes] at hlocate
    obtain ⟨newer, child, supplier, rest, hsplit, -, -, hvia, hnearest⟩ :=
      Chain.exists_supplier_of_underConstruction hlocate
    -- the step from the supplier is one of the chain's own
    have hchain := steps_of_visits hvisits
    rw [hsplit] at hchain
    have hstep := (List.isChain_cons_cons.1 (List.isChain_append.1 hchain).2.1).1
    obtain ⟨p', fulfilling, hthrough, hfits⟩ := hstep
    have hp : p' = d.property := Option.some.inj (hthrough.via.symm.trans hvia)
    subst hp
    have hback : next.hasDeferredStep d.property child.component.concreteType = true := by
      refine Chain.hasDeferredStep_eq_true_iff.2 ⟨hdeferred, child, ?_, hvia, rfl⟩
      rw [hframes, hsplit]
      simp
    exact ⟨newer, child, supplier, rest, hframes.trans hsplit, hnearest, ⟨fulfilling, hthrough⟩, hfits,
      hback⟩

theorem Edit.fits_apply {edit : Edit} (h : edit.KeepsForwarded) :
    p.Fits (edit.apply q) ↔ p.Fits q := by
  unfold Property.Fits
  rw [Edit.hasForwarded_apply h, Edit.forwardedType_apply h]

/-- **Suggested repairs are accepted.** Let resolution come to a component, enter it and find something wrong
with one of its dependencies.

* If a type is suggested for the property, the dependency with that type looks its producer up under the
  same type as before, which is found, and nothing is wrong with the dependency itself.
* If a received factory is reported as a cycle, the chain goes on through that factory from the nearest
  component that supplies it. Let the dependency be instantiated instead, with the fulfilling type of a
  dependency of that component which the chain goes on through. Then it resolves to a reference to the
  factory, and nothing is reported.

Both hold at the place where the report is made. They hold as well after the component has been edited: the
components register again, resolution comes to the place again, and the edited dependency is accepted. -/
theorem Registry.suggested_repairs_accepted {components : List Component}
    (hregister : Registry.register components = .ok registry)
    (hvisits : registry.Visits limit root chain c via) (henter : chain.enter c via = .ok next)
    (hd : d ∈ c.dependencies) (hf : f ∈ ownFaults registry next c via.isNone d) :
    (∀ expected, f.expected? = some expected →
      let repaired := d.retyped expected
      let edit : Edit := ⟨c, d, repaired⟩
      ∃ type q, d.producedType? = some type ∧
        repaired.AcceptedAt registry next c via.isNone type q ∧
        edit.Reaches components registry limit root chain next via ∧
        repaired.AcceptedAt (edit.registry registry) (edit.chain next) (edit.apply c) via.isNone type
          (edit.apply q)) ∧
    ∀ p receiver cycle, d.origin = .received → f = .deferredCycle p receiver cycle →
      ∃ newer child supplier rest, next.frames = newer ++ child :: supplier :: rest ∧
        (∀ g ∈ (newer ++ [child]).tail, p ∉ g.component.supplied) ∧
        (∃ fulfilling, registry.Through supplier child p fulfilling) ∧
        ∀ fulfilling, registry.Through supplier child p fulfilling → ∀ erased,
          let repaired : Dependency := ⟨p, .instantiated fulfilling erased⟩
          let edit : Edit := ⟨c, d, repaired⟩
          repaired.RefersBackAt registry next c via.isNone child.component ∧
          edit.Reaches components registry limit root chain next via ∧
          repaired.RefersBackAt (edit.registry registry) (edit.chain next) (edit.apply c) via.isNone
            (edit.apply child.component) := by
  have hstuck : ∀ chain' q, ¬ LeadsTo registry chain' c d q :=
    fun _ _ => not_leadsTo_of_mem_ownFaults hf
  constructor
  · intro expected hexpected repaired edit
    obtain ⟨fulfilling, erased, horigin, hproducer⟩ := exists_producer_of_expected hf hexpected
    obtain ⟨q, hfound, hproduced, hfits⟩ := fits_of_expected hproducer hexpected
    have hkeeps : edit.KeepsForwarded := by
      constructor <;> simp [edit, repaired, Dependency.retyped, Dependency.isForwarded, horigin]
    have hlooked : d.producedType? = some (fulfilling.getD d.property.type.produced) := by
      rw [Dependency.producedType?, horigin]
    have hlooked' : repaired.producedType? = some (fulfilling.getD d.property.type.produced) := by
      simp only [repaired, Dependency.producedType?, Dependency.retyped, horigin, hproduced]
    have hfound' : (edit.registry registry).fulfilling (fulfilling.getD d.property.type.produced) =
        some (edit.apply q) := by
      rw [Edit.fulfilling_edited, hfound, Option.map_some]
    refine ⟨_, q, hlooked, Dependency.acceptedAt_of_fits hlooked' hfound hfits,
      Edit.reaches hkeeps hstuck hregister hvisits henter hd, ?_⟩
    exact Dependency.acceptedAt_of_fits hlooked' hfound' ((Edit.fits_apply hkeeps).2 hfits)
  · rintro p receiver cycle horigin rfl
    obtain ⟨newer, child, supplier, rest, hframes, hnearest, hsome, hfits, hback⟩ :=
      exists_through_of_deferredCycle hvisits henter horigin hf
    refine ⟨newer, child, supplier, rest, hframes, hnearest, hsome, ?_⟩
    intro fulfilling hthrough erased repaired edit
    have hkeeps : edit.KeepsForwarded := by
      constructor <;> simp [edit, repaired, Dependency.isForwarded, horigin]
    have hfound' : (edit.registry registry).fulfilling (fulfilling.getD p.type.produced) =
        some (edit.apply child.component) := by
      rw [Edit.fulfilling_edited, hthrough.found, Option.map_some]
    refine ⟨Dependency.refersBackAt hthrough.found hfits hback,
      Edit.reaches hkeeps hstuck hregister hvisits henter hd, ?_⟩
    apply Dependency.refersBackAt hfound' ((Edit.fits_apply hkeeps).2 hfits)
    rwa [Edit.hasDeferredStep_edited, Edit.concreteType_apply]

/-- A ticket is for a seat. -/
def ticket : Component :=
  ⟨.simple "Ticket" [], [], false, none, [⟨⟨"seat", .simple "Seat" []⟩, .forwarded⟩], .structType⟩

/-- What a booth asks for. -/
def oneTicket : Dependency :=
  ⟨⟨"ticket", .simple "Ticket" []⟩, .instantiated none false⟩

/-- A booth has one ticket, but no seat for it. -/
def booth : Component :=
  ⟨.simple "Booth" [], [], true, none, [oneTicket], .classType⟩

/-- What makes catalogs. -/
def catalogs : Property :=
  ⟨"catalog", .simple "Instantiator" [.simple "Catalog" []]⟩

/-- A booth that makes tickets instead of having one is accepted. So is a catalog that instantiates the
factory of catalogs as the library does, instead of receiving it: it refers to the library's. -/
theorem booth_and_catalog_repaired :
    (∃ next, (Chain.start 8).enter booth none = .ok next ∧
      ∃ type q, (oneTicket.retyped (.simple "Instantiator" [.simple "Ticket" []])).AcceptedAt
        ⟨[booth, ticket]⟩ next booth true type q) ∧
    ∃ next, next.frames = [⟨catalog, some catalogs⟩, ⟨library, none⟩] ∧
      Dependency.RefersBackAt ⟨catalogs, .instantiated none false⟩
        ⟨[library, catalog, shelf, lamp]⟩ next catalog false catalog := by
  have hbooths : Registry.register [booth, ticket] = .ok ⟨[booth, ticket]⟩ := by rfl
  have hlibraries : Registry.register [library, catalog, shelf, lamp] =
      .ok ⟨[library, catalog, shelf, lamp]⟩ := by rfl
  have hbooth : (Chain.start 8).enter booth none = .ok ⟨[⟨booth, none⟩], 7⟩ := by rfl
  have hlibrary : (Chain.start 8).enter library none = .ok ⟨[⟨library, none⟩], 7⟩ := by rfl
  have hcatalog : Chain.enter ⟨[⟨library, none⟩], 7⟩ catalog (some catalogs) =
      .ok ⟨[⟨catalog, some catalogs⟩, ⟨library, none⟩], 6⟩ := by rfl
  have hleads : LeadsTo ⟨[library, catalog, shelf, lamp]⟩ ⟨[⟨library, none⟩], 7⟩ library
      ⟨catalogs, .instantiated none false⟩ catalog :=
    ⟨none, false, rfl, by rfl, by rfl⟩
  have hvisits := Registry.Visits.onward .root hlibrary
    (List.mem_cons_of_mem _ (List.mem_cons_of_mem _ List.mem_cons_self)) hleads
  obtain ⟨hretyped, -⟩ := Registry.suggested_repairs_accepted hbooths .root hbooth
    List.mem_cons_self (List.mem_cons_self (l := []))
  obtain ⟨-, hcycles⟩ := Registry.suggested_repairs_accepted hlibraries hvisits hcatalog
    List.mem_cons_self (List.mem_cons_self (l := []))
  obtain ⟨type, q, -, haccepted, -⟩ := hretyped _ rfl
  obtain ⟨newer, child, supplier, rest, hframes, -, -, hrefers⟩ := hcycles _ _ _ rfl rfl
  refine ⟨⟨_, hbooth, type, q, haccepted⟩, ⟨[⟨catalog, some catalogs⟩, ⟨library, none⟩], 6⟩, rfl, ?_⟩
  -- the chain has two components, so the library is the supplier
  match newer, hframes with
  | [], hframes =>
    cases hframes
    have hthrough : Registry.Through ⟨[library, catalog, shelf, lamp]⟩ ⟨library, none⟩
        ⟨catalog, some catalogs⟩ catalogs none :=
      ⟨rfl, ⟨false, List.mem_cons_of_mem _ (List.mem_cons_of_mem _ List.mem_cons_self)⟩, by rfl⟩
    exact (hrefers none hthrough false).1
  | [_], hframes | _ :: _ :: _, hframes => simp at hframes

end Wiring
