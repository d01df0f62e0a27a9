import Wiring.Proofs.Resolution.EagerCycles
import Wiring.Proofs.Component.Supply
import Wiring.Proofs.TypeExpr.Order

/-!
# What is reported about received properties

A component that receives a property is checked against the chain above it. What is reported then says
something about the chain itself: its components lead from the root to the receiver, each built for a
property of the one before; and either none of those above supplies the property, or the nearest that does
is building it for the very chain that leads to the receiver.

* `Registry.LeadsDown`, `leadsDown_of_visits`: the chains that resolution comes to.
* `exists_of_finds`: a fault about a received property is found where a component needs the property.
* `Chain.not_supplied_of_missing`, `Chain.exists_supplier_of_underConstruction`: what the look-up saw.
* `Registry.received_faults_genuine`: what each of the reports says.
-/

namespace Wiring

open Resolution

variable {registry : Registry} {limit : Nat} {root c q : Component} {chain next : Chain}
  {via : Option Property} {p : Property} {f : Fault}

/-! ## The way down from a root -/

/-- **A way down from the root**, the root first: each other component is what the registry holds for a
property that the one before has instantiated. -/
structure Registry.LeadsDown (registry : Registry) (root : Component) (frames : List Frame) : Prop where
  starts : frames.head? = some ⟨root, none⟩
  steps : frames.IsChain fun f g => ∃ p, g.via = some p ∧ registry.Edge f.component p g.component

/-- The concrete types on a way down. -/
def Frame.types (frames : List Frame) : List TypeExpr :=
  frames.map (·.component.concreteType)

/-- The types of the properties that frames are built for. -/
theorem Frame.stepTypes_eq {frames : List Frame} {properties : List Property}
    (h : frames.map (·.via) = properties.map some) :
    frames.filterMap (fun f => f.via.map (·.type)) = properties.map (·.type) := by
  have hvia : frames.filterMap (fun f => f.via.map (·.type)) =
      (frames.map (·.via)).filterMap (Option.map (·.type)) := by
    rw [List.filterMap_map]
    rfl
  rw [hvia, h, List.filterMap_map]
  exact congrFun List.filterMap_eq_map' properties

namespace Registry

/-- One step further down. -/
theorem LeadsDown.concat {frames : List Frame} {f : Frame}
    (h : registry.LeadsDown root (frames ++ [f])) (hedge : registry.Edge f.component p q) :
    registry.LeadsDown root (frames ++ [f] ++ [⟨q, some p⟩]) := by
  refine ⟨?_, ?_⟩
  · rw [List.head?_append, h.starts]
    rfl
  · refine List.isChain_append.2 ⟨h.steps, .singleton _, ?_⟩
    intro g hg g' hg'
    rw [List.getLast?_concat, Option.mem_some_iff] at hg
    rw [List.head?_cons, Option.mem_some_iff] at hg'
    subst hg hg'
    exact ⟨p, rfl, hedge⟩

/-- **Resolution goes down from the root.** -/
theorem leadsDown_of_visits (h : registry.Visits limit root chain c via) :
    registry.LeadsDown root (chain.frames.reverse ++ [⟨c, via⟩]) := by
  induction h with
  | root => exact ⟨rfl, .singleton _⟩
  | @onward chain next c q via d _ henter hd hleads ih =>
    obtain ⟨type, htype, hq⟩ := hleads.fulfilling
    have hframes := Chain.frames_of_enter henter
    rw [hframes, List.reverse_cons]
    exact ih.concat ⟨d, hd, rfl, type, htype, hq⟩

/-- Every step below another frame is made for a property. -/
theorem LeadsDown.exists_properties {above below : List Frame} {f : Frame}
    (h : registry.LeadsDown root (above ++ f :: below)) :
    ∃ properties : List Property, below.map (·.via) = properties.map some := by
  have hsteps := (List.isChain_append.1 h.steps).2.1
  clear h
  induction below generalizing f with
  | nil => exact ⟨[], rfl⟩
  | cons g below ih =>
    obtain ⟨⟨p, hp, -⟩, hrest⟩ := List.isChain_cons_cons.1 hsteps
    obtain ⟨properties, hproperties⟩ := ih hrest
    exact ⟨p :: properties, by rw [List.map_cons, hp, hproperties, List.map_cons]⟩

end Registry

/-! ## What a component needs from above -/

/-- **The component needs the property from above**: it receives it, or it renames it while it neither
instantiates it nor has it forwarded. -/
def Component.NeedsFromAbove (c : Component) (p : Property) : Prop :=
  (∃ d ∈ c.dependencies, d.origin = .received ∧ d.property = p) ∨
    (∃ d ∈ c.dependencies, ∃ erased, d.origin = .aliased p erased) ∧ c.holds p = false

/-- Faults about received properties. -/
def Fault.isAboutReceived : Fault → Bool
  | .unfulfillableReceived _ _ _ | .deferredCycle _ _ _ | .receivedWhileInstantiated _ _ _ _ => true
  | _ => false

theorem isAboutReceived_of_enter (h : chain.enter c via = .error f) : f.isAboutReceived = false := by
  rcases Chain.enter_eq_error_iff.1 h with ⟨-, rfl⟩ | ⟨-, cycle, -, rfl⟩ <;> rfl

theorem isAboutReceived_of_producer {type : TypeExpr} (h : producer registry c p type = .error f) :
    f.isAboutReceived = false := by
  rcases cases_of_producer h with ⟨-, rfl⟩ | ⟨q, -, ⟨-, -, rfl⟩ | ⟨-, -, rfl⟩⟩ <;> rfl

/-- **Where a fault about a received property is found**, a component needs the property from above. -/
theorem exists_of_finds (h : registry.Finds limit root f) (hf : f.isAboutReceived = true) :
    ∃ chain next c via p, registry.Visits limit root chain c via ∧ chain.enter c via = .ok next ∧
      c.NeedsFromAbove p ∧ f ∈ receivingFaults next c p := by
  cases h with
  | entering _ henter =>
    rw [isAboutReceived_of_enter henter] at hf
    cases hf
  | initializer => cases hf
  | @dependency chain next c via d _ hvisits henter hd hown =>
    rw [mem_ownFaults_iff] at hown
    cases horigin : d.origin with
    | forwarded =>
      rw [horigin] at hown
      rw [hown.2] at hf
      cases hf
    | received =>
      rw [horigin] at hown
      exact ⟨chain, next, c, via, d.property, hvisits, henter, .inl ⟨d, hd, horigin, rfl⟩, hown⟩
    | aliased fulfilling erased =>
      rw [horigin] at hown
      exact ⟨chain, next, c, via, fulfilling, hvisits, henter,
        .inr ⟨⟨d, hd, erased, horigin⟩, hown.1⟩, hown.2⟩
    | instantiated fulfilling erased =>
      rw [horigin] at hown
      rw [isAboutReceived_of_producer hown] at hf
      cases hf

/-! ## What the look-up saw -/

namespace Chain

variable {frame : Frame} {older : List Frame}

/-- A property that is missing is supplied by no ancestor. -/
theorem not_supplied_of_missing :
    ∀ {frame : Frame} {older : List Frame}, locateIn p (frame :: older) = .missing →
      ∀ g ∈ older, p ∉ g.component.supplied
  | _, [], _, g, hg => by cases hg
  | frame, parent :: older, h, g, hg => by
    simp only [locateIn] at h
    split at h
    · split at h <;> cases h
    · rename_i hsupplied
      rcases List.mem_cons.1 hg with rfl | hg
      · exact hsupplied
      · exact not_supplied_of_missing h g hg

/-- **The nearest supplier of a property under construction** has the chain go on for that property. -/
theorem exists_supplier_of_underConstruction :
    ∀ {frame : Frame} {older : List Frame} {index : Nat} {type : TypeExpr},
      locateIn p (frame :: older) = .underConstruction index type →
      ∃ newer child supplier rest, frame :: older = newer ++ child :: supplier :: rest ∧
        index = rest.length ∧ type = supplier.component.concreteType ∧ child.via = some p ∧
        ∀ g ∈ (newer ++ [child]).tail, p ∉ g.component.supplied
  | _, [], _, _, h => by cases h
  | frame, parent :: older, index, type, h => by
    simp only [locateIn] at h
    split at h
    · split at h
      · rename_i hvia
        cases h
        exact ⟨[], frame, parent, older, rfl, rfl, rfl, hvia, by simp⟩
      · cases h
    · rename_i hsupplied
      obtain ⟨newer, child, supplier, rest, hframes, hindex, htype, hvia, hnewer⟩ :=
        exists_supplier_of_underConstruction h
      refine ⟨frame :: newer, child, supplier, rest, by rw [hframes, List.cons_append], hindex,
        htype, hvia, ?_⟩
      -- the parent, which is the first frame of the rest, has been passed over
      intro g hg
      rw [List.cons_append, List.tail_cons] at hg
      cases newer with
      | nil =>
        obtain ⟨rfl, -⟩ := List.cons.inj hframes
        rw [List.mem_singleton.1 hg]
        exact hsupplied
      | cons first newer =>
        obtain ⟨rfl, -⟩ := List.cons.inj hframes
        rcases List.mem_cons.1 hg with rfl | hg
        · exact hsupplied
        · exact hnewer g hg

end Chain

/-! ## What is reported -/

namespace Registry

/-- **The property is missing**: the receiver needs it, nothing on the way down to it supplies it, and the
suggestions are the similar properties that are supplied there. -/
structure IsMissing (registry : Registry) (root : Component) (p : Property) (above : List Frame)
    (receiver : Frame) (suggestions : List Property) : Prop where
  path : registry.LeadsDown root (above ++ [receiver])
  needed : receiver.component.NeedsFromAbove p
  unsupplied : ∀ f ∈ above, p ∉ f.component.supplied
  suggested : ∀ s, s ∈ suggestions ↔
    (∃ f ∈ above, s ∈ f.component.supplied) ∧ areSimilar s p = true
  ascending : suggestions.Pairwise fun a b => Property.compare a b = .lt
  others : p ∉ suggestions

/-- **The property is being built**: the receiver needs it, and the nearest component on the way down to it
that supplies it has instantiated it, and that step leads to the receiver. -/
structure IsBeingBuilt (registry : Registry) (root : Component) (p : Property) (above : List Frame)
    (supplier : Frame) (between : List Frame) (receiver : Frame) : Prop where
  path : registry.LeadsDown root (above ++ supplier :: (between ++ [receiver]))
  needed : receiver.component.NeedsFromAbove p
  step : ∃ child, (between ++ [receiver]).head? = some child ∧ child.via = some p ∧
    registry.Edge supplier.component p child.component
  nearest : ∀ f ∈ between, p ∉ f.component.supplied

/-- A report that a property is missing. -/
theorem isMissing_of_locate (hvisits : registry.Visits limit root chain c via)
    (henter : chain.enter c via = .ok next) (hneeds : c.NeedsFromAbove p)
    (hlocate : next.locate p = .missing) :
    registry.IsMissing root p chain.frames.reverse ⟨c, via⟩
      (next.available.filter (areSimilar · p)) := by
  have hframes := Chain.frames_of_enter henter
  rw [Chain.locate, hframes] at hlocate
  refine ⟨leadsDown_of_visits hvisits, hneeds, ?_, ?_, ?_, ?_⟩
  · intro f hf
    exact Chain.not_supplied_of_missing hlocate f (List.mem_reverse.1 hf)
  · intro s
    simp [Chain.available, hframes]
  · exact (pairwise_sortedSet _).filter _
  · intro hmem
    have hself := (List.mem_filter.1 hmem).2
    simp [areSimilar] at hself

/-- A report that a property is being built. -/
theorem isBeingBuilt_of_locate (hvisits : registry.Visits limit root chain c via)
    (henter : chain.enter c via = .ok next) (hneeds : c.NeedsFromAbove p) {index : Nat}
    {instantiator : TypeExpr} (hlocate : next.locate p = .underConstruction index instantiator) :
    ∃ above supplier between, registry.IsBeingBuilt root p above supplier between ⟨c, via⟩ ∧
      next.frames.reverse = above ++ supplier :: (between ++ [⟨c, via⟩]) ∧
      index = above.length ∧ instantiator = supplier.component.concreteType := by
  have hframes := Chain.frames_of_enter henter
  rw [Chain.locate, hframes] at hlocate
  obtain ⟨newer, child, supplier, rest, hsplit, rfl, rfl, hvia, hnewer⟩ :=
    Chain.exists_supplier_of_underConstruction hlocate
  -- the frames below the supplier, from the receiver up, begin with the receiver
  obtain ⟨between, hbelow⟩ : ∃ between, newer ++ [child] = ⟨c, via⟩ :: between := by
    cases newer with
    | nil =>
      obtain ⟨rfl, -⟩ := List.cons.inj hsplit
      exact ⟨[], rfl⟩
    | cons first newer =>
      obtain ⟨rfl, -⟩ := List.cons.inj hsplit
      exact ⟨newer ++ [child], rfl⟩
  have hreverse : (child :: newer.reverse) = between.reverse ++ [⟨c, via⟩] := by
    rw [← List.reverse_cons, ← hbelow, List.reverse_append]
    rfl
  have hpath : next.frames.reverse =
      rest.reverse ++ supplier :: (between.reverse ++ [⟨c, via⟩]) := by
    rw [hframes, hsplit, ← hreverse]
    simp
  have hdown := leadsDown_of_visits hvisits
  rw [← List.reverse_cons, ← hframes, hpath] at hdown
  refine ⟨rest.reverse, supplier, between.reverse, ⟨hdown, hneeds, ⟨child, ?_, hvia, ?_⟩, ?_⟩, hpath,
    by simp, rfl⟩
  · rw [← hreverse]
    rfl
  · have hsteps := (List.isChain_append.1 hdown.steps).2.1
    rw [← hreverse] at hsteps
    obtain ⟨⟨p', hp', hedge⟩, -⟩ := List.isChain_cons_cons.1 hsteps
    rw [hvia] at hp'
    cases hp'
    exact hedge
  · intro f hf
    refine hnewer f ?_
    rw [hbelow, List.tail_cons]
    exact List.mem_reverse.1 hf

/-- **What is reported about received properties is so.**

* A property that is reported missing is needed by the last component of the reported chain, which leads
  down from the root, and no component before supplies it; suggested are the similar properties that
  these supply, in ascending order.
* A property that is reported as received while it is instantiated, or as a cycle of factories, is needed by
  the reported receiver, and the nearest component above that supplies it has the chain go on for it. The
  first report names that component and the chain; the second one is made for factories only and lists
  the types of the properties from there down to the receiver, and that of the property again. -/
theorem received_faults_genuine {faults : List Fault}
    (h : registry.resolve limit root = .error faults) :
    (∀ p types suggestions, .unfulfillableReceived p types suggestions ∈ faults →
      ∃ above receiver, registry.IsMissing root p above receiver suggestions ∧
        types = Frame.types (above ++ [receiver])) ∧
    (∀ p receiverType instantiator types,
      .receivedWhileInstantiated p receiverType instantiator types ∈ faults →
      p.isDeferred = false ∧ ∃ above supplier between receiver,
        registry.IsBeingBuilt root p above supplier between receiver ∧
        receiverType = receiver.component.concreteType ∧
        instantiator = supplier.component.concreteType ∧
        types = Frame.types (above ++ supplier :: (between ++ [receiver]))) ∧
    ∀ p receiverType types, .deferredCycle p receiverType types ∈ faults →
      p.isDeferred = true ∧ ∃ above supplier between receiver, ∃ properties : List Property,
        registry.IsBeingBuilt root p above supplier between receiver ∧
        receiverType = receiver.component.concreteType ∧
        (between ++ [receiver]).map (·.via) = properties.map some ∧
        types = properties.map (·.type) ++ [p.type] := by
  obtain ⟨rfl, -⟩ := resolve_eq_error_iff.1 h
  refine ⟨?_, ?_, ?_⟩
  · intro p types suggestions hmem
    obtain ⟨chain, next, c, via, p', hvisits, henter, hneeds, hown⟩ :=
      exists_of_finds (finds_of_mem hmem) rfl
    rcases cases_of_mem_receivingFaults hown with
      ⟨hlocate, hf⟩ | ⟨index, supplierType, -, ⟨-, hf⟩ | ⟨-, hf⟩⟩ <;> cases hf
    refine ⟨_, _, isMissing_of_locate hvisits henter hneeds hlocate, ?_⟩
    simp [Chain.types, Chain.typesOf, Frame.types, Chain.frames_of_enter henter]
  · intro p receiverType instantiator types hmem
    obtain ⟨chain, next, c, via, p', hvisits, henter, hneeds, hown⟩ :=
      exists_of_finds (finds_of_mem hmem) rfl
    rcases cases_of_mem_receivingFaults hown with
      ⟨-, hf⟩ | ⟨index, supplierType, hlocate, ⟨hdeferred, hf⟩ | ⟨-, hf⟩⟩ <;> cases hf
    obtain ⟨above, supplier, between, hbuilt, hpath, -, htype⟩ :=
      isBeingBuilt_of_locate hvisits henter hneeds hlocate
    refine ⟨hdeferred, above, supplier, between, _, hbuilt, rfl, htype, ?_⟩
    rw [← hpath, Chain.types, Chain.typesOf, Frame.types, List.map_reverse]
  · intro p receiverType types hmem
    obtain ⟨chain, next, c, via, p', hvisits, henter, hneeds, hown⟩ :=
      exists_of_finds (finds_of_mem hmem) rfl
    rcases cases_of_mem_receivingFaults hown with
      ⟨-, hf⟩ | ⟨index, supplierType, hlocate, ⟨-, hf⟩ | ⟨hdeferred, hf⟩⟩ <;> cases hf
    obtain ⟨above, supplier, between, hbuilt, hpath, rfl, -⟩ :=
      isBeingBuilt_of_locate hvisits henter hneeds hlocate
    obtain ⟨properties, hproperties⟩ := hbuilt.path.exists_properties
    refine ⟨hdeferred, above, supplier, between, _, properties, hbuilt, rfl, hproperties, ?_⟩
    -- below the supplier every step is made for a property
    have hdrop : (above ++ supplier :: (between ++ [⟨c, via⟩])).drop (above.length + 1) =
        between ++ [⟨c, via⟩] := by simp [List.drop_append]
    rw [Chain.stepTypesFrom, hpath, hdrop, Frame.stepTypes_eq hproperties]

end Registry

/-- A catalog makes catalogs and needs the factory for that from above. -/
def catalog : Component :=
  ⟨.simple "Catalog" [], [], false, none,
    [⟨⟨"catalog", .simple "Instantiator" [.simple "Catalog" []]⟩, .received⟩], .classType⟩

/-- A shelf needs a shelf and a lamp from above. -/
def shelf : Component :=
  ⟨.simple "Shelf" [], [], false, none,
    [⟨⟨"shelf", .simple "Shelf" []⟩, .received⟩, ⟨⟨"lamp", .simple "Lamp" []⟩, .received⟩],
    .classType⟩

/-- A lamp needs nothing. -/
def lamp : Component :=
  ⟨.simple "Lamp" [], [], false, none, [], .classType⟩

/-- A library has a light, a shelf and catalogs. -/
def library : Component :=
  ⟨.simple "Library" [], [], true, none,
    [⟨⟨"light", .simple "Lamp" []⟩, .instantiated none false⟩,
      ⟨⟨"shelf", .simple "Shelf" []⟩, .instantiated none false⟩,
      ⟨⟨"catalog", .simple "Instantiator" [.simple "Catalog" []]⟩, .instantiated none false⟩],
    .classType⟩

/-- The shelf gets no lamp, though the library has one under another label; it is itself the shelf that
the library builds for its property of that name; and a catalog needs the factory that makes it. -/
theorem library_faults_genuine :
    (∃ suggestions receiver, Registry.IsMissing ⟨[library, catalog, shelf, lamp]⟩ library
      ⟨"lamp", .simple "Lamp" []⟩ [⟨library, none⟩] receiver suggestions) ∧
    (∃ receiver, Registry.IsBeingBuilt ⟨[library, catalog, shelf, lamp]⟩ library
      ⟨"shelf", .simple "Shelf" []⟩ [] ⟨library, none⟩ [] receiver) ∧
    ∃ above supplier between receiver, Registry.IsBeingBuilt ⟨[library, catalog, shelf, lamp]⟩ library
      ⟨"catalog", .simple "Instantiator" [.simple "Catalog" []]⟩ above supplier between receiver := by
  obtain ⟨suggestions, hresolve⟩ :
      ∃ suggestions, Registry.resolve ⟨[library, catalog, shelf, lamp]⟩ 8 library = .error
        [.receivedWhileInstantiated ⟨"shelf", .simple "Shelf" []⟩ (.simple "Shelf" [])
            (.simple "Library" []) [.simple "Library" [], .simple "Shelf" []],
          .unfulfillableReceived ⟨"lamp", .simple "Lamp" []⟩
            [.simple "Library" [], .simple "Shelf" []] suggestions,
          .deferredCycle ⟨"catalog", .simple "Instantiator" [.simple "Catalog" []]⟩
            (.simple "Catalog" [])
            [.simple "Instantiator" [.simple "Catalog" []],
              .simple "Instantiator" [.simple "Catalog" []]]] := ⟨_, by with_unfolding_all rfl⟩
  obtain ⟨hmissing, hbuilding, hcycles⟩ := Registry.received_faults_genuine hresolve
  obtain ⟨above, receiver, hlamp, hlampTypes⟩ :=
    hmissing _ _ _ (.tail _ (.head _))
  obtain ⟨-, above', supplier, between, receiver', hshelf, -, -, hshelfTypes⟩ :=
    hbuilding _ _ _ _ (.head _)
  obtain ⟨-, above'', supplier'', between'', receiver'', -, hcatalog, -⟩ :=
    hcycles _ _ _ (.tail _ (.tail _ (.head _)))
  refine ⟨⟨suggestions, receiver, ?_⟩, ⟨receiver', ?_⟩, above'', supplier'', between'', receiver'',
    hcatalog⟩
  · -- the reported chain has two components, of which the first is the root
    match above, hlamp, hlampTypes with
    | [first], hlamp, _ =>
      obtain rfl : first = ⟨library, none⟩ := Option.some.inj hlamp.path.starts
      exact hlamp
    | [], _, htypes | _ :: _ :: _, _, htypes => simp [Frame.types] at htypes
  · match above', between, hshelf, hshelfTypes with
    | [], [], hshelf, _ =>
      obtain rfl : supplier = ⟨library, none⟩ := Option.some.inj hshelf.path.starts
      exact hshelf
    | [], _ :: _, _, htypes | [_], _, _, htypes | _ :: _ :: _, _, _, htypes =>
      simp [Frame.types] at htypes

end Wiring
