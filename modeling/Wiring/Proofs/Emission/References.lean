import Wiring.Proofs.Emission.Functions
import Wiring.Proofs.Emission.Scoping

/-!
# Recursive references are bound

A factory that comes up again below itself is not expanded again; it refers to the function around it.
In a scope that resolution gives back this function is always there, since the chain that the resolver
looks at and the functions around a binding go along with each other.

* `Encloses`: the functions around a binding belong to the deferred steps of the chain.
* `propertyCycle_of_emitAll`: what resolves is emitted, unless properties of a body need each other.
* `exists_of_holds_recursive`: a reference has an ancestor for the same property and component.
* `functions_unique_and_references_bound`: the names of all functions, and what references refer to.
-/

namespace Wiring

variable {registry : Registry} {limit : Nat} {root : Component} {scope : Scope}

/-- **There is a function for each deferred step** of a chain. -/
def Encloses (enclosing : List Factory) (frames : List Frame) : Prop :=
  ∀ f ∈ frames, ∀ p, f.via = some p → p.isDeferred = true →
    ∃ factory ∈ enclosing, factory.property = p ∧ factory.component = f.component

/-- The chain and the functions go on together. -/
theorem Encloses.cons {enclosing : List Factory} {frames : List Frame}
    (h : Encloses enclosing frames) (p : Property) (c : Component) (name : String) :
    Encloses (⟨p, c, name⟩ :: enclosing) (⟨c, some p⟩ :: frames) := by
  intro f hf q hvia hdeferred
  rcases List.mem_cons.1 hf with rfl | hf
  · cases hvia
    exact ⟨_, List.mem_cons_self, rfl, rfl⟩
  · obtain ⟨factory, hfactory, hfits⟩ := h f hf q hvia hdeferred
    exact ⟨factory, List.mem_cons_of_mem _ hfactory, hfits⟩

/-- A deferred step that was made before has a function. -/
theorem Encloses.exists_find? {enclosing : List Factory} {chain : Chain} {p : Property}
    {c : Component} (h : Encloses enclosing chain.frames)
    (hstep : chain.hasDeferredStep p c.concreteType = true) :
    ∃ factory, Factory.find? enclosing p c = some factory := by
  obtain ⟨hdeferred, f, hf, hvia, htype⟩ := Chain.hasDeferredStep_eq_true_iff.1 hstep
  obtain ⟨factory, hfactory, hproperty, hcomponent⟩ := h f hf p hvia hdeferred
  refine Option.isSome_iff_exists.1 (List.find?_isSome.2 ⟨factory, hfactory, ?_⟩)
  simp [hproperty, hcomponent, htype]

/-- **What resolves is emitted**, unless properties of a body need each other: all references are
bound. -/
theorem propertyCycle_of_emitAll {room : Nat} {frame : Frame} {older : List Frame}
    {ds : List Dependency} {bindings : List Binding}
    (h : Resolution.Resolves registry room frame older ds bindings) :
    ∀ {enclosing : List Factory} {before : List String} {fault : Fault},
      Encloses enclosing (frame :: older) →
      Binding.emitAll enclosing before bindings = .error fault →
      ∃ type cycle, fault = .propertyCycle type cycle := by
  induction h with
  | nil =>
    intro enclosing before fault _ hemit
    cases hemit
  | given _ _ _ ih =>
    intro enclosing before fault hencloses hemit
    exact ih hencloses hemit
  | renamed _ _ _ ih =>
    intro enclosing before fault hencloses hemit
    rcases Binding.emitAll_cons_eq_error hemit with hfirst | ⟨middle, hrest⟩
    · cases hfirst
    · exact ih hencloses hrest
  | recursive _ _ hback _ ih =>
    intro enclosing before fault hencloses hemit
    rcases Binding.emitAll_cons_eq_error hemit with hfirst | ⟨middle, hrest⟩
    · -- the step that the resolver saw on the chain has its function
      obtain ⟨factory, hfind⟩ := hencloses.exists_find? hback
      simp only [Binding.emit, hfind] at hfirst
      cases hfirst
    · exact ih hencloses hrest
  | @built room frame older d q _ _ _ ds bindings inner _ _ _ _ _ _ _ ihinner ih =>
    intro enclosing before fault hencloses hemit
    rcases Binding.emitAll_cons_eq_error hemit with hfirst | ⟨middle, hrest⟩
    · rcases Binding.emit_built_eq_error hfirst with ⟨name, hbody⟩ | ⟨declarations, harrange⟩
      · exact ihinner (hencloses.cons d.property q name) hbody
      · obtain ⟨cycle, hcycle⟩ := Emission.propertyCycle_of_arrange harrange
        exact ⟨_, cycle, hcycle⟩
    · exact ih hencloses hrest

/-- A scope that resolution gives back fails to be emitted only if properties need each other. -/
theorem propertyCycle_of_emit {fault : Fault} (h : registry.resolve limit root = .ok scope)
    (hemit : scope.emit = .error fault) : ∃ type cycle, fault = .propertyCycle type cycle := by
  obtain ⟨-, room, text, -, hresolves⟩ := Registry.resolves_of_resolve h
  rcases bind_eq_error_iff.1 hemit with hall | ⟨⟨declarations, after⟩, -, hemit⟩
  · -- the root is not entered by a step, so it needs no function
    have hroot : Encloses [] [⟨root, none⟩] := by
      intro f hf p hvia
      rw [List.mem_singleton.1 hf] at hvia
      cases hvia
    exact propertyCycle_of_emitAll hresolves hroot hall
  · rcases bind_eq_error_iff.1 hemit with harrange | ⟨body, -, hemit⟩
    · obtain ⟨cycle, hcycle⟩ := Emission.propertyCycle_of_arrange harrange
      exact ⟨_, cycle, hcycle⟩
    · cases hemit

/-! ## The ancestors of a reference -/

/-- **The bindings of a scope**, each with the values around it, the innermost one first. -/
inductive Scope.Holds (scope : Scope) : List (Property × Component) → Binding → Prop
  | outermost {b : Binding} : b ∈ scope.bindings → Holds scope [] b
  | inner {path : List (Property × Component)} {p : Property} {c : Component}
      {bindings : List Binding} {erased : Bool} {b : Binding} :
    Holds scope path (.built p c bindings erased) → b ∈ bindings → Holds scope ((p, c) :: path) b

/-- Every binding of a resolved scope is declared at the end of the chain of the values around it. -/
theorem declares_of_holds (h : registry.resolve limit root = .ok scope)
    {path : List (Property × Component)} {b : Binding} (hb : scope.Holds path b) :
    ∃ room frame older d, Resolution.Declares registry room frame older d b ∧
      ∀ f ∈ frame :: older, ∀ p, f.via = some p → (p, f.component) ∈ path := by
  obtain ⟨-, room, text, -, hroot⟩ := Registry.resolves_of_resolve h
  induction hb with
  | outermost hb =>
    obtain ⟨d, -, hdeclares⟩ := exists_of_mem_forall₂ hroot.declares _ hb
    refine ⟨room, _, _, d, hdeclares, ?_⟩
    intro f hf p hvia
    rw [List.mem_singleton.1 hf] at hvia
    cases hvia
  | @inner path p c bindings erased b _ hb ih =>
    obtain ⟨room, frame, older, d, hdeclares, hpath⟩ := ih
    cases hdeclares with
    | built _ _ _ _ hinner =>
      -- the chain and the path both go on with the value
      obtain ⟨d', -, hdeclares⟩ := exists_of_mem_forall₂ hinner.declares _ hb
      refine ⟨_, _, _, d', hdeclares, ?_⟩
      intro f hf q hvia
      rcases List.mem_cons.1 hf with rfl | hf
      · cases hvia
        exact List.mem_cons_self
      · exact List.mem_cons_of_mem _ (hpath f hf q hvia)

/-- **A reference has an ancestor** that is a factory for the same property and component. -/
theorem exists_of_holds_recursive (h : registry.resolve limit root = .ok scope)
    {path : List (Property × Component)} {p : Property} {c : Component}
    (hb : scope.Holds path (.recursive p c)) :
    p.isDeferred = true ∧ ∃ step ∈ path, step.1 = p ∧ step.2.concreteType = c.concreteType := by
  obtain ⟨room, frame, older, d, hdeclares, hpath⟩ := declares_of_holds h hb
  cases hdeclares with
  | recursive _ _ hback =>
    obtain ⟨hdeferred, f, hf, hvia, htype⟩ := Chain.hasDeferredStep_eq_true_iff.1 hback
    exact ⟨hdeferred, _, hpath f hf _ hvia, rfl, htype⟩

/-- **Functions have unique names, and references are bound.** Whatever scope is emitted, no two of its
functions have one name, and a recursive reference has the name of the nearest function around it that
builds the same property from a component of the same type. A scope that resolution gives back has such a
factory around each of its references; so if it is not emitted, properties of one body need each other. -/
theorem functions_unique_and_references_bound :
    (∀ (scope : Scope) (g : RootEmission), scope.emit = .ok g →
      (Emission.functionsAll g.body).Nodup ∧
      ∀ outer b p c function, g.Contains outer b → Emission.recursive p c function ∈ b.declarations →
        ∃ inner f older, b :: outer.map (·.body) = inner ++ f :: older ∧ f.Builds p c function ∧
          ∀ b' ∈ inner, ∀ name, ¬ b'.Builds p c name) ∧
    ∀ (registry : Registry) (limit : Nat) (root : Component) (scope : Scope),
      registry.resolve limit root = .ok scope →
      (∀ path p c, scope.Holds path (.recursive p c) →
        p.isDeferred = true ∧ ∃ step ∈ path, step.1 = p ∧ step.2.concreteType = c.concreteType) ∧
      ∀ fault, scope.emit = .error fault → ∃ type cycle, fault = .propertyCycle type cycle := by
  constructor
  · intro scope g h
    refine ⟨nodup_functions_of_emit h, ?_⟩
    intro outer b p c function hb hr
    exact builds_of_recursive h hb hr
  · intro registry limit root scope h
    refine ⟨?_, ?_⟩
    · intro path p c hb
      exact exists_of_holds_recursive h hb
    · intro fault hemit
      exact propertyCycle_of_emit h hemit

def stall : Component :=
  ⟨.simple "Stall" [], [], false, none, [], .classType⟩

/-- The factory of stalls under a label. -/
def stalls (label : String) : Property :=
  ⟨label, .simple "Instantiator" [.simple "Stall" []]⟩

/-- A market with a label that looks like a numbered one. -/
def market : Scope :=
  ⟨stall, [.built (stalls "a") stall
    [.built (stalls "a_2") stall [] false,
      .built (stalls "a") stall [.recursive (stalls "a") stall] false] false]⟩

/-- The function that builds the inner stalls. -/
def stallBody : Body :=
  ⟨some (stalls "a"), stall, some "__wg_a_3", [.recursive (stalls "a") stall "__wg_a_3"]⟩

/-- What is emitted for the market. -/
def marketEmission : RootEmission :=
  ⟨stall, [.built (stalls "a") stall false (some "__wg_a")
    [.built (stalls "a_2") stall false (some "__wg_a_2") [],
      .built (stalls "a") stall false (some "__wg_a_3") stallBody.declarations]]⟩

/-- What resolution gives back for the shop. -/
def shopScope : Scope :=
  ⟨shop, [.renamed ⟨"journal", .simple "Ledger" []⟩ ⟨"ledger", .simple "Ledger" []⟩ false,
    .built ⟨"ledger", .simple "Ledger" []⟩ ledger [] false,
    .built opener counter
      [.built ⟨"till", .simple "Till" []⟩ till [.recursive opener counter] false] false]⟩

def hen : Property :=
  ⟨"hen", .simple "Hen" []⟩

def egg : Property :=
  ⟨"egg", .simple "Egg" []⟩

/-- A farm has a hen and an egg, each of which comes from the other. -/
def farm : Component :=
  ⟨.simple "Farm" [], [], true, none,
    [⟨hen, .instantiated none false⟩, ⟨egg, .instantiated none false⟩], .classType⟩

/-- The component of the one that comes from the other. -/
def comesFrom (made source : Property) : Component :=
  ⟨made.type, [], false, none, [⟨source, .received⟩], .classType⟩

/-- What resolution gives back for the farm. -/
def farmScope : Scope :=
  ⟨farm, [.built hen (comesFrom hen egg) [] false, .built egg (comesFrom egg hen) [] false]⟩

/-- The functions of the market have different names, and the inner stalls refer to the nearest one. In
the shop the reference of the till has the counter's factory around it. The farm cannot be emitted, since
its hen and its egg need each other. -/
theorem market_functions_unique :
    (market.emit = .ok marketEmission ∧
      Emission.functionsAll marketEmission.body = ["__wg_a", "__wg_a_2", "__wg_a_3"] ∧
      (Emission.functionsAll marketEmission.body).Nodup ∧
      ∃ outer, marketEmission.Contains outer stallBody ∧
        ∃ inner f older, stallBody :: outer.map (·.body) = inner ++ f :: older ∧
          f.Builds (stalls "a") stall "__wg_a_3" ∧
          ∀ b' ∈ inner, ∀ name, ¬ b'.Builds (stalls "a") stall name) ∧
    (Registry.resolve ⟨[shop, ledger, counter, till]⟩ 256 shop = .ok shopScope ∧
      ∃ path, shopScope.Holds path (.recursive opener counter) ∧
        ∃ step ∈ path, step.1 = opener ∧ step.2.concreteType = counter.concreteType) ∧
    Registry.resolve ⟨[farm, comesFrom hen egg, comesFrom egg hen]⟩ 256 farm = .ok farmScope ∧
      ∃ fault, farmScope.emit = .error fault ∧
        ∃ type cycle, fault = .propertyCycle type cycle := by
  obtain ⟨hemitted, hresolved⟩ := functions_unique_and_references_bound
  have hmarket : market.emit = .ok marketEmission := by with_unfolding_all rfl
  have hshop : Registry.resolve ⟨[shop, ledger, counter, till]⟩ 256 shop = .ok shopScope := by
    with_unfolding_all rfl
  have hfarm : Registry.resolve ⟨[farm, comesFrom hen egg, comesFrom egg hen]⟩ 256 farm =
      .ok farmScope := by
    with_unfolding_all rfl
  have hcycle : farmScope.emit =
      .error (.propertyCycle farm.concreteType [hen, egg, hen]) := by
    with_unfolding_all rfl
  obtain ⟨hnodup, hbound⟩ := hemitted market marketEmission hmarket
  have hstalls : marketEmission.Contains [⟨⟨none, stall, none, marketEmission.body⟩, []⟩]
      ⟨some (stalls "a"), stall, some "__wg_a", _⟩ :=
    .inner .root (List.nil_append _).symm
  have hstall : marketEmission.Contains
      [⟨_, [.built (stalls "a_2") stall false (some "__wg_a_2") []]⟩, _] stallBody :=
    .inner hstalls rfl
  have hopener : shopScope.Holds [] (.built opener counter _ false) :=
    .outermost (List.mem_cons_of_mem _ (List.mem_cons_of_mem _ List.mem_cons_self))
  have hreference : shopScope.Holds _ (.recursive opener counter) :=
    .inner (.inner hopener List.mem_cons_self) List.mem_cons_self
  refine ⟨⟨hmarket, by decide, hnodup, _, hstall, ?_⟩, ⟨hshop, _, hreference, ?_⟩, hfarm, _,
    hcycle, ?_⟩
  · exact hbound _ _ _ _ _ hstall List.mem_cons_self
  · exact ((hresolved _ _ _ _ hshop).1 _ _ _ hreference).2
  · exact (hresolved _ _ _ _ hfarm).2 _ hcycle

end Wiring
