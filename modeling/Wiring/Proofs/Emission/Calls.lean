import Wiring.Proofs.Emission.Capture
import Wiring.Proofs.Emission.Rendering
import Wiring.Proofs.TypeExpr.Order

/-!
# Functions are used as they are declared

The parameters of a nested function are written where it is declared. What is passed on to it is written
wherever the function is used: in the call of a value that is built at once, in the factory beside the
declaration, and in each factory that refers back to it from inside. Each place knows a component only
by way of the dependency that it is written for.

The places agree, for three reasons. No two declarations have one function name, so a use has one
declaration. A factory that refers back and the function around it build one concrete type, and in a
registry that is one component. And for every dependency resolution has compared the component's forwarded
properties with the property's type.

* `RootEmission.Emits`, `RootEmission.Emits.mem_nodesAll`: the declarations of a tree, as a relation and
  as a list; `RootEmission.eq_of_function`: each function has one of them.
* `RootEmission.Emits.exists_producer`: what a declaration uses is the producer of a dependency.
* `Emission.Passes`, `Emission.Uses`: what the code of one use says; `RootEmission.Emits.uses`: every use
  passes on what is forwarded to its component.
* `Registry.functions_used_as_declared`: the declaration of a function, and all of its uses.
-/

namespace Wiring

variable {registry : Registry} {limit : Nat} {root c : Component} {g : RootEmission}
  {outer : List Enclosure} {b : Body} {p : Property} {e e' : Emission} {name : String}

/-! ## The declarations of a tree -/

/-- **A declaration is emitted** in some body of a root. -/
def RootEmission.Emits (g : RootEmission) (e : Emission) : Prop :=
  ∃ outer b, g.Contains outer b ∧ e ∈ b.declarations

namespace Emission

/-- The function that the value of a declaration comes from, and the component that it builds. -/
def use? : Emission → Option (String × Component)
  | .built _ c _ (some name) _ => some (name, c)
  | .recursive _ c name => some (name, c)
  | .built _ _ _ none _ | .renamed _ _ _ => none

/-- The function that a declaration declares. -/
def ownFunction? : Emission → Option String
  | .built _ _ _ function _ => function
  | .recursive _ _ _ | .renamed _ _ _ => none

mutual

/-- A declaration and everything below it. -/
def nodes : Emission → List Emission
  | .built p c erased function body => .built p c erased function body :: nodesAll body
  | .recursive p c function => [.recursive p c function]
  | .renamed p fulfilling erased => [.renamed p fulfilling erased]

/-- Some declarations and everything below them. -/
def nodesAll : List Emission → List Emission
  | [] => []
  | e :: es => nodes e ++ nodesAll es

end

theorem self_mem_nodes (e : Emission) : e ∈ e.nodes := by
  cases e <;> simp [nodes]

theorem nodes_subset_nodesAll {es : List Emission} (he : e ∈ es) : e.nodes ⊆ nodesAll es := by
  induction es with
  | nil => cases he
  | cons first es ih =>
    rw [nodesAll]
    rcases List.mem_cons.1 he with rfl | he
    · exact List.subset_append_left _ _
    · exact List.Subset.trans (ih he) (List.subset_append_right _ _)

mutual

/-- The functions of a declaration are those that it and the ones below it declare. -/
theorem functions_eq_filterMap : ∀ e : Emission, e.functions = e.nodes.filterMap ownFunction?
  | .built p c erased function body => by
    rw [functions, nodes, functionsAll_eq_filterMap body]
    cases function with
    | none => rw [List.filterMap_cons_none rfl, Option.toList_none, List.nil_append]
    | some name =>
      have hname : ownFunction? (.built p c erased (some name) body) = some name := rfl
      rw [List.filterMap_cons_some hname, Option.toList_some, List.singleton_append]
  | .recursive p c function => by
    rw [functions, nodes, List.filterMap_cons_none rfl, List.filterMap_nil]
  | .renamed p fulfilling erased => by
    rw [functions, nodes, List.filterMap_cons_none rfl, List.filterMap_nil]

theorem functionsAll_eq_filterMap :
    ∀ es : List Emission, functionsAll es = (nodesAll es).filterMap ownFunction?
  | [] => by rw [functionsAll, nodesAll, List.filterMap_nil]
  | e :: es => by
    rw [functionsAll, nodesAll, functions_eq_filterMap e, functionsAll_eq_filterMap es,
      List.filterMap_append]

end

end Emission

namespace RootEmission

/-- Whatever is emitted below a body is emitted below the root. -/
theorem nodesAll_subset_of_contains (hb : g.Contains outer b) :
    Emission.nodesAll b.declarations ⊆ Emission.nodesAll g.body := by
  induction hb with
  | root => exact List.Subset.refl _
  | @inner outer b earlier later body p c erased function hb hsplit ih =>
    have he : Emission.built p c erased function body ∈ b.declarations := by simp [hsplit]
    have hbelow : Emission.nodesAll body ⊆ (Emission.built p c erased function body).nodes := by
      rw [Emission.nodes]
      exact List.subset_cons_self _ _
    exact List.Subset.trans (List.Subset.trans hbelow (Emission.nodes_subset_nodesAll he)) ih

/-- **What is emitted is in the list** of all that is emitted. -/
theorem Emits.mem_nodesAll (h : g.Emits e) : e ∈ Emission.nodesAll g.body := by
  obtain ⟨outer, b, hb, he⟩ := h
  exact nodesAll_subset_of_contains hb (Emission.nodes_subset_nodesAll he e.self_mem_nodes)

/-- **Each function has one declaration.** -/
theorem eq_of_function {scope : Scope} (h : scope.emit = .ok g) (he : g.Emits e) (he' : g.Emits e')
    (hname : e.ownFunction? = some name) (hname' : e'.ownFunction? = some name) : e = e' := by
  have hnodup := nodup_functions_of_emit h
  rw [Emission.functionsAll_eq_filterMap, List.Nodup, List.pairwise_filterMap] at hnodup
  by_contra hne
  have hsymm : Std.Symm fun a a' : Emission =>
      ∀ n, a.ownFunction? = some n → ∀ n', a'.ownFunction? = some n' → n ≠ n' :=
    ⟨fun _ _ hdiffer n hn n' hn' => (hdiffer n' hn' n hn).symm⟩
  exact hnodup.forall he.mem_nodesAll he'.mem_nodesAll hne name hname name hname' rfl

/-- A body that is built for a property is that of a declaration. -/
theorem Contains.exists_emits (hb : g.Contains outer b) (hvia : b.via = some p) :
    ∃ erased, g.Emits (.built p b.component erased b.function b.declarations) := by
  cases hb with
  | root => cases hvia
  | @inner outer b earlier later body q c erased function hb hsplit =>
    cases hvia
    exact ⟨erased, _, b, hb, by simp [hsplit]⟩

/-- **Every use of a function has the declaration of the function**, which builds the same concrete
type. -/
theorem Emits.exists_declaration {scope : Scope} (h : scope.emit = .ok g) (he : g.Emits e)
    (huse : e.use? = some (name, c)) :
    ∃ p d erased body, g.Emits (.built p d erased (some name) body) ∧
      d.concreteType = c.concreteType := by
  obtain ⟨outer, b, hb, hmem⟩ := he
  cases e with
  | built p d erased function body =>
    cases function with
    | none => cases huse
    | some function =>
      cases huse
      exact ⟨p, c, erased, body, ⟨outer, b, hb, hmem⟩, rfl⟩
  | recursive p d function =>
    cases huse
    -- the function is that of a body around the reference
    obtain ⟨inner, f, older, hsplit, ⟨hvia, htype, hfunction⟩, -⟩ := builds_of_recursive h hb hmem
    obtain ⟨above, hf, -⟩ := exists_contains_of_append hb hsplit
    obtain ⟨erased, hemits⟩ := hf.exists_emits hvia
    rw [hfunction] at hemits
    exact ⟨p, f.component, erased, f.declarations, hemits, htype⟩
  | renamed p fulfilling erased => cases huse

end RootEmission

/-! ## What resolution has checked -/

/-- **What a declaration uses is the producer** of the dependency that it is emitted for. -/
theorem RootEmission.Emits.exists_producer (h : registry.build limit root = .ok g)
    (he : g.Emits e) (huse : e.use? = some (name, c)) :
    ∃ receiver type, Resolution.producer registry receiver e.property type = .ok c := by
  obtain ⟨outer, b, hb, hmem⟩ := he
  have hcomponent : e.component? = some c := by
    cases e with
    | built p d erased function body => cases function <;> cases huse; rfl
    | recursive p d function => cases huse; rfl
    | renamed p fulfilling erased => cases huse
  obtain ⟨d, -, -, type, -, hproducer⟩ := (emitted_of_contains h hb).exists_producer hmem hcomponent
  exact ⟨b.component, type, hproducer⟩

/-! ## The code of one use -/

/-- The type of what is passed on to parameters: that of the only one, or a tuple with the label of
each. -/
def argumentsType : List Property → TypeExpr
  | [q] => q.type
  | qs => .tuple (qs.map fun q => ⟨some q.label, q.type⟩)

namespace Emission

/-- The signature of a function for the property `p`. -/
def signature (p : Property) (name : String) (parameters : List Property) : String :=
  (if p.type.wrapper?.any (·.sendable) then "@Sendable " else "") ++ "func " ++ name ++ "(" ++
    commas (parameters.map Property.source) ++ ") -> " ++ p.type.produced.source

/-- **An expression for the property `p` uses a function and passes on the labels.** -/
inductive Passes (p : Property) (function : String) : List String → String → Prop
  /-- The value of the property is what the function gives back. -/
  | called : p.isDeferred = false → Passes p function [] (function ++ "()")
  /-- The property holds the function itself. -/
  | handed : p.isDeferred = true → Passes p function [] (p.type.source ++ "(" ++ function ++ ")")
  /-- The property holds a closure with one parameter, named as that of the function. -/
  | single {label : String} : p.isDeferred = true →
    Passes p function [label] (p.type.source ++ " \x7b " ++ label ++ " in " ++ function ++ "(" ++
      label ++ ": " ++ label ++ ") \x7d")
  /-- The property holds a closure that takes a tuple apart. -/
  | several {labels : List String} : p.isDeferred = true → 2 ≤ labels.length →
    Passes p function labels (p.type.source ++ " \x7b forwardedProperties in " ++ function ++ "(" ++
      commas (labels.map fun label => label ++ ": forwardedProperties." ++ label) ++ ") \x7d")

/-- **A declaration uses a function with the parameters** that are given: its code is the function and a
constant, or the constant only; and the constant passes on what the parameters take. -/
inductive Uses (name : String) (parameters : List Property) : Emission → Prop
  | declaring {p : Property} {c : Component} {erased : Bool} {body : List Emission}
      {inner value use : String} :
    (Emission.built p c erased (some name) body).code =
        .ok (functionCode (signature p name parameters) inner value ++ constant p.label use) →
      Passes p name (parameters.map (·.label)) use →
      Uses name parameters (.built p c erased (some name) body)
  | again {p : Property} {c : Component} {use : String} :
    (Emission.recursive p c name).code = .ok (constant p.label use) →
      Passes p name (parameters.map (·.label)) use → Uses name parameters (.recursive p c name)

/-- A factory passes on the labels of what is forwarded. -/
theorem passes_factoryExpression (hp : p.isDeferred = true) :
    Passes p name (c.forwarded.map (·.label)) (factoryExpression p c name) := by
  unfold factoryExpression
  cases hforwarded : c.forwarded with
  | nil => exact .handed hp
  | cons q qs =>
    cases qs with
    | nil => exact .single hp
    | cons q' qs =>
      have hseveral : Passes p name ((q :: q' :: qs).map (·.label)) _ := .several hp (by simp)
      rw [List.map_map] at hseveral
      exact hseveral

end Emission

/-- **The code of a value with a function** is the function, with what is forwarded as its parameters, and
a constant that uses it. -/
theorem Emission.uses_of_code {erased : Bool} {body : List Emission} {arguments inner : String}
    (hplain : p.isDeferred = false → c.hasForwarded = false) (hcall : c.arguments = .ok arguments)
    (hbody : Emission.codeAll body = .ok inner) :
    (Emission.built p c erased (some name) body).Uses name c.forwarded := by
  have hcode : (Emission.built p c erased (some name) body).code = _ :=
    Emission.code_built_some hcall hbody
  cases hdeferred : p.isDeferred with
  | true =>
    rw [hdeferred, if_pos rfl] at hcode
    exact .declaring hcode (Emission.passes_factoryExpression hdeferred)
  | false =>
    -- the function of a value that is built at once has no parameters, and so the call no arguments
    have hforwarded : c.forwarded = [] := by
      simpa [Component.hasForwarded_eq_not_isEmpty] using hplain hdeferred
    have hwrapper : p.type.wrapper? = none := by
      simpa [Property.isDeferred, TypeExpr.isDeferred] using hdeferred
    have hproduced : p.type.produced = p.type := by
      simp [TypeExpr.produced, TypeExpr.isDeferred, hwrapper]
    have hsignature : signature p name [] = "func " ++ name ++ "() -> " ++ p.type.source := by
      rw [signature, hwrapper, hproduced]
      simp [commas, String.append_assoc]
    rw [hdeferred, if_neg Bool.false_ne_true, calledCode, ← hsignature] at hcode
    rw [hforwarded]
    exact .declaring hcode (.called hdeferred)

namespace RootEmission

/-- **Each use of a function passes on what is forwarded** to the component. -/
theorem Emits.uses (h : registry.build limit root = .ok g) (he : g.Emits e)
    (huse : e.use? = some (name, c)) : e.Uses name c.forwarded := by
  obtain ⟨receiver, type, hproducer⟩ := he.exists_producer h huse
  obtain ⟨-, hplain, -⟩ := Resolution.producer_eq_ok_iff.1 hproducer
  obtain ⟨outer, b, hb, hmem⟩ := he
  cases e with
  | renamed p fulfilling erased => cases huse
  | recursive p d function =>
    cases huse
    have hdeferred := (emitted_of_contains h hb).isDeferred_of_recursive hmem
    exact .again rfl (Emission.passes_factoryExpression hdeferred)
  | built p d erased function body =>
    cases function with
    | none => cases huse
    | some function =>
      cases huse
      obtain ⟨earlier, later, hsplit⟩ := List.append_of_mem hmem
      have hbody := Contains.inner hb hsplit
      obtain ⟨text, htext⟩ := (emitted_of_contains h hbody).called
      obtain ⟨inner, hinner⟩ := exists_codeAll_of_contains h hbody
      exact Emission.uses_of_code hplain (Component.exists_arguments htext) hinner

end RootEmission

/-- **Functions are used as they are declared.** Let a root be built from components that register, and let
one of its declarations use a function for a component. Then some declaration of the root declares the
function, and it is for the same component; the parameters are the forwarded properties of the component,
in ascending order. Every declaration that uses the function, that one and those that refer back to it,
passes on exactly the labels of these parameters, in this order, and the function itself if there are none.
Where the type of such a declaration says what is passed on, it says the type of these parameters. -/
theorem Registry.functions_used_as_declared {components : List Component}
    (hregister : Registry.register components = .ok registry)
    (h : registry.build limit root = .ok g) (he : g.Emits e) (huse : e.use? = some (name, c)) :
    ∃ p erased body parameters,
      g.Emits (.built p c erased (some name) body) ∧
      parameters.Perm ((c.dependencies.filter (·.isForwarded)).map (·.property)) ∧
      (parameters.Pairwise fun q q' => (Property.compare q q').isLE = true) ∧
      ∀ e', g.Emits e' → ∀ d, e'.use? = some (name, d) →
        d = c ∧ e'.Uses name parameters ∧
          (e'.property.type.wrapper?.any (·.forwards) = true →
            e'.property.type.generics.head? = some (argumentsType parameters)) := by
  obtain ⟨scope, -, hemit⟩ := Registry.build_eq_ok h
  have hr := Registry.unambiguous_of_register hregister
  have hregistered : ∀ {e' : Emission} {d : Component}, g.Emits e' → e'.use? = some (name, d) →
      d ∈ registry.components := by
    intro e' d he' huse'
    obtain ⟨receiver, type, hproducer⟩ := he'.exists_producer h huse'
    exact Registry.mem_of_fulfilling (Resolution.producer_eq_ok_iff.1 hproducer).1
  obtain ⟨p, d, erased, body, hdeclared, htype⟩ := he.exists_declaration hemit huse
  -- all uses have this declaration, so they are all for its component
  have hone : ∀ {e' : Emission} {d' : Component}, g.Emits e' → e'.use? = some (name, d') →
      d' = d := by
    intro e' d' he' huse'
    obtain ⟨p', d'', erased', body', hdeclared', htype'⟩ := he'.exists_declaration hemit huse'
    cases RootEmission.eq_of_function hemit hdeclared hdeclared' rfl rfl
    exact Registry.eq_of_concreteType_eq hr (hregistered he' huse') (hregistered hdeclared rfl)
      htype'.symm
  obtain rfl := hone he huse
  refine ⟨p, erased, body, c.forwarded, hdeclared, sorted_perm _ _, pairwise_sorted _, ?_⟩
  intro e' he' d huse'
  obtain rfl := hone he' huse'
  obtain ⟨receiver, type, hproducer⟩ := he'.exists_producer h huse'
  exact ⟨rfl, he'.uses h huse', (Resolution.producer_eq_ok_iff.1 hproducer).2.2⟩

def weight : Property :=
  ⟨"weight", .simple "Int" []⟩

def address : Property :=
  ⟨"address", .simple "Address" []⟩

/-- The factory of parcels. -/
def packing : Property :=
  ⟨"pack", .simple "ForwardingInstantiator"
    [.tuple [⟨some "address", .simple "Address" []⟩, ⟨some "weight", .simple "Int" []⟩],
      .simple "Parcel" []]⟩

/-- A post office packs parcels. -/
def postOffice : Component :=
  ⟨.simple "PostOffice" [], [], true, none, [⟨packing, .instantiated none false⟩], .classType⟩

/-- A parcel has a weight and an address, and the items in it are packed as parcels are. -/
def parcel : Component :=
  ⟨.simple "Parcel" [], [.simple "Item" []], false, none,
    [⟨weight, .forwarded⟩, ⟨address, .forwarded⟩,
      ⟨packing, .instantiated (some (.simple "Item" [])) false⟩], .structType⟩

/-- What is emitted for the post office. -/
def postEmission : RootEmission :=
  ⟨postOffice, [.built packing parcel false (some "__wg_pack")
    [.recursive packing parcel "__wg_pack"]]⟩

theorem forwarded_parcel : parcel.forwarded = [address, weight] := by
  have hsorted : sorted Property.compare [address, weight] = [address, weight] :=
    List.mergeSort_of_pairwise (List.pairwise_pair.2 (by decide))
  exact (sorted_eq_of_perm (.swap address weight [])).trans hsorted

theorem producer_packing {type : TypeExpr} (htype : type ∈ parcel.types) :
    Resolution.producer ⟨[postOffice, parcel]⟩ c packing type = .ok parcel := by
  have hfulfilling : ∀ t ∈ parcel.types,
      Registry.fulfilling ⟨[postOffice, parcel]⟩ t = some parcel := by decide
  refine Resolution.producer_eq_ok_iff.2 ⟨hfulfilling type htype, by decide, fun _ => ?_⟩
  rw [Component.forwardedType, forwarded_parcel]
  rfl

theorem resolve_postOffice (room : Nat) :
    Registry.resolve ⟨[postOffice, parcel]⟩ (room + 2) postOffice =
      .ok ⟨postOffice, [.built packing parcel [.recursive packing parcel] false]⟩ := by
  have hbelow : Resolution.component ⟨[postOffice, parcel]⟩ (room + 1) [⟨postOffice, none⟩] parcel
      (some packing) [] = ([.recursive packing parcel], []) := by
    have hcycle : Chain.eagerCycle? [⟨postOffice, none⟩] parcel (some packing) = none := by decide
    have hcall : Resolution.initializerFaults parcel [] = [] := by decide
    have hdependencies : parcel.dependencies = [⟨weight, .forwarded⟩, ⟨address, .forwarded⟩,
        ⟨packing, .instantiated (some (.simple "Item" [])) false⟩] := rfl
    have hproducer : Resolution.producer ⟨[postOffice, parcel]⟩ parcel packing (.simple "Item" []) =
        .ok parcel := producer_packing (by decide)
    have hback : Chain.hasDeferredStep ⟨[⟨parcel, some packing⟩, ⟨postOffice, none⟩], room⟩ packing
        parcel.concreteType = true := by with_unfolding_all rfl
    rw [Resolution.component, hcycle, hcall, hdependencies]
    simp [Resolution.forEach, Resolution.dependency, hproducer, hback]
  have hcycle : Chain.eagerCycle? [] postOffice none = none := by decide
  have hcall : Resolution.initializerFaults postOffice [] = [] := by decide
  have hdependencies : postOffice.dependencies = [⟨packing, .instantiated none false⟩] := rfl
  have hproducer : Resolution.producer ⟨[postOffice, parcel]⟩ postOffice packing
      packing.type.produced = .ok parcel := producer_packing (by decide)
  have hnew : Chain.hasDeferredStep ⟨[⟨postOffice, none⟩], room + 1⟩ packing parcel.concreteType =
      false := by with_unfolding_all rfl
  rw [Registry.resolve, Resolution.component, hcycle, hcall, hdependencies]
  simp [Resolution.forEach, Resolution.dependency, hproducer, hnew, hbelow]

/-- The function of the post office is used again inside itself, by way of another type that parcels
stand for. What it takes is in order there, though the parcel lists the weight first. -/
theorem parcels_packed_alike :
    Registry.register [postOffice, parcel] = .ok ⟨[postOffice, parcel]⟩ ∧
    Registry.build ⟨[postOffice, parcel]⟩ 256 postOffice = .ok postEmission ∧
    postEmission.Emits (.recursive packing parcel "__wg_pack") ∧
    ∃ p erased body, ∃ parameters : List Property,
      postEmission.Emits (.built p parcel erased (some "__wg_pack") body) ∧
      parameters.Perm [weight, address] ∧
      (Emission.recursive packing parcel "__wg_pack").Uses "__wg_pack" parameters ∧
      packing.type.generics.head? = some (argumentsType parameters) := by
  have hregister : Registry.register [postOffice, parcel] = .ok ⟨[postOffice, parcel]⟩ := by rfl
  have hemit : Scope.emit ⟨postOffice, [.built packing parcel [.recursive packing parcel] false]⟩ =
      .ok postEmission := by
    with_unfolding_all rfl
  have hbuild : Registry.build ⟨[postOffice, parcel]⟩ 256 postOffice = .ok postEmission := by
    simp [Registry.build, resolve_postOffice 254, hemit, bind, Except.bind, Except.mapError]
  have hemits : postEmission.Emits (.recursive packing parcel "__wg_pack") :=
    ⟨_, _, .inner .root (List.nil_append _).symm, List.mem_cons_self⟩
  obtain ⟨p, erased, body, parameters, hdeclared, hperm, -, hall⟩ :=
    Registry.functions_used_as_declared hregister hbuild hemits rfl
  obtain ⟨-, huses, htyped⟩ := hall _ hemits parcel rfl
  exact ⟨hregister, hbuild, hemits, p, erased, body, parameters, hdeclared, hperm, huses,
    htyped (by decide)⟩

end Wiring
