import Mathlib.Data.List.Forall2
import Wiring.Proofs.Component.Supply
import Wiring.Proofs.Resolution.Visits

/-!
# The scopes that resolution gives back

A root that resolves has a tree of scopes in which every dependency is settled: what is received has an
ancestor that supplies it, and what is instantiated is built by the registry's producer or refers back
to a factory of the chain.

* `Resolution.Resolves`: such a tree, without the log and the order of the calls.
* `resolves_of_resolve`: the scope of a root is one.
* `Resolves.settled`, `Resolves.declares`: what holds of each dependency and each declaration.
* `Chain.exists_supplier_of_locateIn`: the nearest supplier of a property.
-/

namespace Wiring

variable {registry : Registry} {limit : Nat}

/-! ## Suppliers -/

namespace Chain

/-- An ancestor that does not supply a property is passed over. -/
theorem locateIn_cons_of_not_supplied {p : Property} {frame parent : Frame} {older : List Frame}
    (h : p ∉ parent.component.supplied) :
    locateIn p (frame :: parent :: older) = locateIn p (parent :: older) := by
  rw [locateIn, if_neg h]

/-- **The nearest ancestor that supplies a property** is found by way of ancestors that do not. -/
theorem exists_supplier_of_locateIn {p : Property} :
    ∀ {frame : Frame} {older : List Frame} {index : Nat},
      locateIn p (frame :: older) = .available index →
      ∃ newer f rest, older = newer ++ f :: rest ∧ index = rest.length ∧
        p ∈ f.component.supplied ∧ ∀ g ∈ newer, p ∉ g.component.supplied
  | _, [], _, h => by cases h
  | frame, parent :: older, index, h => by
    simp only [locateIn] at h
    split at h
    · rename_i hsupplied
      split at h
      · cases h
      · cases h
        exact ⟨[], parent, older, rfl, rfl, hsupplied, by simp⟩
    · rename_i hsupplied
      obtain ⟨newer, f, rest, rfl, hindex, hf, hnewer⟩ := exists_supplier_of_locateIn h
      refine ⟨parent :: newer, f, rest, rfl, hindex, hf, ?_⟩
      intro g hg
      rcases List.mem_cons.1 hg with rfl | hg
      · exact hsupplied
      · exact hnewer g hg

end Chain

namespace Resolution

/-- **A dependency is settled**, but for what is below it: an ancestor supplies what is received; what is
renamed the component holds itself, or an ancestor supplies it; and a root has nothing forwarded. -/
def Settled (frame : Frame) (older : List Frame) (d : Dependency) : Prop :=
  match d.origin with
  | .forwarded => frame.via ≠ none
  | .received => ∃ index, Chain.locateIn d.property (frame :: older) = .available index
  | .aliased fulfilling _ => frame.component.holds fulfilling = true ∨
      ∃ index, Chain.locateIn fulfilling (frame :: older) = .available index
  | .instantiated _ _ => True

/-- **Some dependencies of the component at the end of a chain have the declarations `bindings`**, and
all that is below them is settled. -/
inductive Resolves (registry : Registry) :
    Nat → Frame → List Frame → List Dependency → List Binding → Prop
  | nil {room : Nat} {frame : Frame} {older : List Frame} :
    Resolves registry room frame older [] []
  | given {room : Nat} {frame : Frame} {older : List Frame} {d : Dependency}
      {ds : List Dependency} {bindings : List Binding} :
    d.isDeclared = false → Settled frame older d →
      Resolves registry room frame older ds bindings →
      Resolves registry room frame older (d :: ds) bindings
  | renamed {room : Nat} {frame : Frame} {older : List Frame} {d : Dependency}
      {fulfilling : Property} {erased : Bool} {ds : List Dependency} {bindings : List Binding} :
    d.origin = .aliased fulfilling erased → Settled frame older d →
      Resolves registry room frame older ds bindings →
      Resolves registry room frame older (d :: ds)
        (.renamed d.property fulfilling erased :: bindings)
  | recursive {room : Nat} {frame : Frame} {older : List Frame} {d : Dependency} {q : Component}
      {fulfilling : Option TypeExpr} {erased : Bool} {ds : List Dependency}
      {bindings : List Binding} :
    d.origin = .instantiated fulfilling erased →
      producer registry frame.component d.property
        (fulfilling.getD d.property.type.produced) = .ok q →
      Chain.hasDeferredStep ⟨frame :: older, room⟩ d.property q.concreteType = true →
      Resolves registry room frame older ds bindings →
      Resolves registry room frame older (d :: ds) (.recursive d.property q :: bindings)
  | built {room : Nat} {frame : Frame} {older : List Frame} {d : Dependency} {q : Component}
      {fulfilling : Option TypeExpr} {erased : Bool} {text : String} {ds : List Dependency}
      {bindings inner : List Binding} :
    d.origin = .instantiated fulfilling erased →
      producer registry frame.component d.property
        (fulfilling.getD d.property.type.produced) = .ok q →
      Chain.hasDeferredStep ⟨frame :: older, room + 1⟩ d.property q.concreteType = false →
      Chain.eagerCycle? (frame :: older) q (some d.property) = none →
      q.argumentList = .ok text →
      Resolves registry room ⟨q, some d.property⟩ (frame :: older) q.dependencies inner →
      Resolves registry (room + 1) frame older ds bindings →
      Resolves registry (room + 1) frame older (d :: ds)
        (.built d.property q inner erased :: bindings)

theorem receivingFaults_eq_nil_iff {chain : Chain} {c : Component} {p : Property} :
    receivingFaults chain c p = [] ↔ ∃ index, chain.locate p = .available index := by
  unfold receivingFaults
  cases chain.locate p with
  | available index => simp
  | missing => simp
  | underConstruction index instantiator => cases p.isDeferred <;> simp

/-- The dependencies of a component that report nothing are settled, if what is below them is. -/
theorem resolves_of_forEach {room : Nat} {frame : Frame} {older : List Frame}
    (hbelow : ∀ q p inner, component registry room (frame :: older) q (some p) [] = (inner, []) →
      ∃ less text, room = less + 1 ∧ Chain.eagerCycle? (frame :: older) q (some p) = none ∧
        q.argumentList = .ok text ∧
        Resolves registry less ⟨q, some p⟩ (frame :: older) q.dependencies inner) :
    ∀ {ds : List Dependency} {bindings : List Binding},
      forEach (dependency registry ⟨frame :: older, room⟩ frame.component frame.via.isNone
        fun q p log => component registry room (frame :: older) q (some p) log) ds [] =
          (bindings, []) →
      Resolves registry room frame older ds bindings
  | [], bindings, h => by
    cases h
    exact .nil
  | d :: ds, bindings, h => by
    rw [forEach_cons, Prod.mk.injEq] at h
    obtain ⟨hbindings, hlog⟩ := h
    set step := dependency registry ⟨frame :: older, room⟩ frame.component frame.via.isNone
      fun q p log => component registry room (frame :: older) q (some p) log with hstep
    -- nothing is reported in the end, so nothing was reported by this dependency
    have hd : (step d []).2 = [] := by
      have hkept := prefix_forEach (prefix_dependency registry ⟨frame :: older, room⟩
        frame.component frame.via.isNone) ds (step d []).2
      rw [hlog] at hkept
      exact List.prefix_nil.1 hkept
    rw [hd] at hbindings hlog
    have hrest : Resolves registry room frame older ds (forEach step ds []).1 :=
      resolves_of_forEach hbelow (Prod.ext rfl hlog)
    rw [← hbindings]
    cases horigin : d.origin with
    | forwarded =>
      simp only [hstep, dependency, horigin] at hd ⊢
      refine .given (by simp [Dependency.isDeclared, horigin]) ?_ hrest
      cases hvia : frame.via <;> simp [Settled, horigin, hvia] at hd ⊢
    | received =>
      simp only [hstep, dependency, horigin, List.nil_append, receivingFaults_eq_nil_iff] at hd ⊢
      refine .given (by simp [Dependency.isDeclared, horigin]) ?_ hrest
      simp only [Settled, horigin]
      exact hd
    | aliased fulfilling erased =>
      simp only [hstep, dependency, horigin] at hd ⊢
      refine .renamed horigin ?_ hrest
      cases hholds : frame.component.holds fulfilling with
      | true => simp [Settled, horigin, hholds]
      | false =>
        simp only [hholds, List.nil_append, Bool.false_eq_true, if_false,
          receivingFaults_eq_nil_iff] at hd
        simp only [Settled, horigin]
        exact Or.inr hd
    | instantiated fulfilling erased =>
      cases hproducer : producer registry frame.component d.property
          (fulfilling.getD d.property.type.produced) with
      | error fault => simp [hstep, dependency, horigin, hproducer] at hd
      | ok q =>
        cases hback : Chain.hasDeferredStep ⟨frame :: older, room⟩ d.property q.concreteType with
        | true =>
          simp only [hstep, dependency, horigin, hproducer, hback, if_true]
          exact .recursive horigin hproducer hback hrest
        | false =>
          simp only [hstep, dependency, horigin, hproducer, hback, Bool.false_eq_true, if_false] at hd ⊢
          obtain ⟨less, text, rfl, hcycle, htext, hinner⟩ := hbelow q d.property _ (Prod.ext rfl hd)
          exact .built horigin hproducer hback hcycle htext hinner hrest

/-- A call that reports nothing enters its component and settles all below it. -/
theorem resolves_of_component :
    ∀ {room : Nat} {frames : List Frame} {c : Component} {via : Option Property}
      {bindings : List Binding}, component registry room frames c via [] = (bindings, []) →
      ∃ less text, room = less + 1 ∧ Chain.eagerCycle? frames c via = none ∧
        c.argumentList = .ok text ∧ Resolves registry less ⟨c, via⟩ frames c.dependencies bindings := by
  intro room
  induction room with
  | zero =>
    intro frames c via bindings h
    simp [component] at h
  | succ room ih =>
    intro frames c via bindings h
    simp only [component] at h
    cases hcycle : Chain.eagerCycle? frames c via with
    | some cycle => simp [hcycle] at h
    | none =>
      rw [hcycle] at h
      simp only [List.nil_append] at h
      have hfaults : initializerFaults c [] = [] := by
        have hkept := prefix_forEach (prefix_dependency registry ⟨⟨c, via⟩ :: frames, room⟩
          c via.isNone) c.dependencies (initializerFaults c [])
        rw [congrArg Prod.snd h] at hkept
        exact List.prefix_nil.1 hkept
      rw [hfaults] at h
      cases htext : c.argumentList with
      | error cause => simp [initializerFaults, htext] at hfaults
      | ok text =>
        exact ⟨room, text, rfl, rfl, rfl, resolves_of_forEach (fun q p inner => ih) h⟩

/-! ## What holds in such a tree -/

/-- The declaration of one dependency, with all that is below it. -/
inductive Declares (registry : Registry) (room : Nat) (frame : Frame) (older : List Frame)
    (d : Dependency) : Binding → Prop
  | renamed {fulfilling : Property} {erased : Bool} :
    d.origin = .aliased fulfilling erased →
      Declares registry room frame older d (.renamed d.property fulfilling erased)
  | recursive {q : Component} {fulfilling : Option TypeExpr} {erased : Bool} :
    d.origin = .instantiated fulfilling erased →
      producer registry frame.component d.property
        (fulfilling.getD d.property.type.produced) = .ok q →
      Chain.hasDeferredStep ⟨frame :: older, room⟩ d.property q.concreteType = true →
      Declares registry room frame older d (.recursive d.property q)
  | built {less : Nat} {q : Component} {fulfilling : Option TypeExpr} {erased : Bool}
      {text : String} {inner : List Binding} :
    room = less + 1 → d.origin = .instantiated fulfilling erased →
      producer registry frame.component d.property
        (fulfilling.getD d.property.type.produced) = .ok q →
      q.argumentList = .ok text →
      Resolves registry less ⟨q, some d.property⟩ (frame :: older) q.dependencies inner →
      Declares registry room frame older d (.built d.property q inner erased)

namespace Resolves

variable {room : Nat} {frame : Frame} {older : List Frame} {ds : List Dependency}
  {bindings : List Binding}

/-- **Every dependency is settled.** -/
theorem settled (h : Resolves registry room frame older ds bindings) :
    ∀ d ∈ ds, Settled frame older d := by
  induction h with
  | nil => intro d hd; cases hd
  | given _ hsettled _ ih => exact List.forall_mem_cons.2 ⟨hsettled, ih⟩
  | renamed _ hsettled _ ih => exact List.forall_mem_cons.2 ⟨hsettled, ih⟩
  | recursive horigin _ _ _ ih =>
    exact List.forall_mem_cons.2 ⟨by simp [Settled, horigin], ih⟩
  | built horigin _ _ _ _ _ _ _ ih =>
    exact List.forall_mem_cons.2 ⟨by simp [Settled, horigin], ih⟩

/-- **Each dependency that is declared has one declaration**, in the order of the dependencies. -/
theorem declares (h : Resolves registry room frame older ds bindings) :
    List.Forall₂ (Declares registry room frame older) (ds.filter (·.isDeclared)) bindings := by
  induction h with
  | nil => exact .nil
  | given hd _ _ ih => rwa [List.filter_cons_of_neg (by simp [hd])]
  | renamed horigin _ _ ih =>
    rw [List.filter_cons_of_pos (by simp [Dependency.isDeclared, horigin])]
    exact .cons (.renamed horigin) ih
  | recursive horigin hproducer hback _ ih =>
    rw [List.filter_cons_of_pos (by simp [Dependency.isDeclared, horigin])]
    exact .cons (.recursive horigin hproducer hback) ih
  | built horigin hproducer _ _ htext hinner _ _ ih =>
    rw [List.filter_cons_of_pos (by simp [Dependency.isDeclared, horigin])]
    exact .cons (.built rfl horigin hproducer htext hinner) ih

end Resolves

end Resolution

/-- **The scope of a root that resolves** settles all its dependencies. -/
theorem Registry.resolves_of_resolve {root : Component} {scope : Scope}
    (h : registry.resolve limit root = .ok scope) :
    scope.component = root ∧ ∃ room text, root.argumentList = .ok text ∧
      Resolution.Resolves registry room ⟨root, none⟩ [] root.dependencies scope.bindings := by
  obtain ⟨hcomponent, hroot⟩ := Registry.resolve_eq_ok_iff.1 h
  obtain ⟨room, text, -, -, htext, hresolves⟩ := Resolution.resolves_of_component hcomponent
  exact ⟨hroot, room, text, htext, hresolves⟩

end Wiring
