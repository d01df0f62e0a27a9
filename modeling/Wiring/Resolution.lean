import Wiring.Chain
import Wiring.Registry
import Wiring.Scope

/-!
# Resolving a root

A root is resolved by going down from component to component: instantiated dependencies lead on, all
others are checked against the chain above. Faults are collected, and a faulty dependency does not keep
the ones beside it from being resolved.

* `Registry.resolve`: the scope of a root, or everything that is wrong in its tree.
-/

namespace Wiring

/-! ## Near misses -/

/-- Whether one text is another with something before or after it, separated by a point. -/
def isDottedFrom (long short : String) : Bool :=
  ("." ++ short).toList.isSuffixOf long.toList || (short ++ ".").toList.isPrefixOf long.toList

/-- Whether two types are equal below their decorations, or one is a dotted form of the other. -/
def areNear (a b : TypeExpr) : Bool :=
  let a := a.stripped
  let b := b.stripped
  a = b || isDottedFrom a.source b.source || isDottedFrom b.source a.source

/-- Whether one property may have been meant for the other: one type under two labels, or one label
with types that are near each other. -/
def areSimilar (candidate p : Property) : Bool :=
  if candidate.type = p.type then candidate.label ≠ p.label
  else candidate.label = p.label && areNear candidate.type p.type

namespace Resolution

/-! ## Single dependencies -/

/-- What is wrong with a property that `receiver`, at the end of the chain, needs from an ancestor. -/
def receivingFaults (chain : Chain) (receiver : Component) (p : Property) : List Fault :=
  match chain.locate p with
  | .available _ => []
  | .underConstruction supplier instantiator =>
    if p.isDeferred then
      [.deferredCycle p receiver.concreteType (chain.stepTypesFrom supplier ++ [p.type])]
    else [.receivedWhileInstantiated p receiver.concreteType instantiator chain.types]
  | .missing =>
    [.unfulfillableReceived p chain.types (chain.available.filter (areSimilar · p))]

/-- What is wrong with the initializer of a component, unless `log` says so already. -/
def initializerFaults (c : Component) (log : List Fault) : List Fault :=
  let isReported := log.any fun
    | .initializer component _ => component = c.concreteType
    | _ => false
  match c.argumentList with
  | .error cause => if isReported then [] else [.initializer c.concreteType cause]
  | .ok _ => []

/-- The producer of an instantiated dependency of `c`, or why the dependency does not fit what the
registry holds. -/
def producer (registry : Registry) (c : Component) (p : Property) (type : TypeExpr) :
    Except Fault Component :=
  match registry.fulfilling type with
  | none => .error (.unfulfillableType p c.concreteType type)
  | some producer =>
    if !p.isDeferred && producer.hasForwarded then
      .error (.forwardedOnInstantiated p c.concreteType (.simple Wrapper.instantiator.name [p.type]))
    else if p.type.wrapper?.any (·.forwards) && p.type.generics.head? ≠ some producer.forwardedType then
      .error (.genericMismatch p c.concreteType (p.type.withGeneric 0 producer.forwardedType))
    else .ok producer

/-! ## Components -/

/-- Goes through dependencies in order. Each step adds its faults to the log and may declare
something. -/
def forEach (step : Dependency → List Fault → Option Binding × List Fault) :
    List Dependency → List Fault → List Binding × List Fault
  | [], log => ([], log)
  | d :: ds, log =>
    let (binding, log) := step d log
    let (bindings, log) := forEach step ds log
    (binding.toList ++ bindings, log)

/-- Resolves one dependency of `c`, the component at the end of the chain. A producer that has to be
entered is handed to `below`. -/
def dependency (registry : Registry) (chain : Chain) (c : Component) (isRoot : Bool)
    (below : Component → Property → List Fault → List Binding × List Fault)
    (d : Dependency) (log : List Fault) : Option Binding × List Fault :=
  let p := d.property
  match d.origin with
  | .forwarded => (none, log ++ if isRoot then [.forwardedOnRoot c.concreteType p] else [])
  | .received => (none, log ++ receivingFaults chain c p)
  | .aliased fulfilling erased =>
    (some (.renamed p fulfilling erased),
      log ++ if c.holds fulfilling then [] else receivingFaults chain c fulfilling)
  | .instantiated fulfilling erased =>
    match producer registry c p (fulfilling.getD p.type.produced) with
    | .error fault => (none, log ++ [fault])
    | .ok producer =>
      if chain.hasDeferredStep p producer.concreteType then (some (.recursive p producer), log)
      else
        let (bindings, log) := below producer p log
        (some (.built p producer bindings erased), log)

/-- Resolves the component `c`, for which the chain `frames` has `room` left. Faults are added to the
log; a component that cannot be entered declares nothing. -/
def component (registry : Registry) :
    (room : Nat) → (frames : List Frame) → (c : Component) → (via : Option Property) →
      (log : List Fault) → List Binding × List Fault
  | 0, frames, c, _, log => ([], log ++ [Chain.overflow frames c])
  | room + 1, frames, c, via, log =>
    match Chain.eagerCycle? frames c via with
    | some cycle => ([], log ++ [.structuralCycle cycle])
    | none =>
      let frames := ⟨c, via⟩ :: frames
      forEach
        (dependency registry ⟨frames, room⟩ c via.isNone fun producer p log =>
          component registry room frames producer (some p) log)
        c.dependencies (log ++ initializerFaults c log)

end Resolution

/-- **The scope of a root**, in whose chains there may be `limit` components, or everything that is
wrong in its tree. -/
def Registry.resolve (registry : Registry) (limit : Nat) (root : Component) :
    Except (List Fault) Scope :=
  match Resolution.component registry limit [] root none [] with
  | (bindings, []) => .ok ⟨root, bindings⟩
  | (_, faults) => .error faults

end Wiring
