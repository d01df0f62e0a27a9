import Wiring.Fault

/-!
# Chains of components

While a tree is being resolved, a chain holds the components from the root down to the one that is
being resolved, each with the property of its parent that it is built for.

* `Chain.enter`: goes on to a component, unless the chain is full or closes a cycle of eager steps.
* `Chain.locate`: finds the nearest ancestor that supplies a property.
-/

namespace Wiring

/-- A component of a chain. -/
structure Frame where
  component : Component
  /-- The property of the parent that the component is built for; absent for a root. -/
  via : Option Property

/-- The components from a root to the one that is being resolved, which comes first, and how many more
may follow. -/
structure Chain where
  frames : List Frame
  room : Nat

/-- Where a received property comes from. Ancestors are counted from the root, which is 0. -/
inductive Location where
  /-- An ancestor supplies it. -/
  | available (supplier : Nat)
  /-- An ancestor supplies it, and it is the very property that the chain leads through. -/
  | underConstruction (supplier : Nat) (instantiator : TypeExpr)
  /-- No ancestor supplies it. -/
  | missing

namespace Chain

/-- The chain without components. -/
def start (limit : Nat) : Chain :=
  ⟨[], limit⟩

/-- How many components the chain has. -/
def depth (chain : Chain) : Nat :=
  chain.frames.length

/-- How many components the chain may have. -/
def limit (chain : Chain) : Nat :=
  chain.depth + chain.room

/-- The concrete types of the components, the root's first. -/
def typesOf (frames : List Frame) : List TypeExpr :=
  (frames.map (·.component.concreteType)).reverse

/-- The concrete types of the components, the root's first. -/
def types (chain : Chain) : List TypeExpr :=
  typesOf chain.frames

/-- Whether a step leads to a component that has to be built at once. -/
def isEager (via : Option Property) : Bool :=
  via.all (!·.isDeferred)

/-- The cycle of types that building `c` for `via` would close, if all its steps are eager. It runs
from the latest component of the same concrete type. -/
def eagerCycle? (frames : List Frame) (c : Component) (via : Option Property) :
    Option (List TypeExpr) :=
  let isOther (f : Frame) : Bool := f.component.concreteType ≠ c.concreteType
  match frames.dropWhile isOther with
  | [] => none
  | start :: _ =>
    let newer := frames.takeWhile isOther
    if newer.all (isEager ·.via) && isEager via then
      some (typesOf (newer ++ [start]) ++ [c.concreteType])
    else none

/-- The fault of a chain that is full. -/
def overflow (frames : List Frame) (c : Component) : Fault :=
  .tooDeep frames.length (typesOf frames ++ [c.concreteType])

/-- **Goes on to a component.** -/
def enter (chain : Chain) (c : Component) (via : Option Property) : Except Fault Chain :=
  match chain.room with
  | 0 => .error (overflow chain.frames c)
  | room + 1 =>
    match eagerCycle? chain.frames c via with
    | some cycle => .error (.structuralCycle cycle)
    | none => .ok ⟨⟨c, via⟩ :: chain.frames, room⟩

/-- Goes back from the last component. -/
def leave (chain : Chain) : Chain :=
  match chain.frames with
  | [] => chain
  | _ :: frames => ⟨frames, chain.room + 1⟩

/-- The types of the properties that lead from the ancestor `index` to the end of the chain. -/
def stepTypesFrom (chain : Chain) (index : Nat) : List TypeExpr :=
  (chain.frames.reverse.drop (index + 1)).filterMap fun f => f.via.map (·.type)

/-- Whether the chain has come to the producer through the factory `p` already. -/
def hasDeferredStep (chain : Chain) (p : Property) (producer : TypeExpr) : Bool :=
  p.isDeferred &&
    chain.frames.any fun f => f.via = some p && f.component.concreteType = producer

/-- The nearest component above the first frame that supplies `p`. -/
def locateIn (p : Property) : List Frame → Location
  | child :: parent :: older =>
    if p ∈ parent.component.supplied then
      if child.via = some p then .underConstruction older.length parent.component.concreteType
      else .available older.length
    else locateIn p (parent :: older)
  | _ => .missing

/-- **The nearest ancestor that supplies a property.** -/
def locate (chain : Chain) (p : Property) : Location :=
  locateIn p chain.frames

/-- Everything that the ancestors supply, in ascending order. -/
def available (chain : Chain) : List Property :=
  sortedSet Property.compare (chain.frames.tail.flatMap (·.component.supplied))

end Chain

end Wiring
