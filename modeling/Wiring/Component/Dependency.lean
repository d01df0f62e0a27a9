import Wiring.Property

/-!
# Dependencies

A dependency is a property that a component needs, together with where its value comes from.
-/

namespace Wiring

/-- Where the value of a dependency comes from. -/
inductive Origin where
  /-- The component has it built. The producer is looked up under `fulfilling` if that is given, and
  the value is wrapped in the property's type if `erased` holds. -/
  | instantiated (fulfilling : Option TypeExpr) (erased : Bool)
  /-- An ancestor supplies it under the same label and type. -/
  | received
  /-- The component itself or an ancestor supplies it as the property `fulfilling`. -/
  | aliased (fulfilling : Property) (erased : Bool)
  /-- Whoever has the component built passes it in. -/
  | forwarded
deriving DecidableEq

/-- A property that a component needs. -/
structure Dependency where
  property : Property
  origin : Origin
deriving DecidableEq

namespace Dependency

/-- The property that has to be in scope already, for a dependency that is neither built nor passed
in. -/
def required? (d : Dependency) : Option Property :=
  match d.origin with
  | .received => some d.property
  | .aliased fulfilling _ => some fulfilling
  | .instantiated _ _ | .forwarded => none

/-- The type under which the producer of an instantiated dependency is looked up. -/
def producedType? (d : Dependency) : Option TypeExpr :=
  match d.origin with
  | .instantiated fulfilling _ => some (fulfilling.getD d.property.type.produced)
  | _ => none

def isInstantiated (d : Dependency) : Bool :=
  match d.origin with
  | .instantiated _ _ => true
  | _ => false

def isForwarded (d : Dependency) : Bool :=
  match d.origin with
  | .forwarded => true
  | _ => false

/-- Whether the component makes the property visible to what it has built: it does unless it receives
the property itself. -/
def isSupplied (d : Dependency) : Bool :=
  match d.origin with
  | .received => false
  | _ => true

end Dependency

end Wiring
