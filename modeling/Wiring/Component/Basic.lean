import Wiring.Component.Initializer

/-!
# Components

A component says what it builds, what it needs for that and which types it can stand for. Components
are the nodes of a dependency graph.
-/

namespace Wiring

/-- The declaration that a component was found on. An extension is built by a static function
`instantiate`, all others by an initializer. -/
inductive Declaration where
  | classType
  | actorType
  | structType
  | extensionType
deriving DecidableEq

/-- A component. -/
structure Component where
  /-- The type that the component builds. -/
  concreteType : TypeExpr
  /-- Further types that the component can stand for. -/
  additionalTypes : List TypeExpr
  isRoot : Bool
  /-- Absent if all properties are passed in the order of their declaration. -/
  initializer : Option Initializer
  dependencies : List Dependency
  declaration : Declaration
deriving DecidableEq

namespace Component

/-- The types that the component can stand for. -/
def types (c : Component) : List TypeExpr :=
  c.concreteType :: c.additionalTypes

/-- The properties that are passed in when the component is built, in ascending order. -/
def forwarded (c : Component) : List Property :=
  sorted Property.compare ((c.dependencies.filter (·.isForwarded)).map (·.property))

/-- Whether anything is passed in when the component is built. -/
def hasForwarded (c : Component) : Bool :=
  c.dependencies.any (·.isForwarded)

/-- The type of what is passed in: the one type, or a tuple with a label for each property. -/
def forwardedType (c : Component) : TypeExpr :=
  match c.forwarded with
  | [p] => p.type
  | ps => .tuple (ps.map fun p => ⟨some p.label, p.type⟩)

/-- The properties that the component makes visible to what it has built. -/
def supplied (c : Component) : List Property :=
  (c.dependencies.filter (·.isSupplied)).map (·.property)

/-- The properties that have to be in scope where the component is built. -/
def required (c : Component) : List Property :=
  c.dependencies.filterMap (·.required?)

/-- Whether the component itself instantiates the property or has it passed in. -/
def holds (c : Component) (p : Property) : Bool :=
  c.dependencies.any fun d => (d.isInstantiated || d.isForwarded) && d.property = p

/-- What is called to build the component. -/
def callee (c : Component) : String :=
  match c.declaration with
  | .extensionType => c.concreteType.source ++ ".instantiate"
  | _ => c.concreteType.source

/-- The arguments with which the component is built. -/
def argumentList (c : Component) : Except InitializerError String :=
  match c.initializer with
  | some i => i.argumentList c.dependencies
  | none => .ok (", ".intercalate (c.dependencies.map fun d =>
      d.property.label ++ ": " ++ d.property.label))

end Component

end Wiring
