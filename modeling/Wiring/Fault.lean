import Wiring.Component.Basic

/-!
# Faults of a dependency graph

Everything that can be wrong with a graph of components, and how it is worded. Faults are collected as
far as they are independent of each other, in the order in which they are found.
-/

namespace Wiring

/-- What is wrong with a dependency graph. Components are named by their concrete types. -/
inductive Fault where
  /-- Two components stand for one type. -/
  | duplicateFulfillment (type first second : TypeExpr)
  /-- No component stands for the type of an instantiated property. -/
  | unfulfillableType (property : Property) (component type : TypeExpr)
  /-- A producer that needs forwarded values cannot be built at once. -/
  | forwardedOnInstantiated (property : Property) (component expected : TypeExpr)
  /-- No ancestor supplies a received property. -/
  | unfulfillableReceived (property : Property) (chain : List TypeExpr)
      (suggestions : List Property)
  /-- Components build each other at once. -/
  | structuralCycle (cycle : List TypeExpr)
  /-- Properties of one component need each other. -/
  | propertyCycle (component : TypeExpr) (cycle : List Property)
  /-- A factory is received below the place where it is still being made. -/
  | deferredCycle (property : Property) (receiver : TypeExpr) (cycle : List TypeExpr)
  /-- A value is received below the component that is still building it. -/
  | receivedWhileInstantiated (property : Property) (receiver instantiator : TypeExpr)
      (chain : List TypeExpr)
  /-- The argument generic of a wrapper is not the type of what its producer has forwarded. -/
  | genericMismatch (property : Property) (component expected : TypeExpr)
  /-- The initializer of a component cannot be called. -/
  | initializer (component : TypeExpr) (cause : InitializerError)
  /-- Nobody could pass a value to a root. -/
  | forwardedOnRoot (component : TypeExpr) (property : Property)
  /-- A chain of components is longer than allowed. -/
  | tooDeep (limit : Nat) (chain : List TypeExpr)
  /-- A factory refers to an enclosing one that is not there. -/
  | unresolvedRecursion (property : Property) (component : TypeExpr)
deriving DecidableEq

namespace Fault

/-- A chain of parts joined by arrows. -/
def arrows (parts : List String) : String :=
  " -> ".intercalate parts

/-- Types joined by arrows. -/
def typeChain (types : List TypeExpr) : String :=
  arrows (types.map TypeExpr.source)

/-- What to say about the properties that may have been meant; nothing if there are none. -/
def suggestionText (suggestions : List Property) : String :=
  if suggestions.isEmpty then ""
  else
    "\nDid you mean one of the following available properties?" ++
      String.join (suggestions.map fun p => "\n`" ++ p.source ++ "`")

/-- The wording of a fault. -/
def message : Fault → String
  | .duplicateFulfillment type first second =>
    s!"`{type.source}` is fulfilled by both `{first.source}` and `{second.source}`"
  | .unfulfillableType property component type =>
    s!"Property `{property.source}` on `{component.source}` cannot be instantiated: no component " ++
      s!"fulfills `{type.source}`"
  | .forwardedOnInstantiated property component expected =>
    s!"Property `{property.source}` on `{component.source}` has at least one forwarded property of " ++
      s!"its own. Property should instead be of type `{expected.source}`."
  | .unfulfillableReceived property chain suggestions =>
    s!"Received property `{property.source}` is not instantiated or forwarded in chain: " ++
      typeChain chain ++ suggestionText suggestions
  | .structuralCycle cycle => s!"Dependency cycle detected: {typeChain cycle}"
  | .propertyCycle component cycle =>
    s!"Property dependency cycle detected on `{component.source}`: " ++
      arrows (cycle.map Property.source)
  | .deferredCycle property receiver cycle =>
    s!"Deferred dependency cycle detected: {typeChain cycle}. `{receiver.source}` receives " ++
      s!"`{property.source}` while it is still being instantiated. Change `{property.source}` on " ++
      s!"`{receiver.source}` from received to instantiated to break the cycle."
  | .receivedWhileInstantiated property receiver instantiator chain =>
    s!"Property `{property.source}` received by `{receiver.source}` is instantiated by " ++
      s!"`{instantiator.source}` in the same chain: {typeChain chain}. It cannot be received before " ++
      "its instantiation completes."
  | .genericMismatch property component expected =>
    s!"Property `{property.source}` on `{component.source}` does not match the forwarded properties " ++
      s!"of its producer. Property should instead be of type `{expected.source}`."
  | .initializer component cause =>
    s!"Cannot generate an initializer call for `{component.source}`: {cause.message}"
  | .forwardedOnRoot component property =>
    s!"Root `{component.source}` declares forwarded property `{property.source}`, but a root has no " ++
      "caller to forward it"
  | .tooDeep limit chain =>
    s!"Maximum resolution depth of {limit} exceeded in chain: {typeChain chain}"
  | .unresolvedRecursion property component =>
    s!"No factory function in scope for deferred property `{property.source}` of " ++
      s!"`{component.source}`"

end Fault

/-- The wording of several faults, one after the other on lines of their own. -/
def Fault.messages (faults : List Fault) : String :=
  "\n".intercalate (faults.map message)

end Wiring
