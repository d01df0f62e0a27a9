import Wiring.Component.Basic

/-!
# Scopes

A scope says, for one component in the tree of one root, what its generated body declares: which
properties it builds and how, and which it renames. Properties that are received or forwarded are
declared elsewhere.
-/

namespace Wiring

/-- A declaration in the body of a component. -/
inductive Binding where
  /-- The property is built from `component`, whose own body declares `bindings`. -/
  | built (property : Property) (component : Component) (bindings : List Binding) (erased : Bool)
  /-- The property is a factory that an enclosing scope is defining already. -/
  | recursive (property : Property) (component : Component)
  /-- The property is another name for a property that is in scope. -/
  | renamed (property fulfilling : Property) (erased : Bool)

/-- The property that a declaration declares. -/
def Binding.property : Binding → Property
  | .built p _ _ _ | .recursive p _ | .renamed p _ _ => p

/-- A component and what its body declares. -/
structure Scope where
  component : Component
  bindings : List Binding

end Wiring
