import Wiring.Fault
import Wiring.Scope

/-!
# What is emitted for a root

An emission tree holds, for each declaration of a scope, the name of the function that builds its
value, if there is one; what a body declares stands in the order in which it is emitted.

* `Emission.required`: what has to be in scope where a declaration is emitted.
-/

namespace Wiring

/-- An emitted declaration. -/
inductive Emission where
  /-- A value built from `component`, or a factory for it. `function` is the nested function that builds
  the value after the declarations `body`. -/
  | built (property : Property) (component : Component) (erased : Bool) (function : Option String)
      (body : List Emission)
  /-- A factory made from the function of an enclosing declaration. -/
  | recursive (property : Property) (component : Component) (function : String)
  /-- Another name for a property in scope. -/
  | renamed (property fulfilling : Property) (erased : Bool)

/-- A root with the declarations of its initializer. -/
structure RootEmission where
  component : Component
  body : List Emission

/-- What a component and the declarations of its body need from outside, in ascending order. -/
def Component.needs (c : Component) (below : List Property) : List Property :=
  sortedSet Property.compare ((c.required ++ below).filter fun p => p ∉ c.supplied)

namespace Emission

/-- The property that a declaration declares. -/
def property : Emission → Property
  | .built p _ _ _ _ | .recursive p _ _ | .renamed p _ _ => p

mutual

/-- **What has to be in scope where a declaration is emitted**, in ascending order. A recursive
reference needs nothing: the function that it uses has what it needs. -/
def required : Emission → List Property
  | .built _ c _ _ body => c.needs (requiredAll body)
  | .recursive _ _ _ => []
  | .renamed _ fulfilling _ => [fulfilling]

/-- What some declarations need, each of them for itself. -/
def requiredAll : List Emission → List Property
  | [] => []
  | e :: es => required e ++ requiredAll es

end

end Emission

/-- What has to be in scope around a root. -/
def RootEmission.required (root : RootEmission) : List Property :=
  root.component.needs (Emission.requiredAll root.body)

end Wiring
