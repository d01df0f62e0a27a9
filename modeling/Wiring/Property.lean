import Wiring.Wrapper

/-!
# Properties

A property is a label with a type. Properties are ordered by label, then by type.
-/

namespace Wiring

/-- A labelled, typed slot of a component. -/
structure Property where
  label : String
  type : TypeExpr
deriving DecidableEq, Inhabited

namespace Property

/-- The property as it is declared: `label: Type`. -/
def source (p : Property) : String :=
  p.label ++ ": " ++ p.type.source

/-- Whether the property holds a factory. -/
def isDeferred (p : Property) : Bool :=
  p.type.isDeferred

/-- **The order of properties.** -/
def compare (a b : Property) : Ordering :=
  (Ord.compare a.label b.label).then (TypeExpr.compare a.type b.type)

end Property

end Wiring
