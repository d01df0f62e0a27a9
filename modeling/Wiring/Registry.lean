import Wiring.Fault

/-!
# The registry of components

A registry holds the components of one run; each type is fulfilled by one component at most.

* `Registry.register`: the registry of some components, or all clashes among them.
* `Registry.fulfilling`: the component that stands for a type.
-/

namespace Wiring

/-- The components of one run, in the order in which they were registered. -/
structure Registry where
  components : List Component

namespace Registry

/-- A component among `components` that stands for the type `t`: the first one. -/
def claimant (components : List Component) (t : TypeExpr) : Option Component :=
  components.find? fun c => t ∈ c.types

/-- The clashes of some components with those before them. A type that a component lists twice is a
clash twice if another component stands for it. -/
def clashes : (earlier later : List Component) → List Fault
  | _, [] => []
  | earlier, c :: later =>
    (c.types.filterMap fun t =>
      (claimant earlier t).map fun first =>
        .duplicateFulfillment t first.concreteType c.concreteType) ++
      clashes (earlier ++ [c]) later

/-- **The registry of some components.** A component that is listed again is not registered again; that
two different ones stand for one type is a fault, and all such faults are reported. -/
def register (components : List Component) : Except (List Fault) Registry :=
  let kept := components.eraseDups
  match clashes [] kept with
  | [] => .ok ⟨kept⟩
  | faults => .error faults

/-- The component that stands for a type. -/
def fulfilling (r : Registry) (t : TypeExpr) : Option Component :=
  claimant r.components t

/-- The roots, in the order in which they were registered. -/
def roots (r : Registry) : List Component :=
  r.components.filter (·.isRoot)

/-- Each type that is fulfilled, with the component that stands for it. -/
def fulfillments (r : Registry) : List (TypeExpr × Component) :=
  r.components.flatMap fun c => c.types.eraseDups.map (·, c)

end Registry

end Wiring
