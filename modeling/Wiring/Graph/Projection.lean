import Wiring.Graph.Basic
import Wiring.Program

/-!
# Graphs of emissions

The graph of a root is drawn while its emission is walked through, a declaration before what its own
body declares. An alias points at the type that builds its property; the properties of a body count as
in scope all through the body and below it, and the innermost one counts.

* `Graph.ofRoots`: the graph of some roots.
* `Registry.graph`: the graph of all roots of a registry.
-/

namespace Wiring

namespace Emission

/-- The concrete type that builds the property of a declaration; a renamed property is built
elsewhere. -/
def builder? : Emission → Option (Property × TypeExpr)
  | .built p c _ _ _ | .recursive p c _ => some (p, c.concreteType)
  | .renamed _ _ _ => none

/-- The properties that are built inside a body with the types that build them, added before those
around it: the last one of the body comes first. -/
def scopeOf (body : List Emission) (scope : List (Property × TypeExpr)) :
    List (Property × TypeExpr) :=
  (body.filterMap builder?).reverse ++ scope

/-- The type that an alias of `p` points at: the one that builds `p`, or, if nothing in scope does, the
one that `p` is declared with. -/
def aliasTarget (scope : List (Property × TypeExpr)) (p : Property) : TypeExpr :=
  ((scope.find? (·.1 = p)).map (·.2)).getD p.type.produced

mutual

/-- The steps that draw a declaration of `parent`. -/
def steps (scope : List (Property × TypeExpr)) (parent : TypeExpr) : Emission → List Graph.Step
  | .built p c _ _ body =>
    let (nodeKind, edgeKind) : NodeKind × EdgeKind :=
      if p.isDeferred then (.deferred, .deferred) else (.instantiated, .instantiated)
    .node c.concreteType nodeKind :: .edge ⟨parent, c.concreteType, p.label, edgeKind⟩ ::
      stepsAll (scopeOf body scope) c.concreteType body
  | .recursive p c _ => [.edge ⟨parent, c.concreteType, p.label, .deferred⟩]
  | .renamed p fulfilling _ =>
    let target := aliasTarget scope fulfilling
    [.node target .received,
      .edge ⟨parent, target, p.label ++ " = " ++ fulfilling.label, .renamed⟩]

/-- The steps that draw the declarations of a body of `parent`. -/
def stepsAll (scope : List (Property × TypeExpr)) (parent : TypeExpr) :
    List Emission → List Graph.Step
  | [] => []
  | e :: es => steps scope parent e ++ stepsAll scope parent es

end

end Emission

/-- The steps that draw a root and everything below it. -/
def RootEmission.steps (root : RootEmission) : List Graph.Step :=
  let type := root.component.concreteType
  .node type .root :: Emission.stepsAll (Emission.scopeOf root.body []) type root.body

/-- **The graph of some roots.** -/
def Graph.ofRoots (roots : List RootEmission) : Graph :=
  Graph.empty.addAll (roots.flatMap RootEmission.steps)

/-- The graph of all roots of a registry, or the faults of all roots. -/
def Registry.graph (registry : Registry) (limit : Nat) : Except (List Fault) Graph :=
  (registry.buildRoots limit).map Graph.ofRoots

end Wiring
