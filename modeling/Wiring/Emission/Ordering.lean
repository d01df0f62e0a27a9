import Wiring.Emission.Basic

/-!
# The order of declarations

What a declaration of a body needs has to be declared before it, as far as the same body declares it.
Declarations keep the order of their dependencies where that allows it.

* `Emission.arrange`: the declarations in an order that serves all of them, or a cycle among them.
-/

namespace Wiring

/-! ## Visiting in dependency order -/

namespace Visit

/-- The way from a vertex back to itself: the path from it on, and itself again. The path is given from
its end. -/
def cycleThrough (path : List Nat) (i : Nat) : List Nat :=
  i :: ((path.takeWhile (· ≠ i)).reverse ++ [i])

/-- Visits a vertex after everything that it requires. `path` leads to it, `finished` was visited
before, and at most `room` vertices may still join the path; with no room left, all of them are on it.
The answer lists what has been visited then, or a cycle. -/
def visit (requires : Nat → List Nat) :
    (room : Nat) → (path finished : List Nat) → (i : Nat) → Except (List Nat) (List Nat)
  | 0, path, finished, i =>
    if i ∈ finished then .ok finished else .error (cycleThrough path i)
  | room + 1, path, finished, i =>
    if i ∈ finished then .ok finished
    else if i ∈ path then .error (cycleThrough path i)
    else
      ((requires i).foldlM (visit requires room (i :: path)) finished).map (· ++ [i])

/-- Visits the vertices below `n`, each after everything that it requires. -/
def order (requires : Nat → List Nat) (n : Nat) : Except (List Nat) (List Nat) :=
  (List.range n).foldlM (visit requires n []) []

end Visit

namespace Emission

/-- Where the declaration of a property stands: the first one counts. -/
def indexOf? (body : List Emission) (p : Property) : Option Nat :=
  body.findIdx? fun e => e.property = p

/-- The declarations of the same body that the declaration at `i` needs. -/
def requires (body : List Emission) (i : Nat) : List Nat :=
  (body[i]?.elim [] required).filterMap (indexOf? body)

/-- **The declarations of the body of `c`, each after those that it needs**, or a cycle of properties
that need each other. -/
def arrange (c : Component) (body : List Emission) : Except Fault (List Emission) :=
  match Visit.order (requires body) body.length with
  | .ok order => .ok (order.filterMap (body[·]?))
  | .error cycle =>
    .error (.propertyCycle c.concreteType
      (cycle.filterMap fun i => body[i]?.map Emission.property))

end Emission

end Wiring
