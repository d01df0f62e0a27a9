import Wiring.Emission.Ordering

/-!
# From scopes to emissions

A declaration gets a nested function if its value is made on demand or if its component declares
something itself. The function is named after the label, and a number tells it from the functions that
the tree has declared before. A recursive reference uses the nearest enclosing function for the same
property and the same component.

* `Scope.emit`: the emission of a root's scope.
-/

namespace Wiring

/-- A function that encloses a declaration. -/
structure Factory where
  property : Property
  component : Component
  name : String

namespace Factory

/-- The name number `n` for a function: the plain name, then `_2`, `_3` and so on after it. -/
def candidate (plain : String) (n : Nat) : String :=
  if n = 0 then plain else plain ++ "_" ++ toString (n + 1)

/-- The plain name of a function that builds a property. -/
def plainName (p : Property) : String :=
  "__wg_" ++ p.label

/-- The first name for a function building `p` that is not declared. One of the first names is free,
because there are more of them than of declared ones. -/
def freshName (declared : List String) (p : Property) : String :=
  let names := (List.range (declared.length + 1)).map (candidate (plainName p))
  (names.find? (· ∉ declared)).getD (plainName p)

/-- The nearest function that builds the property from the component; the nearest one comes first. -/
def find? (enclosing : List Factory) (p : Property) (c : Component) : Option Factory :=
  enclosing.find? fun f => f.property = p && f.component.concreteType = c.concreteType

end Factory

namespace Binding

mutual

/-- What is emitted for a declaration inside the functions `enclosing`, where the tree has declared
functions of the names `declared`; the answer holds the declared names then. -/
def emit (enclosing : List Factory) (declared : List String) :
    Binding → Except Fault (Emission × List String)
  | .built p c bindings erased =>
    if p.isDeferred || !bindings.isEmpty then do
      let name := Factory.freshName declared p
      let (body, declared) ← emitAll (⟨p, c, name⟩ :: enclosing) (name :: declared) bindings
      let body ← Emission.arrange c body
      return (.built p c erased (some name) body, declared)
    else return (.built p c erased none [], declared)
  | .recursive p c =>
    match Factory.find? enclosing p c with
    | some factory => return (.recursive p c factory.name, declared)
    | none => throw (.unresolvedRecursion p c.concreteType)
  | .renamed p fulfilling erased => return (.renamed p fulfilling erased, declared)

/-- What is emitted for several declarations, one after the other. -/
def emitAll (enclosing : List Factory) (declared : List String) :
    List Binding → Except Fault (List Emission × List String)
  | [] => return ([], declared)
  | b :: bs => do
    let (e, declared) ← emit enclosing declared b
    let (es, declared) ← emitAll enclosing declared bs
    return (e :: es, declared)

end

end Binding

/-- **The emission of a root's scope**, or why there is none. -/
def Scope.emit (scope : Scope) : Except Fault RootEmission := do
  let (body, _) ← Binding.emitAll [] [] scope.bindings
  let body ← Emission.arrange scope.component body
  return ⟨scope.component, body⟩

end Wiring
