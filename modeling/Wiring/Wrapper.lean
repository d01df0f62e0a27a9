import Wiring.TypeExpr.Order

/-!
# Deferred wrappers

A property may hold a factory in place of a value: its type is then one of five wrapper types, whose
last generic argument is what the factory makes. Every other type is a constant.

* `TypeExpr.wrapper?`: the wrapper of a type.
* `TypeExpr.produced`: the type that a property of the type has instantiated.
-/

namespace Wiring

/-- The types that hold a factory. -/
inductive Wrapper where
  /-- `Instantiator<T>` -/
  | instantiator
  /-- `SendableInstantiator<T>` -/
  | sendableInstantiator
  /-- `ForwardingInstantiator<Arguments, T>` -/
  | forwardingInstantiator
  /-- `ErasedInstantiator<Arguments, T>` -/
  | erasedInstantiator
  /-- `SendableErasedInstantiator<Arguments, T>` -/
  | sendableErasedInstantiator
deriving DecidableEq

namespace Wrapper

/-- All wrappers. -/
def all : List Wrapper :=
  [.instantiator, .sendableInstantiator, .forwardingInstantiator, .erasedInstantiator,
    .sendableErasedInstantiator]

/-- The name of the wrapper type. -/
def name : Wrapper → String
  | .instantiator => "Instantiator"
  | .sendableInstantiator => "SendableInstantiator"
  | .forwardingInstantiator => "ForwardingInstantiator"
  | .erasedInstantiator => "ErasedInstantiator"
  | .sendableErasedInstantiator => "SendableErasedInstantiator"

/-- Whether the factory may cross concurrency domains. -/
def sendable : Wrapper → Bool
  | .sendableInstantiator | .sendableErasedInstantiator => true
  | _ => false

/-- Whether the value that is made is wrapped in an erasing type. -/
def erases : Wrapper → Bool
  | .erasedInstantiator | .sendableErasedInstantiator => true
  | _ => false

/-- Whether the first generic argument is the type of the arguments that the factory takes. -/
def forwards : Wrapper → Bool
  | .forwardingInstantiator | .erasedInstantiator | .sendableErasedInstantiator => true
  | _ => false

/-- How many generic arguments the wrapper type has. -/
def arity (w : Wrapper) : Nat :=
  if w.forwards then 2 else 1

/-- The wrapper of a name and a number of generic arguments; both have to fit. -/
def ofName? (name : String) (arity : Nat) : Option Wrapper :=
  all.find? fun w => w.name = name && w.arity = arity

end Wrapper

namespace TypeExpr

/-- The module in which the wrapper types are declared. -/
def runtimeModule : TypeExpr :=
  .simple "WireGraph" []

/-- The wrapper that a type is; none if the type is a constant. A wrapper may be named with its
module. -/
def wrapper? : TypeExpr → Option Wrapper
  | .simple name generics => Wrapper.ofName? name generics.length
  | .nested name parent generics =>
    if parent = runtimeModule then Wrapper.ofName? name generics.length else none
  | _ => none

/-- Whether a property of the type holds a factory. -/
def isDeferred (t : TypeExpr) : Bool :=
  t.wrapper?.isSome

/-- The type that a property of the type has instantiated: what a wrapper makes, or the type itself. -/
def produced (t : TypeExpr) : TypeExpr :=
  if t.isDeferred then t.generics.getLastD t else t

end TypeExpr

end Wiring
