import Wiring.Component.Dependency

/-!
# Initializers

The initializer of a component takes its dependencies as arguments. Generated code passes each
dependency by its label to the argument of the same label and type.

* `Initializer.argumentList`: the arguments of the call, or why no call can be generated.
-/

namespace Wiring

/-- One parameter of an initializer. -/
structure Argument where
  /-- The label at the call; `_` for none at all, absent if it is the inner label. -/
  outerLabel : Option String
  innerLabel : String
  type : TypeExpr
  hasDefault : Bool
deriving DecidableEq

/-- The initializer that a component is built with. -/
structure Initializer where
  arguments : List Argument
  isAsync : Bool
  canThrow : Bool
  isOptional : Bool
  hasGenericParameter : Bool
  hasWhereClause : Bool
deriving DecidableEq

/-- Why generated code cannot call an initializer. -/
inductive InitializerError where
  /-- There are arguments to be passed and no dependencies. -/
  | noDependencies
  | isAsync
  | canThrow
  | isOptional
  | hasGenericParameter
  | hasWhereClause
  /-- No argument takes these dependencies. -/
  | missingArguments (properties : List Property)
  /-- The argument, given as it is declared, matches no dependency and has no default value. -/
  | unexpectedArgument (declaration : String)
deriving DecidableEq

/-- The wording of an error. -/
def InitializerError.message : InitializerError → String
  | .noDependencies =>
    "Initializer takes arguments, but the component declares no dependencies to supply them"
  | .isAsync => "Initializer must not be `async`"
  | .canThrow => "Initializer must not throw"
  | .isOptional => "Initializer must not be optional (`init?` or `init!`)"
  | .hasGenericParameter => "Initializer must not declare generic parameters"
  | .hasWhereClause => "Initializer must not declare a generic `where` clause"
  | .missingArguments properties =>
    "Initializer is missing arguments for dependencies: " ++
      ", ".intercalate (properties.map fun p => "`" ++ p.source ++ "`")
  | .unexpectedArgument declaration =>
    "Initializer argument `" ++ declaration ++ "` does not match any dependency"

namespace Argument

/-- The property that the argument takes. -/
def property (a : Argument) : Property :=
  ⟨a.innerLabel, a.type⟩

/-- The argument at a call. -/
def call (a : Argument) : String :=
  match a.outerLabel with
  | none => a.innerLabel ++ ": " ++ a.innerLabel
  | some outer => if outer = "_" then a.innerLabel else outer ++ ": " ++ a.innerLabel

/-- The argument as it is declared. -/
def declaration (a : Argument) : String :=
  (a.outerLabel.elim "" (· ++ " ")) ++ a.property.source

end Argument

namespace Initializer

/-- An initializer must have no effect and no generics; the first offence in a fixed order counts. -/
def validate (i : Initializer) : Except InitializerError Unit :=
  if i.isAsync then .error .isAsync
  else if i.canThrow then .error .canThrow
  else if i.isOptional then .error .isOptional
  else if i.hasGenericParameter then .error .hasGenericParameter
  else if i.hasWhereClause then .error .hasWhereClause
  else .ok ()

/-- Gives each argument in turn a property of its label and type, which is then used up. The answer
holds the arguments that have got one and the properties that are left. -/
def assign : List Argument → List Property → Except InitializerError (List Argument × List Property)
  | [], left => .ok ([], left)
  | a :: as, left =>
    if a.property ∈ left then
      (assign as (left.erase a.property)).map fun (taken, left) => (a :: taken, left)
    else if a.hasDefault then assign as left
    else .error (.unexpectedArgument a.declaration)

/-- **The arguments of a call that passes every dependency**, or why there is no such call. -/
def argumentList (i : Initializer) (dependencies : List Dependency) :
    Except InitializerError String := do
  i.validate
  if dependencies.isEmpty && i.arguments.any (!·.hasDefault) then throw .noDependencies
  let (taken, left) ← assign i.arguments (dependencies.map (·.property))
  if left.isEmpty then return ", ".intercalate (taken.map Argument.call)
  else throw (.missingArguments (sorted Property.compare left))

end Initializer

end Wiring
