import Wiring.Emission.Naming
import Wiring.Text.Lines

/-!
# Code for emissions

The code of a root extends its type by an initializer without parameters. Its body declares a constant
for each property; a value that needs declarations of its own is built by a nested function.

* `RootEmission.code`: the extension of a root.
-/

namespace Wiring

open Text (indent)

/-- What a component is built with: the call of its initializer. -/
def Component.arguments (c : Component) : Except Fault String :=
  c.argumentList.mapError (.initializer c.concreteType ·)

namespace Emission

/-- Several parts of a list in parentheses. -/
def commas (parts : List String) : String :=
  ", ".intercalate parts

/-- A factory made from a function: a wrapper around it that hands what is forwarded on to the
function's parameters. -/
def factoryExpression (p : Property) (c : Component) (function : String) : String :=
  let wrapper := p.type.source
  match c.forwarded with
  | [] => wrapper ++ "(" ++ function ++ ")"
  | [q] =>
    wrapper ++ " \x7b " ++ q.label ++ " in " ++ function ++ "(" ++ q.label ++ ": " ++ q.label ++
      ") \x7d"
  | qs =>
    wrapper ++ " \x7b forwardedProperties in " ++ function ++ "(" ++
      commas (qs.map fun q => q.label ++ ": forwardedProperties." ++ q.label) ++ ") \x7d"

/-- A constant. -/
def constant (name value : String) : String :=
  "let " ++ name ++ " = " ++ value ++ "\n"

/-- A value wrapped in a type, if it has to be. -/
def wrapped (erased : Bool) (type : TypeExpr) (value : String) : String :=
  if erased then type.source ++ "(" ++ value ++ ")" else value

/-- A function whose body declares something and then gives back a value. -/
def functionCode (signature body value : String) : String :=
  signature ++ " \x7b\n" ++ indent 1 body ++ "    return " ++ value ++ "\n\x7d\n"

/-- A value built in place. Its type is written out where the value is of another type. -/
def valueCode (p : Property) (c : Component) (erased : Bool) (construction : String) : String :=
  let annotation := if !erased && p.type ≠ c.concreteType then ": " ++ p.type.source else ""
  constant (p.label ++ annotation) (wrapped erased p.type construction)

/-- A value built by a function that is called once. -/
def calledCode (p : Property) (erased : Bool) (function construction body : String) : String :=
  functionCode ("func " ++ function ++ "() -> " ++ p.type.source) body
      (wrapped erased p.type construction) ++
    constant p.label (function ++ "()")

/-- A factory, and the function that it is made from. -/
def factoryCode (p : Property) (c : Component) (erased : Bool)
    (function construction body : String) : String :=
  let sendable := if p.type.wrapper?.any (·.sendable) then "@Sendable " else ""
  let parameters := commas (c.forwarded.map Property.source)
  functionCode
      (sendable ++ "func " ++ function ++ "(" ++ parameters ++ ") -> " ++ p.type.produced.source) body
      (wrapped erased p.type.produced construction) ++
    constant p.label (factoryExpression p c function)

/-- Another name for a value, whose type is written out where it is another type. -/
def renamedCode (p fulfilling : Property) (erased : Bool) : String :=
  let annotation := if !erased && p.type ≠ fulfilling.type then ": " ++ p.type.source else ""
  constant (p.label ++ annotation) (wrapped erased p.type fulfilling.label)

mutual

/-- The code of a declaration. -/
def code : Emission → Except Fault String
  | .built p c erased function body => do
    let construction := c.callee ++ "(" ++ (← c.arguments) ++ ")"
    match function with
    | none =>
      if p.isDeferred then throw (.unresolvedRecursion p c.concreteType)
      else return valueCode p c erased construction
    | some name =>
      let body ← codeAll body
      if p.isDeferred then return factoryCode p c erased name construction body
      else return calledCode p erased name construction body
  | .recursive p c function => return constant p.label (factoryExpression p c function)
  | .renamed p fulfilling erased => return renamedCode p fulfilling erased

/-- The code of several declarations, one after the other. -/
def codeAll : List Emission → Except Fault String
  | [] => return ""
  | e :: es => return (← code e) ++ (← codeAll es)

end

end Emission

/-- A type extended by a public function that declares something and then does one thing more. -/
def extensionCode (type signature body last : String) : String :=
  "extension " ++ type ++ " \x7b\n    public " ++ signature ++ " \x7b\n" ++ indent 2 body ++
    "        " ++ last ++ "\n    \x7d\n\x7d\n"

/-- **The code of a root.** A root without dependencies gets none. -/
def RootEmission.code (root : RootEmission) : Except Fault String := do
  let c := root.component
  if c.dependencies.isEmpty then return ""
  let body ← Emission.codeAll root.body
  let arguments ← c.arguments
  let type := c.concreteType.source
  let delegation := "self.init(" ++ arguments ++ ")"
  match c.declaration with
  | .extensionType =>
    return extensionCode type ("static func instantiate() -> " ++ type) body
      ("return " ++ c.callee ++ "(" ++ arguments ++ ")")
  | .classType => return extensionCode type "convenience init()" body delegation
  | .actorType | .structType => return extensionCode type "init()" body delegation

end Wiring
