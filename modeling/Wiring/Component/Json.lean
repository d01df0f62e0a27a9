import Wiring.Component.Basic
import Wiring.TypeExpr.Json

/-!
# Components as JSON

Every part of a component is a record. Fields that a record does not know are ignored; encoding writes
an object with every field, apart from a fulfilling type that is absent and additional types of which there are none.
-/

namespace Wiring

open Json (Fields)

namespace Property

def toJson (p : Property) : Json :=
  .object [("label", .string p.label), ("type", p.type.toJson)]

def ofJson? (json : Json) : Option Property := do
  let fields ← json.record? ["label", "type"]
  let label ← Fields.required? Json.string? fields "label"
  let type ← Fields.required? TypeExpr.ofJson? fields "type"
  return ⟨label, type⟩

end Property

namespace Origin

def toJson : Origin → Json
  | .instantiated fulfilling erased =>
    .object (("kind", .string "instantiated") ::
      (fulfilling.toList.map fun t => ("fulfilling_type", t.toJson)) ++
      [("erased_to_concrete_existential", .bool erased)])
  | .received => .object [("kind", .string "received")]
  | .aliased fulfilling erased =>
    .object [("kind", .string "aliased"), ("fulfilling_property", fulfilling.toJson),
      ("erased_to_concrete_existential", .bool erased)]
  | .forwarded => .object [("kind", .string "forwarded")]

/-- The kind of an origin decides which other fields are known. The whole record has to denote
something, even in fields that are ignored. -/
def ofJson? (json : Json) : Option Origin := do
  if !json.isValid then none
  let (kind, body) ← json.tagged? "kind"
  match ← kind.string? with
  | "instantiated" =>
    let fields ← body.record? ["fulfilling_type", "erased_to_concrete_existential"]
    let fulfilling ←
      Fields.optional? (Json.nullable? TypeExpr.ofJson?) none fields "fulfilling_type"
    let erased ← Fields.flag? fields "erased_to_concrete_existential"
    return .instantiated fulfilling erased
  | "received" => (body.record? []).map fun _ => .received
  | "aliased" =>
    let fields ← body.record? ["fulfilling_property", "erased_to_concrete_existential"]
    let fulfilling ← Fields.required? Property.ofJson? fields "fulfilling_property"
    let erased ← Fields.flag? fields "erased_to_concrete_existential"
    return .aliased fulfilling erased
  | "forwarded" => (body.record? []).map fun _ => .forwarded
  | _ => none

end Origin

namespace Dependency

def toJson (d : Dependency) : Json :=
  .object [("property", d.property.toJson), ("source", d.origin.toJson)]

def ofJson? (json : Json) : Option Dependency := do
  let fields ← json.record? ["property", "source"]
  let property ← Fields.required? Property.ofJson? fields "property"
  let origin ← Fields.required? Origin.ofJson? fields "source"
  return ⟨property, origin⟩

end Dependency

namespace Argument

def toJson (a : Argument) : Json :=
  .object [("outer_label", TypeExpr.optionJson a.outerLabel), ("inner_label", .string a.innerLabel),
    ("type", a.type.toJson), ("has_default_value", .bool a.hasDefault)]

def ofJson? (json : Json) : Option Argument := do
  let fields ← json.record? ["outer_label", "inner_label", "type", "has_default_value"]
  let outerLabel ← Fields.optional? (Json.nullable? Json.string?) none fields "outer_label"
  let innerLabel ← Fields.required? Json.string? fields "inner_label"
  let type ← Fields.required? TypeExpr.ofJson? fields "type"
  let hasDefault ← Fields.flag? fields "has_default_value"
  return ⟨outerLabel, innerLabel, type, hasDefault⟩

end Argument

namespace Initializer

def toJson (i : Initializer) : Json :=
  .object [("arguments", .array (i.arguments.map Argument.toJson)), ("is_async", .bool i.isAsync),
    ("does_throw", .bool i.canThrow), ("is_optional", .bool i.isOptional),
    ("has_generic_parameter", .bool i.hasGenericParameter),
    ("has_generic_where_clause", .bool i.hasWhereClause)]

def ofJson? (json : Json) : Option Initializer := do
  let fields ← json.record? ["arguments", "is_async", "does_throw", "is_optional",
    "has_generic_parameter", "has_generic_where_clause"]
  let arguments ← Fields.optional? (Json.list? Argument.ofJson?) [] fields "arguments"
  let isAsync ← Fields.flag? fields "is_async"
  let canThrow ← Fields.flag? fields "does_throw"
  let isOptional ← Fields.flag? fields "is_optional"
  let hasGenericParameter ← Fields.flag? fields "has_generic_parameter"
  let hasWhereClause ← Fields.flag? fields "has_generic_where_clause"
  return ⟨arguments, isAsync, canThrow, isOptional, hasGenericParameter, hasWhereClause⟩

end Initializer

namespace Declaration

/-- The word for a kind of declaration. -/
def word : Declaration → String
  | .classType => "class"
  | .actorType => "actor"
  | .structType => "struct"
  | .extensionType => "extension"

/-- A declaration is a word, or an object with that word as its only key and nothing as its value. -/
def ofJson? : Json → Option Declaration
  | .string word | .object [(word, .null)] =>
    [classType, actorType, structType, extensionType].find? (·.word = word)
  | _ => none

end Declaration

namespace Component

def toJson (c : Component) : Json :=
  .object (("concrete_type", c.concreteType.toJson) ::
    (if c.additionalTypes.isEmpty then []
      else [("additional_types", .array (c.additionalTypes.map TypeExpr.toJson))]) ++
    [("is_root", .bool c.isRoot),
      ("initializer", c.initializer.elim .null Initializer.toJson),
      ("dependencies", .array (c.dependencies.map Dependency.toJson)),
      ("declaration_type", .string c.declaration.word)])

def ofJson? (json : Json) : Option Component := do
  let fields ← json.record? ["concrete_type", "additional_types", "is_root", "initializer",
    "dependencies", "declaration_type"]
  let concreteType ← Fields.required? TypeExpr.ofJson? fields "concrete_type"
  let additionalTypes ← Fields.optional? (Json.list? TypeExpr.ofJson?) [] fields "additional_types"
  let isRoot ← Fields.flag? fields "is_root"
  let initializer ←
    Fields.optional? (Json.nullable? Initializer.ofJson?) none fields "initializer"
  let dependencies ← Fields.optional? (Json.list? Dependency.ofJson?) [] fields "dependencies"
  let declaration ← Fields.optional? Declaration.ofJson? .classType fields "declaration_type"
  return ⟨concreteType, additionalTypes, isRoot, initializer, dependencies, declaration⟩

end Component

end Wiring
