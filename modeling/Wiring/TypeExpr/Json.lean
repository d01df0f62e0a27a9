import Wiring.Json.Basic
import Wiring.TypeExpr.Order

/-!
# Types as JSON

A type is an object with one entry, whose key says what kind of type it is. Empty generic arguments
are left out; a composition is brought into normal form when it is read.
-/

namespace Wiring.TypeExpr

open Json (Fields)

/-- A text that may be absent. -/
def optionJson : Option String → Json
  | none => .null
  | some text => .string text

/-- The entry for generic arguments, unless there are none. -/
def genericEntries (generics : List Json) : Fields :=
  if generics.isEmpty then [] else [("generics", .array generics)]

mutual

/-- A type as JSON. -/
def toJson : TypeExpr → Json
  | .simple n gs =>
    .object [("simple", .object (("name", .string n) :: genericEntries (toJsonAll gs)))]
  | .nested n p gs =>
    .object [("nested", .object
      (("name", .string n) :: ("parent", toJson p) :: genericEntries (toJsonAll gs)))]
  | .composition ms => .object [("composition", .array (toJsonAll ms))]
  | .optional t => .object [("optional", toJson t)]
  | .forced t => .object [("implicitly_unwrapped_optional", toJson t)]
  | .someOf t => .object [("some", toJson t)]
  | .anyOf t => .object [("any", toJson t)]
  | .metatype t isType =>
    .object [("metatype", .object [("base", toJson t), ("is_type", .bool isType)])]
  | .attributed t specifier attributes =>
    .object [("attributed", .object
      [("base", toJson t), ("specifier", optionJson specifier),
        ("attributes", .array (attributes.map .string))])]
  | .array t => .object [("array", toJson t)]
  | .dictionary k v => .object [("dictionary", .object [("key", toJson k), ("value", toJson v)])]
  | .tuple es => .object [("tuple", .array (elementsToJson es))]
  | .closure as isAsync canThrow r =>
    .object [("closure", .object
      [("arguments", .array (toJsonAll as)), ("is_async", .bool isAsync),
        ("does_throw", .bool canThrow), ("return_type", toJson r)])]
  | .unknown text => .object [("unknown", .string text)]

/-- Several types as JSON. -/
def toJsonAll : List TypeExpr → List Json
  | [] => []
  | t :: ts => toJson t :: toJsonAll ts

/-- Tuple elements as JSON. -/
def elementsToJson : List (Labelled TypeExpr) → List Json
  | [] => []
  | ⟨label, t⟩ :: es =>
    .object [("label", optionJson label), ("type", toJson t)] :: elementsToJson es

end

mutual

/-- The type that a JSON value stands for. -/
def ofJson? : Json → Option TypeExpr
  | .object [(kind, body)] =>
    match kind with
    | "simple" => do
      let keys := ["name", "generics"]
      let fields ← body.record? keys
      let name ← Fields.required? Json.string? fields "name"
      let generics ← listField? keys "generics" body
      return .simple name (generics.getD [])
    | "nested" => do
      let keys := ["name", "parent", "generics"]
      let fields ← body.record? keys
      let name ← Fields.required? Json.string? fields "name"
      let parent ← typeField? keys "parent" body
      let generics ← listField? keys "generics" body
      return .nested name parent (generics.getD [])
    | "composition" => (listOfJson? body).map compose
    | "optional" => (ofJson? body).map .optional
    | "implicitly_unwrapped_optional" => (ofJson? body).map .forced
    | "some" => (ofJson? body).map .someOf
    | "any" => (ofJson? body).map .anyOf
    | "metatype" => do
      let keys := ["base", "is_type"]
      let fields ← body.record? keys
      let base ← typeField? keys "base" body
      let isType ← Fields.required? Json.bool? fields "is_type"
      return .metatype base isType
    | "attributed" => do
      let keys := ["base", "specifier", "attributes"]
      let fields ← body.record? keys
      let base ← typeField? keys "base" body
      let specifier ← Fields.optional? (Json.nullable? Json.string?) none fields "specifier"
      let attributes ← Fields.optional? (Json.list? Json.string?) [] fields "attributes"
      return .attributed base specifier attributes
    | "array" => (ofJson? body).map .array
    | "dictionary" => do
      let keys := ["key", "value"]
      let _ ← body.record? keys
      let key ← typeField? keys "key" body
      let value ← typeField? keys "value" body
      return .dictionary key value
    | "tuple" => (elementsOfJson? body).map .tuple
    | "closure" => do
      let keys := ["arguments", "is_async", "does_throw", "return_type"]
      let fields ← body.record? keys
      let arguments ← listField? keys "arguments" body
      let arguments ← arguments
      let isAsync ← Fields.flag? fields "is_async"
      let canThrow ← Fields.flag? fields "does_throw"
      let result ← typeField? keys "return_type" body
      return .closure arguments isAsync canThrow result
    | "unknown" => body.string?.map .unknown
    | _ => none
  | _ => none

/-- The type in the field `key` of a record with the fields `keys`. -/
def typeField? (keys : List String) (key : String) : Json → Option TypeExpr
  | .object fields => typeEntry? key fields
  | .array items => typeItem? keys key items
  | _ => none

/-- The type in the entry for `key`. -/
def typeEntry? (key : String) : List (String × Json) → Option TypeExpr
  | [] => none
  | (k, value) :: fields => if k = key then ofJson? value else typeEntry? key fields

/-- The type at the place of `key` among `keys`. -/
def typeItem? (keys : List String) (key : String) : List Json → Option TypeExpr
  | [] => none
  | item :: items =>
    if keys.head? = some key then ofJson? item else typeItem? keys.tail key items

/-- The types in the field `key`, which may be left out, of a record with the fields `keys`. -/
def listField? (keys : List String) (key : String) : Json → Option (Option (List TypeExpr))
  | .object fields => listEntry? key fields
  | .array items => listItem? keys key items
  | _ => none

/-- The types in the entry for `key`. -/
def listEntry? (key : String) : List (String × Json) → Option (Option (List TypeExpr))
  | [] => some none
  | (k, value) :: fields =>
    if k = key then (listOfJson? value).map some else listEntry? key fields

/-- The types at the place of `key` among `keys`. -/
def listItem? (keys : List String) (key : String) : List Json → Option (Option (List TypeExpr))
  | [] => some none
  | item :: items =>
    if keys.head? = some key then (listOfJson? item).map some else listItem? keys.tail key items

/-- The types that an array stands for. -/
def listOfJson? : Json → Option (List TypeExpr)
  | .array items => itemsOfJson? items
  | _ => none

/-- The types that the items of an array stand for. -/
def itemsOfJson? : List Json → Option (List TypeExpr)
  | [] => some []
  | item :: items => do
    let t ← ofJson? item
    let ts ← itemsOfJson? items
    return t :: ts

/-- The tuple elements that an array stands for. -/
def elementsOfJson? : Json → Option (List (Labelled TypeExpr))
  | .array items => elementItemsOfJson? items
  | _ => none

/-- The tuple elements that the items of an array stand for. -/
def elementItemsOfJson? : List Json → Option (List (Labelled TypeExpr))
  | [] => some []
  | item :: items => do
    let keys := ["label", "type"]
    let fields ← item.record? keys
    let label ← Fields.optional? (Json.nullable? Json.string?) none fields "label"
    let t ← typeField? keys "type" item
    let es ← elementItemsOfJson? items
    return ⟨label, t⟩ :: es

end

end Wiring.TypeExpr
