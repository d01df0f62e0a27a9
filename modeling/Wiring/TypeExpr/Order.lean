import Wiring.Sorted
import Wiring.Text.Quoted
import Wiring.TypeExpr.Source

/-!
# The order of types

Types are ordered by their source text. Two types of one text, such as `A` read as a name and `A`
kept as unknown text, are told apart by their outline, which spells out the structure.

* `TypeExpr.compare`: the order; equal only for equal types.
* `TypeExpr.compose`: the composition of some types, in normal form.
-/

namespace Wiring.TypeExpr

open Text (quoted)

/-- The parts in brackets, separated by commas. -/
def bracketed (parts : List String) : String :=
  "[" ++ ", ".intercalate parts ++ "]"

/-- One part in parentheses after its name. -/
def named (name part : String) : String :=
  name ++ "(" ++ part ++ ")"

/-- Parts in braces after a name, each with a name of its own. -/
def record (name : String) (parts : List (String × String)) : String :=
  name ++ " \x7b " ++ ", ".intercalate (parts.map fun (key, part) => key ++ ": " ++ part) ++ " \x7d"

/-- A value that may be absent. -/
def outlineOption : Option String → String
  | none => "None"
  | some text => named "Some" (quoted text)

mutual

/-- The structure of a type, written out with the name of every part. -/
def outline : TypeExpr → String
  | .simple n gs => record "Simple" [("name", quoted n), ("generics", bracketed (outlines gs))]
  | .nested n p gs =>
    record "Nested"
      [("name", quoted n), ("parent", outline p), ("generics", bracketed (outlines gs))]
  | .composition ms => named "Composition" (named "UnorderedTypes" (bracketed (outlines ms)))
  | .optional t => named "Optional" (outline t)
  | .forced t => named "ImplicitlyUnwrappedOptional" (outline t)
  | .someOf t => named "Opaque" (outline t)
  | .anyOf t => named "Existential" (outline t)
  | .metatype t isType => record "Metatype" [("base", outline t), ("is_type", toString isType)]
  | .attributed t specifier attributes =>
    record "Attributed" [("base", outline t), ("specifier", outlineOption specifier),
      ("attributes", bracketed (attributes.map quoted))]
  | .array t => named "Array" (outline t)
  | .dictionary k v => record "Dictionary" [("key", outline k), ("value", outline v)]
  | .tuple es => named "Tuple" (bracketed (outlineElements es))
  | .closure as isAsync canThrow r =>
    record "Closure" [("arguments", bracketed (outlines as)), ("is_async", toString isAsync),
      ("does_throw", toString canThrow), ("return_type", outline r)]
  | .unknown text => named "Unknown" (quoted text)

/-- The outlines of several types. -/
def outlines : List TypeExpr → List String
  | [] => []
  | t :: ts => outline t :: outlines ts

/-- The outlines of the elements of a tuple. -/
def outlineElements : List (Labelled TypeExpr) → List String
  | [] => []
  | ⟨label, t⟩ :: es =>
    record "TupleElement" [("label", outlineOption label), ("type_description", outline t)] ::
      outlineElements es

end

/-- **The order of types.** By source text, then by outline; strings compare by code points, which is
the order of their UTF-8 bytes. -/
def compare (a b : TypeExpr) : Ordering :=
  if a = b then .eq else (Ord.compare a.source b.source).then (Ord.compare a.outline b.outline)

/-- The members of a composition; every other type is its own single member. -/
def members : TypeExpr → List TypeExpr
  | .composition ms => ms
  | t => [t]

/-- **The composition of some types.** Compositions among them are replaced by their members, and the
members stand in ascending order, each once, so that `A & B` and `B & A` are one type. -/
def compose (types : List TypeExpr) : TypeExpr :=
  .composition (sortedSet compare (types.flatMap members))

end Wiring.TypeExpr
