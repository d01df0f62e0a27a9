import Wiring.Component.Json
import Wiring.Json.Reader

/-!
# Manifests

A manifest is what one module declares, as a JSON text: components, and imports that the generated
file needs for them.
-/

namespace Wiring

/-- The components and the imports that one module declares. -/
structure Manifest where
  imports : List String
  components : List Component
deriving DecidableEq

namespace Manifest

open Json (Fields)

def toJson (m : Manifest) : Json :=
  .object [("imports", .array (m.imports.map .string)),
    ("instantiables", .array (m.components.map Component.toJson))]

def ofJson? (json : Json) : Option Manifest := do
  let fields ← json.record? ["imports", "instantiables"]
  let imports ← Fields.optional? (Json.list? Json.string?) [] fields "imports"
  let components ← Fields.optional? (Json.list? Component.ofJson?) [] fields "instantiables"
  return ⟨imports, components⟩

/-- The manifest that a text spells. -/
def parse? (text : String) : Option Manifest :=
  (Json.parse? text).bind ofJson?

/-- The declarations of several modules, one after the other. -/
def merge (manifests : List Manifest) : Manifest :=
  ⟨manifests.flatMap (·.imports), manifests.flatMap (·.components)⟩

end Manifest

end Wiring
