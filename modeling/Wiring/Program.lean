import Wiring.Emission.Code
import Wiring.Resolution
import Wiring.Text.Reading

/-!
# Generating a file

All roots of a registry are built on their own; if some of them fail, the faults of all that fail are
reported together and nothing is generated.

* `Registry.build`: the emission of one root.
* `Registry.file`: the text of the generated file.
-/

namespace Wiring

/-- The values of all, or the faults of all that fail, in order. -/
def collectFaults {α : Type} : List (Except (List Fault) α) → Except (List Fault) (List α)
  | [] => .ok []
  | result :: results =>
    match result, collectFaults results with
    | .ok a, .ok as => .ok (a :: as)
    | .ok _, .error faults => .error faults
    | .error faults, .ok _ => .error faults
    | .error faults, .error more => .error (faults ++ more)

namespace Registry

/-- How many components a chain may have if nothing else is said. -/
def defaultLimit : Nat := 256

/-- **The emission of a root**, in whose chains there may be `limit` components, or its faults. -/
def build (registry : Registry) (limit : Nat) (root : Component) :
    Except (List Fault) RootEmission := do
  let scope ← registry.resolve limit root
  scope.emit.mapError ([·])

/-- The emissions of all roots. -/
def buildRoots (registry : Registry) (limit : Nat) : Except (List Fault) (List RootEmission) :=
  collectFaults (registry.roots.map (registry.build limit))

/-- The code of a root. -/
def rootCode (registry : Registry) (limit : Nat) (root : Component) :
    Except (List Fault) String := do
  let emission ← registry.build limit root
  emission.code.mapError ([·])

/-- The code of all roots, each with its root. -/
def rootCodes (registry : Registry) (limit : Nat) :
    Except (List Fault) (List (TypeExpr × String)) :=
  collectFaults (registry.roots.map fun root =>
    (registry.rootCode limit root).map (root.concreteType, ·))

end Registry

/-- The lines at the top of a generated file. -/
def fileHeader : String :=
  "// This file was generated by the wiregraph dependency graph compiler.\n" ++
    "// Any modifications made to this file will be overwritten on subsequent builds.\n"

/-- The module that an import names, which may be written with or without the word `import`. -/
def importedModule (text : String) : String :=
  let name := Text.trimChars text.toList
  match Text.afterWord "import ".toList name with
  | some rest => String.ofList (Text.trimChars rest)
  | none => String.ofList name

/-- The modules that some imports name, in ascending order. -/
def importedModules (imports : List String) : List String :=
  sortedSet Ord.compare ((imports.map importedModule).filter (· ≠ ""))

/-- The text of a file that imports some modules and holds the code of some roots. -/
def fileText (imports : List String) (codes : List String) : String :=
  let modules := importedModules imports
  fileHeader ++
    (if modules.isEmpty then "" else "\n") ++
    String.join (modules.map fun m => "import " ++ m ++ "\n") ++
    String.join ((codes.filter (· ≠ "")).map ("\n" ++ ·))

/-- **The text of the generated file.** -/
def Registry.file (registry : Registry) (imports : List String) (limit : Nat) :
    Except (List Fault) String :=
  (registry.rootCodes limit).map fun codes => fileText imports (codes.map (·.2))

end Wiring
