import Wiring.Disk.Basic
import Wiring.Manifest.Basic

/-!
# Loading manifests

Manifests are named by paths: that of a file stands for the file, whatever its name; that of a directory
for all files below it with the extension `json`.

* `Disk.manifestPaths`: the files that some paths stand for, in the order of paths and each once.
* `Disk.loadManifests`: what these files declare.
-/

namespace Wiring

/-- Why manifests cannot be loaded. -/
inductive LoadError where
  | missing (path : Path)
  | unreadable (path : Path)
  | malformed (path : Path)

/-- The wording of an error. -/
def LoadError.message : LoadError → String
  | .missing path => "Path does not exist: " ++ path.text
  | .unreadable path => "Failed to read manifest " ++ path.text
  | .malformed path => "Failed to parse manifest " ++ path.text

namespace Disk

/-- The extension by which manifests are found in directories. -/
def manifestExtension : String := "json"

/-- The paths of all manifests below the directory of a path. -/
def manifestsBelow (disk : Disk) (directory : Path) : List Path :=
  match disk.locate directory with
  | none => []
  | some location =>
    let paths := (disk.filesBelow location).map fun (names, _) =>
      directory.join ("/".intercalate names)
    paths.filter (·.extension? = some manifestExtension)

/-- The paths of the manifests that one path stands for. -/
def manifestsAt (disk : Disk) (p : Path) : Except LoadError (List Path) :=
  match disk.lookup p with
  | none => .error (.missing p)
  | some .directory => .ok (disk.manifestsBelow p)
  | some _ => .ok [p]

/-- **The paths of the manifests that some paths stand for**, in order and each once. The first path that
stands for nothing is an error. -/
def manifestPaths (disk : Disk) (inputs : List Path) : Except LoadError (List Path) :=
  (inputs.mapM disk.manifestsAt).map fun paths => sortedSet Path.compare paths.flatten

/-- What the file of a path declares. -/
def loadManifest (disk : Disk) (p : Path) : Except LoadError Manifest :=
  match disk.text? p with
  | none => .error (.unreadable p)
  | some text =>
    match Manifest.parse? text with
    | none => .error (.malformed p)
    | some manifest => .ok manifest

/-- **What the manifests declare that some paths stand for.** The first file in the order of paths that
declares nothing is an error. -/
def loadManifests (disk : Disk) (inputs : List Path) : Except LoadError Manifest := do
  let paths ← disk.manifestPaths inputs
  let manifests ← paths.mapM disk.loadManifest
  return Manifest.merge manifests

end Disk

end Wiring
