import Wiring.Disk.Path

/-!
# Disks

A disk says what lies where. There are no links, so a location has one name only.

* `Disk.lookup`: what a path stands for, if there is anything.
* `Disk.filesBelow`: all files in a directory and in those below it.
-/

namespace Wiring

/-- Where something lies: the names on the way from the top. -/
abbrev Disk.Location := List String

/-- What may lie somewhere. -/
inductive Entry where
  | directory
  /-- A file that holds a text. -/
  | text (content : String)
  /-- A file that holds no text. -/
  | data
deriving DecidableEq

/-- What lies where. The top is a directory and is not listed. -/
structure Disk where
  entries : List (Disk.Location × Entry)
  /-- The directory in which relative paths start. -/
  home : Disk.Location

/-- Where a step leads. -/
def Path.Step.from (location : Disk.Location) : Path.Step → Disk.Location
  | .root => []
  | .here => location
  | .up => location.dropLast
  | .name text => location ++ [text]

namespace Disk

/-! ## Locations -/

/-- What lies at a location. -/
def get? (disk : Disk) (location : Location) : Option Entry :=
  if location = [] then some .directory
  else (disk.entries.find? (·.1 = location)).map (·.2)

/-- Whether a directory lies at a location. -/
def isDirectory (disk : Disk) (location : Location) : Bool :=
  disk.get? location = some .directory

/-- The disk without what lies at a location. -/
def remove (disk : Disk) (location : Location) : Disk :=
  { disk with entries := disk.entries.filter (·.1 ≠ location) }

/-- The disk with `entry` at a location, in place of what lay there. -/
def put (disk : Disk) (location : Location) (entry : Entry) : Disk :=
  { disk with entries := (location, entry) :: (disk.remove location).entries }

theorem get?_put_self (disk : Disk) {location : Location} (entry : Entry) (h : location ≠ []) :
    (disk.put location entry).get? location = some entry := by
  simp [get?, put, h]

theorem get?_remove_of_ne (disk : Disk) {location other : Location} (h : other ≠ location) :
    (disk.remove location).get? other = disk.get? other := by
  have hfind : (disk.entries.filter (·.1 ≠ location)).find? (·.1 = other) =
      disk.entries.find? (·.1 = other) := by
    induction disk.entries with
    | nil => rfl
    | cons e es ih => by_cases he : e.1 = location <;> by_cases ho : e.1 = other <;> simp_all
  simp only [get?, remove, hfind]

theorem get?_put_of_ne (disk : Disk) {location other : Location} (entry : Entry)
    (h : other ≠ location) : (disk.put location entry).get? other = disk.get? other := by
  rw [← disk.get?_remove_of_ne h]
  simp [get?, put, Ne.symm h]

/-! ## Paths -/

/-- Where some steps lead from a location; each but the last has to end in a directory. -/
def descend (disk : Disk) : Location → List Path.Step → Option Location
  | location, [] => some location
  | location, step :: steps =>
    if disk.isDirectory location then disk.descend (step.from location) steps else none

/-- Where the file or directory of a path lies, or would lie if there were one. -/
def locate (disk : Disk) (p : Path) : Option Location :=
  if p.steps.isEmpty || !p.isUsable then none else disk.descend disk.home p.steps

/-- **What a path stands for.** -/
def lookup (disk : Disk) (p : Path) : Option Entry :=
  ((disk.locate p).bind disk.get?).filter fun entry =>
    entry = .directory || !p.isDirectoryOnly

/-- The text of the file that a path stands for. -/
def text? (disk : Disk) (p : Path) : Option String :=
  match disk.lookup p with
  | some (.text content) => some content
  | _ => none

/-- The files below a directory: the names on the way from there, and what lies there. -/
def filesBelow (disk : Disk) (directory : Location) : List (Disk.Location × Entry) :=
  disk.entries.filterMap fun (location, entry) =>
    if entry ≠ .directory && directory.isPrefixOf location && location ≠ directory then
      some (location.drop directory.length, entry)
    else none

end Disk

end Wiring
