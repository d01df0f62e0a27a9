import Wiring.Disk.Basic

/-!
# Writing files

A file is written beside its place first and then moved there, so that nobody sees half a file; and it
is left alone if it holds its text already.

* `Disk.writeIfChanged`: puts a text into the file of a path.
* `Disk.holding`: the disk that holds given files.
-/

namespace Wiring

/-- Why a disk refuses a change. -/
inductive DiskError where
  | missing
  | notDirectory
  | isDirectory
  /-- A path that is too long, has a name that is too long or has NUL in it. -/
  | unusable
deriving DecidableEq

/-- The wording of an error. -/
def DiskError.message : DiskError → String
  | .missing => "No such file or directory"
  | .notDirectory => "Not a directory"
  | .isDirectory => "Is a directory"
  | .unusable => "Invalid file name"

namespace Disk

/-- Makes the directories on the way from a location that are missing. Those that are made stay, also if
the way does not lead on. -/
def makeDirectories (disk : Disk) (location : Location) :
    List Path.Step → Except DiskError Unit × Disk
  | [] => (.ok (), disk)
  | step :: steps =>
    let next := step.from location
    match disk.get? next with
    | some .directory => disk.makeDirectories next steps
    | some _ => (.error .notDirectory, disk)
    | none =>
      if step.isUsable then (disk.put next .directory).makeDirectories next steps
      else (.error .unusable, disk)

/-- Why there is no place that a path leads to. -/
def nowhere (p : Path) : DiskError :=
  if p.isUsable then .missing else .unusable

/-- Puts a text into the file of a path, which is made if it is missing. -/
def write (disk : Disk) (p : Path) (content : String) : Except DiskError Disk :=
  match disk.locate p with
  | none => .error (nowhere p)
  | some location =>
    if disk.isDirectory location || p.isDirectoryOnly then .error .isDirectory
    else .ok (disk.put location (.text content))

/-- Moves a file to the place of `target`. What lies there is lost, unless it is a directory. -/
def move (disk : Disk) (source target : Path) : Except DiskError Disk :=
  match disk.locate source, disk.locate target with
  | none, _ => .error (nowhere source)
  | _, none => .error (nowhere target)
  | some start, some goal =>
    match disk.get? start with
    | none => .error .missing
    | some entry =>
      if disk.isDirectory start || disk.isDirectory goal then .error .isDirectory
      else if target.isDirectoryOnly then .error .notDirectory
      else .ok ((disk.remove start).put goal entry)

/-- Removes the file of a path, if there is one. -/
def discard (disk : Disk) (p : Path) : Disk :=
  match disk.locate p with
  | some location => if disk.isDirectory location then disk else disk.remove location
  | none => disk

/-- The extension of the file that is written first. -/
def temporaryExtension : String := "tmp"

/-- Makes the directories above a path that are missing. -/
def makeParents (disk : Disk) (p : Path) : Except DiskError Unit × Disk :=
  if p.parent.hasUsableText then disk.makeDirectories disk.home p.parent.steps
  else (.error .unusable, disk)

/-- **Puts a text into the file of a path**, and makes the directories above it, unless the file holds
this text already. Says whether the file was written. -/
def writeIfChanged (disk : Disk) (p : Path) (content : String) : Except DiskError Bool × Disk :=
  if disk.text? p = some content then (.ok false, disk)
  else
    match disk.makeParents p with
    | (.error e, disk) => (.error e, disk)
    | (.ok (), disk) =>
      let temporary := p.sibling temporaryExtension
      match disk.write temporary content with
      | .error e => (.error e, disk)
      | .ok disk =>
        match disk.move temporary p with
        | .ok disk => (.ok true, disk)
        | .error e => (.error e, disk.discard temporary)

/-- The disk with `entry` at a path, and with the directories above it. -/
def place (disk : Disk) (p : Path) (entry : Entry) : Disk :=
  let disk := (disk.makeParents p).2
  match disk.locate p with
  | some location => disk.put location entry
  | none => disk

/-- The disk that holds some files and directories, and the directories above them. -/
def holding (home : Disk.Location) (entries : List (Path × Entry)) : Disk :=
  let bare : Disk := (makeDirectories ⟨[], home⟩ [] (home.map .name)).2
  entries.foldl (fun disk (p, entry) => disk.place p entry) bare

/-- What lies on the disk `later` and does not lie in the same place on the disk `earlier`. -/
def changes (earlier later : Disk) : List (Disk.Location × Entry) :=
  later.entries.filter fun (location, entry) => earlier.get? location ≠ some entry

/-- The files below home that are new or hold something else. -/
def changedFiles (earlier later : Disk) : List (Disk.Location × Entry) :=
  filesBelow ⟨changes earlier later, later.home⟩ later.home

end Disk

end Wiring
