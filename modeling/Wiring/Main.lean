import Wiring.Command.Run

/-!
# The command line

The disk of the machine is looked at where the arguments and the settings point to, the outcome is
computed from what was seen, and what it changes is carried over to the machine.

A manifest is named by the path of its file: the directories of the machine are not searched, so a
pattern for the shell stands in for the path of a directory.
-/

namespace Wiring

/-- What lies at a path of the machine, if anything does. -/
def seen? (p : Path) : IO (Option Entry) := do
  try return some (.text (← IO.FS.readFile p.text)) catch _ => pure ()
  try
    let _ ← IO.FS.realPath (p.text ++ "/")
    return some .directory
  catch _ => pure ()
  try
    let _ ← IO.FS.realPath p.text
    return some .data
  catch _ => return none

/-- The paths of the directories above a path, from the top. -/
def Path.above (p : Path) : List Path :=
  let cs := p.text.toList
  (List.range cs.length).filterMap fun n =>
    if 0 < n && cs[n]? = some '/' then some ⟨String.ofList (cs.take n)⟩ else none

/-- The disk with what lies at some paths of the machine and above them. -/
def lookAt (disk : Disk) (paths : List Path) : IO Disk :=
  (paths.flatMap fun p => p.above ++ [p]).foldlM (fun disk p => do
    match ← seen? p with
    | none => return disk
    | some entry => return disk.place p entry) disk

/-- The variables of the environment that set a key. -/
def environment : IO (List (String × String)) :=
  Settings.Key.all.filterMapM fun key => do
    let name := Settings.variableStart ++ key.word.toUpper
    return (← IO.getEnv name).map (name, ·)

/-- Changes the machine as the disk was changed. -/
def carryOver (earlier later : Disk) : IO Unit := do
  let path (location : Disk.Location) : String := "/" ++ "/".intercalate location
  for (location, entry) in (earlier.changes later).reverse do
    match entry with
    | .directory => IO.FS.createDirAll (path location)
    | .text content => IO.FS.writeFile (path location) content
    | .data => pure ()
  for (location, _) in earlier.entries do
    if (later.get? location).isNone then IO.FS.removeFile (path location)

/-- The outcome of the command line with some arguments on the machine. -/
def runOnMachine (arguments : List String) (request : Request) : IO Outcome := do
  let env ← environment
  let home := (Path.mk (toString (← IO.currentDir))).steps.filterMap fun
    | .name text => some text
    | _ => none
  let inputs := request.config.getD defaultSettingsPath :: request.manifests
  let disk ← lookAt (Disk.holding home []) inputs
  if let some p := request.manifests.find? (disk.lookup · = some .directory) then
    return ⟨1, "", s!"error: Directory is not searched: {p.text}\n", disk⟩
  let outputs :=
    match request.settings disk env with
    | .ok settings => (settings.output.toList ++ settings.dotOutput.toList).map Path.mk
    | .error _ => []
  let disk ← lookAt disk (outputs ++ outputs.map (·.sibling Disk.temporaryExtension))
  let outcome := Outcome.ofArguments arguments disk env
  carryOver disk outcome.disk
  return outcome

end Wiring

/-- Runs the command line: exit code 2 for arguments that are not understood, 1 for a failure. -/
def main (arguments : List String) : IO UInt32 := do
  match Wiring.Request.ofArguments? arguments with
  | none =>
    IO.eprint Wiring.usage
    return 2
  | some request =>
    let outcome ← Wiring.runOnMachine arguments request
    IO.print outcome.output
    IO.eprint outcome.errors
    return outcome.exitCode.toUInt32
