import Wiring.Command.Arguments
import Wiring.Disk.Writing
import Wiring.Graph.Dot
import Wiring.Graph.Projection
import Wiring.Manifest.Loading
import Wiring.Settings.Basic

/-!
# Running a command

A command reads manifests and settings from a disk. `generate` puts the generated file on the disk or
prints it, and puts the graph on the disk if a path for it is set; `graph` prints the graph.

* `Request.run`: what a command prints and leaves behind.
* `Outcome.ofArguments`: the same for the arguments of a command line.
-/

namespace Wiring

/-- Why a command fails. -/
inductive Failure where
  /-- The settings file that was asked for does not exist. -/
  | settingsMissing (path : Path)
  | settings (path : Path) (cause : Settings.Error)
  | loading (cause : LoadError)
  | graph (faults : List Fault)
  | writing (path : Path) (cause : DiskError)

/-- The lines that report a failure. -/
def Failure.report : Failure → String
  | .settingsMissing path => s!"error: Settings file does not exist: {path.text}\n"
  | .settings path cause =>
    s!"error: Failed to load settings from {path.text}: {cause.message}\n"
  | .loading cause => s!"error: {cause.message}\n"
  | .graph faults =>
    String.join (faults.map fun fault => s!"error: {fault.message}\n") ++
      s!"{faults.length} error(s) in dependency graph\n"
  | .writing path cause => s!"error: Failed to write {path.text}: {cause.message}\n"

/-- How a command ends: what it prints, the disk it leaves, and its failure if it fails. -/
structure Run where
  printed : String
  disk : Disk
  failure : Option Failure := none

/-! ## Settings of a request -/

/-- The settings file that is read if no other is asked for. -/
def defaultSettingsPath : Path := ⟨"wiregraph.toml"⟩

/-- What a disk holds at the path of a settings file. -/
def Disk.settingsFile (disk : Disk) (p : Path) : Settings.File :=
  match disk.lookup p with
  | none => .missing
  | some (.text content) => .text content
  | some _ => .unreadable

namespace Request

/-- The settings from the settings file and the environment. -/
def loadedSettings (request : Request) (disk : Disk) (env : List (String × String)) :
    Except Failure Settings :=
  let path := request.config.getD defaultSettingsPath
  if request.config.isSome && (disk.lookup path).isNone then .error (.settingsMissing path)
  else (Settings.load (disk.settingsFile path) env).mapError (.settings path)

/-- The settings of a request, whose options come before everything else. -/
def settings (request : Request) (disk : Disk) (env : List (String × String)) :
    Except Failure Settings :=
  (request.loadedSettings disk env).map fun loaded =>
    { loaded with
      output := (request.output.map Path.text).or loaded.output
      dotOutput := (request.dot.map Path.text).or loaded.dotOutput
      parallel := loaded.parallel && !request.sequential }

end Request

/-! ## Commands -/

/-- The registry that the manifests at some paths describe, and the imports they ask for. -/
def Disk.loadRegistry (disk : Disk) (manifests : List Path) :
    Except Failure (Registry × List String) := do
  let manifest ← (disk.loadManifests manifests).mapError .loading
  let registry ← (Registry.register manifest.components).mapError .graph
  return (registry, manifest.imports)

/-- Puts the generated file where the settings say, and tells what happened; or prints it. -/
def Settings.emitFile (settings : Settings) (disk : Disk) (text : String) : Run :=
  match settings.output with
  | none => ⟨text, disk, none⟩
  | some output =>
    match disk.writeIfChanged ⟨output⟩ text with
    | (.ok true, disk) => ⟨s!"Generated: {output}\n", disk, none⟩
    | (.ok false, disk) => ⟨s!"Unchanged: {output}\n", disk, none⟩
    | (.error cause, disk) => ⟨"", disk, some (.writing ⟨output⟩ cause)⟩

/-- Puts the graph where the settings say, after the run so far. -/
def Settings.emitGraph (settings : Settings) (registry : Registry) (run : Run) : Run :=
  match settings.dotOutput with
  | none => run
  | some output =>
    match registry.graph settings.limit with
    | .error faults => { run with failure := some (.graph faults) }
    | .ok graph =>
      match run.disk.writeIfChanged ⟨output⟩ graph.dot with
      | (.ok _, disk) => { run with disk }
      | (.error cause, disk) => { run with disk, failure := some (.writing ⟨output⟩ cause) }

/-- **Generates the file**, and then the graph if its path is set. Nothing is put on the disk before the
text of the file is complete. -/
def Settings.generate (settings : Settings) (disk : Disk) (manifests : List Path) : Run :=
  match disk.loadRegistry manifests with
  | .error failure => ⟨"", disk, some failure⟩
  | .ok (registry, imports) =>
    match registry.file (imports ++ settings.additionalImports) settings.limit with
    | .error faults => ⟨"", disk, some (.graph faults)⟩
    | .ok text =>
      let run := settings.emitFile disk text
      if run.failure.isSome then run else settings.emitGraph registry run

/-- **Prints the graph.** -/
def Settings.printGraph (settings : Settings) (disk : Disk) (manifests : List Path) : Run :=
  match disk.loadRegistry manifests with
  | .error failure => ⟨"", disk, some failure⟩
  | .ok (registry, _) =>
    match registry.graph settings.limit with
    | .error faults => ⟨"", disk, some (.graph faults)⟩
    | .ok graph => ⟨graph.dot, disk, none⟩

/-- **What a request prints and leaves behind.** -/
def Request.run (request : Request) (disk : Disk) (env : List (String × String)) : Run :=
  match request.settings disk env with
  | .error failure => ⟨"", disk, some failure⟩
  | .ok settings =>
    match request.verb with
    | .generate => settings.generate disk request.manifests
    | .graph => settings.printGraph disk request.manifests

/-! ## Command lines -/

/-- The outcome of a command line. -/
structure Outcome where
  exitCode : Nat
  output : String
  errors : String
  disk : Disk

/-- What is said about arguments that are not understood. -/
def usage : String :=
  "usage: wiregraph [-v] generate [-o FILE] [--dot FILE] [--config FILE] [--sequential] MANIFEST...\n" ++
    "       wiregraph [-v] graph [--config FILE] MANIFEST...\n"

/-- **The outcome of the command line with some arguments.** -/
def Outcome.ofArguments (arguments : List String) (disk : Disk) (env : List (String × String)) :
    Outcome :=
  match Request.ofArguments? arguments with
  | none => ⟨2, "", usage, disk⟩
  | some request =>
    let run := request.run disk env
    match run.failure with
    | none => ⟨0, run.printed, "", run.disk⟩
    | some failure => ⟨1, run.printed, failure.report, run.disk⟩

end Wiring
