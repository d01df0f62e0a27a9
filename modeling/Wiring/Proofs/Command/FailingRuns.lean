import Wiring.Command.Run
import Wiring.Proofs.Program
import Wiring.Proofs.Settings.Layers

/-!
# Runs that fail

A command that fails leaves the disk as it was, unless what failed is the writing of one of its own
outputs. The file is put on the disk before the graph is drawn, so this rests on two things: everything
else that can go wrong is found out before the file is written, and a registry that has a file has a
graph, too.

* `Json.parse?_of_value`, `Disk.loadManifests_of_text`: what is read.
* `Settings.isOutputError_of_emitFile`, `Settings.isOutputError_of_emitGraph`: what can go wrong with an
  output.
* `Request.ends_run`: how a run ends.
* `Outcome.failing_run_leaves_disk`: what a command line that fails has done.
-/

namespace Wiring

variable {settings : Settings} {disk : Disk} {env : List (String × String)} {registry : Registry}
  {run : Run} {text : String} {failure : Failure} {request : Request}

/-! ## What is read -/

/-- **What a text spells** is the value at its front, if nothing else stands after it. -/
theorem Json.parse?_of_value {cs rest : List Char} {value : Json}
    (hcs : Text.skipGaps text.toList = cs) {hrest : rest.length < cs.length}
    (hvalue : Json.value maxNesting cs = .done value rest hrest) (hend : Text.skipGaps rest = []) :
    Json.parse? text = some value := by
  subst hcs
  simp [parse?, hvalue, hend]

/-- A text with no value at its front spells nothing. -/
theorem Json.parse?_of_failed {cs place : List Char} (hcs : Text.skipGaps text.toList = cs)
    (hvalue : Json.value maxNesting cs = .failed place) : Json.parse? text = none := by
  subst hcs
  simp [parse?, hvalue]

/-- **A manifest that is named is read as it is.** -/
theorem Disk.loadManifests_of_text {p : Path} (h : disk.text? p = some text) :
    disk.loadManifests [p] =
      ((Manifest.parse? text).map fun manifest => Manifest.merge [manifest]).elim
        (.error (.malformed p)) .ok := by
  have hp : disk.manifestsAt p = .ok [p] := by
    unfold text? at h
    unfold manifestsAt
    split at h
    · rename_i hlookup
      rw [hlookup]
    · cases h
  have hpaths : disk.manifestPaths [p] = .ok [p] := by
    have hsorted : sortedSet Path.compare [p] = [p] := by
      rw [sortedSet, sorted, List.mergeSort_singleton]
      rfl
    rw [manifestPaths, List.mapM_cons, hp]
    exact congrArg Except.ok hsorted
  have hfile : disk.loadManifest p = (Manifest.parse? text).elim (.error (.malformed p)) .ok := by
    unfold loadManifest
    simp only [h]
    cases Manifest.parse? text <;> rfl
  rw [loadManifests, hpaths]
  simp only [bind, Except.bind, List.mapM_cons, hfile]
  cases Manifest.parse? text <;> rfl

/-! ## How a run ends -/

/-- **The failure is that an output cannot be written**: the settings name the path, and a disk refused a
text there. -/
def Failure.IsOutputError (failure : Failure) (settings : Settings) : Prop :=
  ∃ path cause, failure = .writing path cause ∧
    (settings.output = some path.text ∨ settings.dotOutput = some path.text) ∧
    ∃ (disk : Disk) (content : String), (disk.writeIfChanged path content).1 = .error cause

/-- **Nothing is wrong with what a request is about**: its settings and its manifests can be read, its
components can be registered, and neither the file nor the graph has faults. -/
def Request.IsSound (request : Request) (disk : Disk) (env : List (String × String)) : Prop :=
  ∃ settings registry imports text graph, request.settings disk env = .ok settings ∧
    disk.loadRegistry request.manifests = .ok (registry, imports) ∧
    registry.file (imports ++ settings.additionalImports) settings.limit = .ok text ∧
    registry.graph settings.limit = .ok graph

/-- Of a sound request, with the settings and the registry that it has, there are the file and the graph. -/
theorem Request.IsSound.exists_of_ok {imports : List String} (h : request.IsSound disk env)
    (hsettings : request.settings disk env = .ok settings)
    (hload : disk.loadRegistry request.manifests = .ok (registry, imports)) :
    (∃ text, registry.file (imports ++ settings.additionalImports) settings.limit = .ok text) ∧
      ∃ graph, registry.graph settings.limit = .ok graph := by
  obtain ⟨settings', registry', imports', text, graph, hsettings', hload', hfile, hgraph⟩ := h
  rw [hsettings] at hsettings'
  cases hsettings'
  rw [hload] at hload'
  cases hload'
  exact ⟨⟨text, hfile⟩, graph, hgraph⟩

theorem Request.not_isSound_of_loadRegistry (hload : disk.loadRegistry request.manifests = .error failure) :
    ¬ request.IsSound disk env := by
  rintro ⟨settings, registry, imports, text, graph, -, hother, -⟩
  rw [hload] at hother
  cases hother

/-- **How a run ends**: if something is wrong, it is refused before anything is printed or written, and if
nothing is, only the writing of an output can fail. -/
inductive Request.Ends (request : Request) (disk : Disk) (env : List (String × String)) : Run → Prop
  | refused (failure : Failure) : ¬ request.IsSound disk env →
    Ends request disk env ⟨"", disk, some failure⟩
  | carriedOut {settings : Settings} {run : Run} :
    request.settings disk env = .ok settings → request.IsSound disk env →
      (∀ failure, run.failure = some failure → failure.IsOutputError settings) →
      Ends request disk env run

namespace Settings

/-- The file is printed, or it is written to its path. -/
theorem isOutputError_of_emitFile (h : (settings.emitFile disk text).failure = some failure) :
    failure.IsOutputError settings := by
  unfold emitFile at h
  cases houtput : settings.output with
  | none =>
    rw [houtput] at h
    cases h
  | some output =>
    simp only [houtput] at h
    split at h
    · cases h
    · cases h
    · rename_i cause later hwrite
      cases h
      exact ⟨⟨output⟩, cause, rfl, .inl houtput, disk, text, by rw [hwrite]⟩

/-- The graph is written to its path, if there is one. -/
theorem isOutputError_of_emitGraph {graph : Graph}
    (hgraph : registry.graph settings.limit = .ok graph) (hrun : run.failure = none)
    (h : (settings.emitGraph registry run).failure = some failure) :
    failure.IsOutputError settings := by
  unfold emitGraph at h
  cases houtput : settings.dotOutput with
  | none =>
    rw [houtput] at h
    simp only [hrun] at h
    cases h
  | some output =>
    simp only [houtput, hgraph] at h
    split at h
    · simp only [hrun] at h
      cases h
    · rename_i cause later hwrite
      cases h
      exact ⟨⟨output⟩, cause, rfl, .inr houtput, run.disk, graph.dot, by rw [hwrite]⟩

/-- How generating ends. -/
theorem ends_generate (hsettings : request.settings disk env = .ok settings) :
    request.Ends disk env (settings.generate disk request.manifests) := by
  unfold generate
  cases hload : disk.loadRegistry request.manifests with
  | error failure => exact .refused failure (Request.not_isSound_of_loadRegistry hload)
  | ok loaded =>
    obtain ⟨registry, imports⟩ := loaded
    cases hfile : registry.file (imports ++ settings.additionalImports) settings.limit with
    | error faults =>
      have hunsound : ¬ request.IsSound disk env := by
        intro hsound
        obtain ⟨⟨text, htext⟩, -⟩ := hsound.exists_of_ok hsettings hload
        rw [hfile] at htext
        cases htext
      simp only [hfile]
      exact .refused (.graph faults) hunsound
    | ok text =>
      -- the graph is not drawn yet, but it cannot go wrong any more
      obtain ⟨graph, hgraph⟩ := (Registry.exists_file_iff _).1 ⟨text, hfile⟩
      have hsound : request.IsSound disk env :=
        ⟨settings, registry, imports, text, graph, hsettings, hload, hfile, hgraph⟩
      simp only [hfile]
      split
      · exact .carriedOut hsettings hsound fun failure h => isOutputError_of_emitFile h
      · rename_i hwritten
        have hnone : (settings.emitFile disk text).failure = none := by simpa using hwritten
        exact .carriedOut hsettings hsound fun failure h => isOutputError_of_emitGraph hgraph hnone h

/-- How printing the graph ends. -/
theorem ends_printGraph (hsettings : request.settings disk env = .ok settings) :
    request.Ends disk env (settings.printGraph disk request.manifests) := by
  unfold printGraph
  cases hload : disk.loadRegistry request.manifests with
  | error failure => exact .refused failure (Request.not_isSound_of_loadRegistry hload)
  | ok loaded =>
    obtain ⟨registry, imports⟩ := loaded
    cases hgraph : registry.graph settings.limit with
    | error faults =>
      have hunsound : ¬ request.IsSound disk env := by
        intro hsound
        obtain ⟨-, graph, hdrawn⟩ := hsound.exists_of_ok hsettings hload
        rw [hgraph] at hdrawn
        cases hdrawn
      simp only [hgraph]
      exact .refused (.graph faults) hunsound
    | ok graph =>
      obtain ⟨text, hfile⟩ :=
        (Registry.exists_file_iff (imports ++ settings.additionalImports)).2 ⟨graph, hgraph⟩
      have hsound : request.IsSound disk env :=
        ⟨settings, registry, imports, text, graph, hsettings, hload, hfile, hgraph⟩
      simp only [hgraph]
      refine .carriedOut hsettings hsound ?_
      rintro failure ⟨⟩

end Settings

/-- **How the run of a request ends.** -/
theorem Request.ends_run (request : Request) (disk : Disk) (env : List (String × String)) :
    request.Ends disk env (request.run disk env) := by
  unfold run
  cases hsettings : request.settings disk env with
  | error failure =>
    refine .refused failure ?_
    rintro ⟨settings, registry, imports, text, graph, hother, -⟩
    rw [hsettings] at hother
    cases hother
  | ok settings =>
    cases hverb : request.verb with
    | generate => exact Settings.ends_generate hsettings
    | graph => exact Settings.ends_printGraph hsettings

/-- **A command line that fails leaves the disk alone**, unless the failure is that one of its outputs cannot
be written. That holds for arguments that are not understood, and for a request that fails with anything
else, which has printed nothing either. In particular nothing is written for a request about which
something is wrong, be it only that the graph has faults; and where nothing is wrong, only the writing of
an output can fail. -/
theorem Outcome.failing_run_leaves_disk (arguments : List String) (disk : Disk)
    (env : List (String × String)) :
    (Request.ofArguments? arguments = none → (Outcome.ofArguments arguments disk env).disk = disk) ∧
    ∀ request, Request.ofArguments? arguments = some request →
      (∀ failure, (request.run disk env).failure = some failure →
        Outcome.ofArguments arguments disk env = ⟨1, "", failure.report, disk⟩ ∨
        ∃ settings, request.settings disk env = .ok settings ∧ failure.IsOutputError settings) ∧
      (¬ request.IsSound disk env →
        ∃ failure : Failure, Outcome.ofArguments arguments disk env = ⟨1, "", failure.report, disk⟩) ∧
      (request.IsSound disk env → ∀ failure, (request.run disk env).failure = some failure →
        ∃ settings, request.settings disk env = .ok settings ∧ failure.IsOutputError settings) := by
  unfold Outcome.ofArguments
  refine ⟨?_, ?_⟩
  · intro hnone
    rw [hnone]
  · intro request hrequest
    simp only [hrequest]
    -- a run that is refused is of a request that is not sound, and the other one of one that is
    have hends := request.ends_run disk env
    generalize request.run disk env = run at hends
    cases hends with
    | refused refusal hunsound =>
      refine ⟨?_, fun _ => ⟨refusal, rfl⟩, fun hsound => absurd hsound hunsound⟩
      rintro failure ⟨⟩
      exact .inl rfl
    | carriedOut hsettings hsound hfailure =>
      have houtput : ∀ failure, run.failure = some failure →
          ∃ settings, request.settings disk env = .ok settings ∧ failure.IsOutputError settings :=
        fun failure h => ⟨_, hsettings, hfailure failure h⟩
      exact ⟨fun failure h => .inr (houtput failure h), fun hunsound => absurd hsound hunsound,
        fun _ => houtput⟩

/-- A disk with a manifest that declares nothing, and with one that is no manifest yet. -/
def benchDisk : Disk :=
  ⟨[(["bench.json"], .text "\x7b\x7d"), (["blank.json"], .text "")], []⟩

/-- A request for the file of the manifest that is none. -/
def blankRequest : Request where
  verb := .generate
  manifests := [⟨"blank.json"⟩]
  output := some ⟨"Bench.swift"⟩

theorem blankRequest_not_isSound : ¬ blankRequest.IsSound benchDisk [] := by
  have hvalue : Json.value Json.maxNesting [] = .failed [] := by
    unfold Json.value
    rfl
  have hchars : Text.skipGaps "".toList = [] := by rfl
  have hparse : Manifest.parse? "" = none := by
    rw [Manifest.parse?, Json.parse?_of_failed hchars hvalue]
    rfl
  have htext : benchDisk.text? ⟨"blank.json"⟩ = some "" := by with_unfolding_all rfl
  have hmanifest := Disk.loadManifests_of_text htext
  rw [hparse] at hmanifest
  have hload : benchDisk.loadRegistry [⟨"blank.json"⟩] =
      .error (.loading (.malformed ⟨"blank.json"⟩)) := by
    rw [Disk.loadRegistry, hmanifest]
    rfl
  exact Request.not_isSound_of_loadRegistry hload

/-- A path below a file; on the way there is a directory that has to be made. -/
def misplaced : Path := ⟨"booth/../bench.json/Bench.swift"⟩

/-- A request for a file that has no place. -/
def misplacedRequest : Request where
  verb := .generate
  manifests := [⟨"bench.json"⟩]
  output := some misplaced

theorem settings_misplacedRequest :
    misplacedRequest.settings benchDisk [] = .ok { output := some misplaced.text } := by
  have hmissing : benchDisk.settingsFile defaultSettingsPath = .missing := by with_unfolding_all rfl
  have hloaded : misplacedRequest.loadedSettings benchDisk [] = .ok {} := by
    rw [Request.loadedSettings]
    simp [misplacedRequest, hmissing, Settings.load_missing, Except.mapError]
  rw [Request.settings, hloaded]
  rfl

theorem loadRegistry_misplacedRequest :
    benchDisk.loadRegistry misplacedRequest.manifests = .ok (⟨[]⟩, []) := by
  have htext : benchDisk.text? ⟨"bench.json"⟩ = some "\x7b\x7d" := by with_unfolding_all rfl
  have hvalue : Json.value Json.maxNesting ['\x7b', '\x7d'] = .done (.object []) [] (by decide) := by
    unfold Json.value Json.entries Json.furtherEntries
    rfl
  have hchars : Text.skipGaps "\x7b\x7d".toList = ['\x7b', '\x7d'] := by with_unfolding_all rfl
  have hparse : Manifest.parse? "\x7b\x7d" = some ⟨[], []⟩ := by
    rw [Manifest.parse?, Json.parse?_of_value hchars hvalue rfl]
    rfl
  have hmanifest := Disk.loadManifests_of_text htext
  rw [hparse] at hmanifest
  rw [misplacedRequest, Disk.loadRegistry, hmanifest]
  rfl

theorem misplacedRequest_isSound : misplacedRequest.IsSound benchDisk [] :=
  ⟨_, ⟨[]⟩, [], fileText [] [], Graph.ofRoots [], settings_misplacedRequest,
    loadRegistry_misplacedRequest, by rfl, by rfl⟩

/-- The directory is made before the writing fails. -/
theorem run_misplacedRequest : misplacedRequest.run benchDisk [] =
    ⟨"", benchDisk.put ["booth"] .directory, some (.writing misplaced .notDirectory)⟩ := by
  have hfile : Registry.file ⟨[]⟩ [] Registry.defaultLimit = .ok (fileText [] []) := by rfl
  have hwrite : ∀ text, benchDisk.writeIfChanged misplaced text =
      (.error .notDirectory, benchDisk.put ["booth"] .directory) := by
    intro text
    have hempty : benchDisk.text? misplaced = none := by with_unfolding_all rfl
    have hparents : benchDisk.makeParents misplaced =
        (.error .notDirectory, benchDisk.put ["booth"] .directory) := by with_unfolding_all rfl
    simp [Disk.writeIfChanged, hempty, hparents]
  have hverb : misplacedRequest.verb = .generate := rfl
  rw [Request.run, settings_misplacedRequest]
  simp only [hverb, Settings.generate, loadRegistry_misplacedRequest, List.nil_append, hfile,
    Settings.emitFile, hwrite]
  rfl

/-- Where a manifest is blank, the disk is left alone. Where the output has no place, the directory on the
way to it is there afterwards, and it is the writing that has failed. -/
theorem benchDisk_left_alone_but_for_outputs :
    (Outcome.ofArguments ["generate"] benchDisk []).disk = benchDisk ∧
      (∃ failure : Failure,
        Outcome.ofArguments ["generate", "blank.json", "-o", "Bench.swift"] benchDisk [] =
          ⟨1, "", failure.report, benchDisk⟩) ∧
      (Outcome.ofArguments ["generate", "bench.json", "-o", misplaced.text] benchDisk []).disk ≠
        benchDisk ∧
      ∃ settings, misplacedRequest.settings benchDisk [] = .ok settings ∧
        (Failure.writing misplaced .notDirectory).IsOutputError settings := by
  have hnone : Request.ofArguments? ["generate"] = none := by rfl
  have hblank : Request.ofArguments? ["generate", "blank.json", "-o", "Bench.swift"] =
      some blankRequest := by with_unfolding_all rfl
  have hmisplaced : Request.ofArguments? ["generate", "bench.json", "-o", misplaced.text] =
      some misplacedRequest := by with_unfolding_all rfl
  have hfailure : (misplacedRequest.run benchDisk []).failure =
      some (.writing misplaced .notDirectory) := by rw [run_misplacedRequest]
  have hchanged : (Outcome.ofArguments ["generate", "bench.json", "-o", misplaced.text] benchDisk
      []).disk ≠ benchDisk := by
    intro hsame
    simp only [Outcome.ofArguments, hmisplaced, run_misplacedRequest] at hsame
    have hbooth := congrArg (·.get? ["booth"]) hsame
    cases hbooth
  obtain ⟨hleft, -⟩ := Outcome.failing_run_leaves_disk ["generate"] benchDisk []
  obtain ⟨-, hrefused⟩ := Outcome.failing_run_leaves_disk
    ["generate", "blank.json", "-o", "Bench.swift"] benchDisk []
  obtain ⟨-, hwriting⟩ := Outcome.failing_run_leaves_disk
    ["generate", "bench.json", "-o", misplaced.text] benchDisk []
  refine ⟨hleft hnone, (hrefused _ hblank).2.1 blankRequest_not_isSound, hchanged, ?_⟩
  exact (hwriting _ hmisplaced).2.2 misplacedRequest_isSound _ hfailure

end Wiring
