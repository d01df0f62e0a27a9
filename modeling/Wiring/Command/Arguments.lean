import Wiring.Disk.Path

/-!
# Arguments of the command line

An argument is an option, a group of one-letter options, or a plain text: a manifest or the value of an
option before it. Options may stand between the manifests; after `--` there are only manifests.

* `Request.ofArguments?`: what some arguments ask for; none if they are not understood.
-/

namespace Wiring

/-- The commands. -/
inductive Verb where
  | generate
  | graph
deriving DecidableEq

/-- The options. -/
inductive Switch where
  | output
  | dot
  | config
  | sequential
  | verbosity
deriving DecidableEq

/-- What a command line asks for. -/
structure Request where
  verb : Verb
  manifests : List Path
  output : Option Path := none
  dot : Option Path := none
  config : Option Path := none
  sequential : Bool := false
  verbosity : Nat := 0

namespace Verb

/-- The word for a command. -/
def word : Verb → String
  | .generate => "generate"
  | .graph => "graph"

def ofWord? (text : String) : Option Verb :=
  [generate, graph].find? (·.word = text)

/-- Whether an option may stand with a command. -/
def accepts : Verb → Switch → Bool
  | .generate, _ => true
  | .graph, .config | .graph, .verbosity => true
  | .graph, _ => false

end Verb

namespace Switch

/-- All options. -/
def all : List Switch :=
  [output, dot, config, sequential, verbosity]

/-- The word for an option. -/
def word : Switch → String
  | .output => "output"
  | .dot => "dot"
  | .config => "config"
  | .sequential => "sequential"
  | .verbosity => "verbosity"

/-- The letter for an option, if it has one. -/
def letter? : Switch → Option Char
  | .output => some 'o'
  | .verbosity => some 'v'
  | _ => none

/-- Whether an option has a value. -/
def hasValue : Switch → Bool
  | .output | .dot | .config => true
  | .sequential | .verbosity => false

end Switch

/-! ## Single arguments -/

/-- What one argument says. -/
inductive ArgumentKind where
  /-- From here on there are only manifests. -/
  | stop
  /-- Options without a value, and at last one with a value, which may be the next argument. -/
  | options (flags : List Switch) (last : Option (Switch × Option String))
  | plain

namespace ArgumentKind

/-- The options of a group of letters. What follows the letter of an option with a value is the value; an
equals sign may stand before it. -/
def group? (accepts : Switch → Bool) : List Char → Option ArgumentKind
  | [] => some (.options [] none)
  | c :: cs =>
    match Switch.all.find? fun o => accepts o && o.letter? = some c with
    | none => none
    | some o =>
      if o.hasValue then
        match cs with
        | [] => some (.options [] (some (o, none)))
        | '=' :: cs => some (.options [] (some (o, some (String.ofList cs))))
        | cs => some (.options [] (some (o, some (String.ofList cs))))
      else
        match group? accepts cs with
        | some (.options flags last) => some (.options (o :: flags) last)
        | _ => none

/-- The option of a word, after which an equals sign and a value may stand. -/
def word? (accepts : Switch → Bool) (cs : List Char) : Option ArgumentKind :=
  let word := cs.takeWhile (· ≠ '=')
  match Switch.all.find? fun o => accepts o && o.word.toList = word with
  | none => none
  | some o =>
    match o.hasValue, cs.drop word.length with
    | true, [] => some (.options [] (some (o, none)))
    | true, _ :: value => some (.options [] (some (o, some (String.ofList value))))
    | false, [] => some (.options [o] none)
    | false, _ => none

/-- What an argument says; none if it names no option that is accepted. -/
def ofText? (accepts : Switch → Bool) (text : String) : Option ArgumentKind :=
  match text.toList with
  | ['-', '-'] => some .stop
  | '-' :: '-' :: cs => word? accepts cs
  | ['-'] => some .plain
  | '-' :: cs => group? accepts cs
  | _ => some .plain

end ArgumentKind

/-! ## Command lines -/

/-- A part of a command line. -/
inductive Occurrence where
  | flag (switch : Switch)
  | value (switch : Switch) (text : String)
  | manifest (text : String)

/-- The parts of the arguments after a command; `awaiting` is the option whose value comes next. -/
def occurrences? (accepts : Switch → Bool) :
    (awaiting : Option Switch) → List String → Option (List Occurrence)
  | none, [] => some []
  | some _, [] => none
  | awaiting, text :: texts =>
    match ArgumentKind.ofText? accepts text, awaiting with
    | some .plain, some o => (occurrences? accepts none texts).map (.value o text :: ·)
    | _, some _ => none
    | none, none => none
    | some .stop, none => some (texts.map .manifest)
    | some .plain, none => (occurrences? accepts none texts).map (.manifest text :: ·)
    | some (.options flags none), none =>
      (occurrences? accepts none texts).map (flags.map .flag ++ ·)
    | some (.options flags (some (o, some value))), none =>
      (occurrences? accepts none texts).map fun parts =>
        flags.map .flag ++ .value o value :: parts
    | some (.options flags (some (o, none))), none =>
      (occurrences? accepts (some o) texts).map (flags.map .flag ++ ·)

/-- How often an option stands in a command line without a value. -/
def flagCount (o : Switch) (parts : List Occurrence) : Nat :=
  (parts.filter fun
    | .flag switch => switch = o
    | _ => false).length

/-- The value of an option that may stand in a command line once. -/
def valueOf? (o : Switch) (parts : List Occurrence) : Option (Option Path) :=
  let values := parts.filterMap fun
    | .value switch text => if switch = o then some text else none
    | _ => none
  match values with
  | [] => some none
  | [text] => if text = "" then none else some (some ⟨text⟩)
  | _ => none

/-- The manifests of a command line, of which there has to be one at least. -/
def manifests? (parts : List Occurrence) : Option (List Path) :=
  let texts := parts.filterMap fun
    | .manifest text => some text
    | _ => none
  if texts.isEmpty || "" ∈ texts then none else some (texts.map Path.mk)

namespace Request

/-- What the arguments after a command ask for. -/
def ofParts? (verb : Verb) (verbosity : Nat) (parts : List Occurrence) : Option Request := do
  let manifests ← manifests? parts
  let output ← valueOf? .output parts
  let dot ← valueOf? .dot parts
  let config ← valueOf? .config parts
  if 1 < flagCount .sequential parts then none
  return { verb, manifests, output, dot, config
           sequential := flagCount .sequential parts = 1
           verbosity := verbosity + flagCount .verbosity parts }

/-- What some arguments ask for, of which those before the command add to `verbosity`. -/
def ofArgumentsAfter? (verbosity : Nat) : List String → Option Request
  | [] => none
  | text :: texts =>
    match Verb.ofWord? text with
    | some verb => (occurrences? verb.accepts none texts).bind (ofParts? verb verbosity)
    | none =>
      match ArgumentKind.ofText? (· = .verbosity) text with
      | some (.options flags none) => ofArgumentsAfter? (verbosity + flags.length) texts
      | _ => none

/-- **What some arguments ask for**; none if they are not understood. -/
def ofArguments? (texts : List String) : Option Request :=
  ofArgumentsAfter? 0 texts

end Request

end Wiring
