import Wiring.Program
import Wiring.Toml.File

/-!
# Settings

Settings are put together from several sources, each of which gives values to some keys. For each key
the value of the most important source counts, whatever the other sources say; only the values that
count have to fit.

* `Settings.ofSources`: the settings of some sources.
* `Settings.load`: the settings of a settings file and of the environment.
-/

namespace Wiring

/-- The settings of one run. -/
structure Settings where
  /-- Where the generated file goes; to standard output if it is none. -/
  output : Option String := none
  /-- Where the graph goes; nowhere if it is none. -/
  dotOutput : Option String := none
  additionalImports : List String := []
  /-- How many components a chain may have. -/
  limit : Nat := Registry.defaultLimit
  /-- Whether the roots may be built at the same time, which changes no result. -/
  parallel : Bool := true
deriving DecidableEq

namespace Settings

/-! ## Keys and their values in variables -/

/-- What can be set. -/
inductive Key where
  | output
  | dotOutput
  | additionalImports
  | limit
  | parallel
deriving DecidableEq

/-- All keys. -/
def Key.all : List Key :=
  [.output, .dotOutput, .additionalImports, .limit, .parallel]

/-- The word for a key. -/
def Key.word : Key → String
  | .output => "output"
  | .dotOutput => "dot_output"
  | .additionalImports => "additional_imports"
  | .limit => "max_resolution_depth"
  | .parallel => "parallel"

/-- What every variable that sets a key starts with. -/
def variableStart : String := "WIREGRAPH_"

/-- A text in lower case. Only the letters of ASCII are changed: no other letter has one of the letters
of a key or of a truth value as its lower case. -/
def lowerCase (cs : List Char) : List Char :=
  cs.map Char.toLower

/-- The key that the variable of some name sets. After the start, case does not matter. -/
def Key.ofVariable? (name : String) : Option Key :=
  (Text.afterWord variableStart.toList name.toList).bind fun rest =>
    all.find? fun key => key.word.toList = lowerCase rest

/-- Why a text is not the value of a key. -/
inductive ValueFault where
  | empty
  | notDigit
  | tooLarge
  | notBoolean
deriving DecidableEq

/-- The wording of a fault. -/
def ValueFault.message : ValueFault → String
  | .empty => "cannot parse integer from empty string"
  | .notDigit => "invalid digit found in string"
  | .tooLarge => "number too large to fit in target type"
  | .notBoolean => "expected a boolean"

/-- Limits lie below this bound: they have 64 bits. -/
def limitBound : Nat := 18446744073709551616

/-- The number that some digits denote after a number `n`; the first character at fault counts. -/
def digitsAfter (n : Nat) : List Char → Except ValueFault Nat
  | [] => .ok n
  | c :: cs =>
    if c.isDigit then
      let next := 10 * n + (c.toNat - '0'.toNat)
      if next < limitBound then digitsAfter next cs else .error .tooLarge
    else .error .notDigit

/-- A number in a variable: digits, before which a plus sign may stand. -/
def number (cs : List Char) : Except ValueFault Nat :=
  match cs with
  | [] => .error .empty
  | ['+'] => .error .notDigit
  | '+' :: cs => digitsAfter 0 cs
  | cs => digitsAfter 0 cs

/-- A truth value in a variable. -/
def truth (cs : List Char) : Except ValueFault Bool :=
  let word := String.ofList (lowerCase cs)
  if word ∈ ["true", "1", "yes", "on"] then .ok true
  else if word ∈ ["false", "0", "no", "off"] then .ok false
  else .error .notBoolean

/-- The parts of a text between commas. -/
def commaParts : List Char → List (List Char)
  | [] => [[]]
  | c :: cs =>
    if c = ',' then [] :: commaParts cs
    else
      match commaParts cs with
      | [] => [[c]]
      | part :: parts => (c :: part) :: parts

/-- The value that the text of a variable gives to a key. White space around numbers, truth values and
the parts of lists does not matter, and empty parts are left out. -/
def Key.value (key : Key) (text : String) : Except ValueFault Json :=
  match key with
  | .output | .dotOutput => .ok (.string text)
  | .additionalImports =>
    let parts := (commaParts text.toList).map Text.trimChars
    .ok (.array ((parts.filter (!·.isEmpty)).map (.string <| String.ofList ·)))
  | .limit => (number (Text.trimChars text.toList)).map fun n => .integer n
  | .parallel => (truth (Text.trimChars text.toList)).map .bool

/-! ## Sources -/

/-- Why there are no settings. -/
inductive Error where
  /-- A variable holds a text that is not the value of its key. -/
  | invalidValue (name text : String) (fault : ValueFault)
  /-- The settings file cannot be read. -/
  | unreadable
  /-- The settings file is not well formed. -/
  | malformed
  /-- A value that counts does not fit its key. -/
  | unfitting
deriving DecidableEq

/-- The wording of an error. -/
def Error.message : Error → String
  | .invalidValue name text fault =>
    s!"Invalid value `{text}` for `{name}`: {fault.message}"
  | .unreadable => "IO error: the file cannot be read"
  | .malformed => "TOML error: the file is not well formed"
  | .unfitting => "Invalid settings: a value does not fit its key"

/-- What is known of a settings file. -/
inductive File where
  | missing
  | unreadable
  | text (content : String)

/-- Where values of keys come from. -/
inductive Source where
  /-- The environment: variables with their texts. -/
  | environment (env : List (String × String))
  /-- A settings file; a missing one gives no values. -/
  | file (file : File)
  /-- Values that are given as they are. -/
  | values (priority : Nat) (fields : Json.Fields)

/-- The more important of two sources has the higher priority. -/
def Source.priority : Source → Nat
  | .environment _ => 100
  | .file _ => 50
  | .values priority _ => priority

/-- The values that some variables give. Variables that set no key are ignored; of the others each has
to hold a value of its key, even if a later one sets the key again. -/
def variableFields : List (String × String) → Except Error Json.Fields
  | [] => .ok []
  | (name, text) :: env =>
    match Key.ofVariable? name with
    | none => variableFields env
    | some key =>
      match key.value text with
      | .error fault => .error (.invalidValue name text fault)
      | .ok json => (variableFields env).map ((key.word, json) :: ·)

/-- The values that a source gives; of several for one key the last one counts. -/
def Source.fields : Source → Except Error Json.Fields
  | .environment env => variableFields env
  | .file .missing => .ok []
  | .file .unreadable => .error .unreadable
  | .file (.text content) =>
    match Toml.parse? content with
    | some fields => .ok fields
    | none => .error .malformed
  | .values _ fields => .ok fields

/-- A limit in JSON. -/
def limit? : Json → Option Nat
  | .integer n => if 0 ≤ n && n < limitBound then some n.toNat else none
  | _ => none

/-- The settings that some values form, of which the first one for each key counts. A key without a
value keeps its default, and values without a key are ignored. -/
def ofFields? (fields : Json.Fields) : Option Settings := do
  let default : Settings := {}
  let output ←
    fields.optional? (Json.nullable? Json.string?) default.output Key.output.word
  let dotOutput ←
    fields.optional? (Json.nullable? Json.string?) default.dotOutput Key.dotOutput.word
  let additionalImports ←
    fields.optional? (Json.list? Json.string?) default.additionalImports Key.additionalImports.word
  let limit ← fields.optional? limit? default.limit Key.limit.word
  let parallel ← fields.optional? Json.bool? default.parallel Key.parallel.word
  return { output, dotOutput, additionalImports, limit, parallel }

/-- **The settings of some sources.** Sources are read in ascending priority, those of one priority in
the order given; the first that cannot be read decides about the error. -/
def ofSources (sources : List Source) : Except Error Settings := do
  let ordered := sorted (fun a b => compare a.priority b.priority) sources
  let values ← ordered.mapM Source.fields
  match ofFields? values.flatten.reverse with
  | some settings => .ok settings
  | none => .error .unfitting

/-- The settings of a settings file and of the environment, which comes before the file. -/
def load (file : File) (env : List (String × String)) : Except Error Settings :=
  ofSources [.file file, .environment env]

end Settings

end Wiring
