import Wiring.Proofs.Json
import Wiring.Proofs.Settings.Variables
import Wiring.Proofs.Toml.Table

/-!
# Settings in layers

The environment lies over the settings file, and the file over the defaults. For each key the last variable
that sets it counts, or else the file, or else the default. Every variable is checked while it is read; a
value of the file is checked only if it counts.

* `Settings.load_eq`: the two layers, one on top of the other.
* `Settings.Key.Fits`, `Settings.asJson`: the values of a key, and the one that settings have.
* `Settings.fits_of_ofFields?`, `Settings.exists_ofFields?`: when values form settings, and which.
* `Settings.load_layers`: the settings of a file and of the environment.
-/

namespace Wiring.Settings

variable {file : File} {env : List (String × String)} {fields : Json.Fields} {key : Key} {json : Json}
  {settings : Settings}

/-! ## Two layers -/

/-- **The settings of a file and of the environment**: of several values for one key the last one in the
environment counts, or else the last one in the file. -/
theorem load_eq (file : File) (env : List (String × String)) :
    load file env =
      (Source.file file).fields.bind fun below =>
        (variableFields env).bind fun above =>
          (ofFields? (above.reverse ++ below.reverse)).elim (.error .unfitting) .ok := by
  have hsorted : sorted (fun a b => compare (Source.priority a) b.priority)
      [.file file, .environment env] = [.file file, .environment env] :=
    List.mergeSort_of_pairwise (List.pairwise_pair.2 rfl)
  have henv : Source.fields (.environment env) = variableFields env := rfl
  rw [load, ofSources, hsorted]
  cases hbelow : (Source.file file).fields with
  | error cause => simp [hbelow, bind, Except.bind]
  | ok below =>
    cases habove : variableFields env with
    | error cause => simp [hbelow, henv, habove, bind, Except.bind]
    | ok above =>
      simp only [List.mapM_cons, List.mapM_nil, hbelow, henv, habove, pure, Except.pure, bind,
        Except.bind, List.flatten_cons, List.flatten_nil, List.append_nil, List.reverse_append]
      cases ofFields? (above.reverse ++ below.reverse) <;> rfl

/-- The order in which the two sources are given does not matter. -/
theorem ofSources_swap (file : File) (env : List (String × String)) :
    ofSources [.environment env, .file file] = load file env := by
  have hsorted : sorted (fun a b => compare (Source.priority a) b.priority)
      [.environment env, .file file] = sorted (fun a b => compare (Source.priority a) b.priority)
      [.file file, .environment env] := by
    have hbelow : (compare (50 : Nat) 100).isLE = true := rfl
    have habove : (compare (100 : Nat) 50).isLE = false := rfl
    simp [sorted, List.mergeSort, List.MergeSort.Internal.splitInTwo, Source.priority, hbelow,
      habove]
  rw [load, ofSources, ofSources, hsorted]

/-- Without a settings file and variables, every setting has its default. -/
theorem load_missing : load .missing [] = .ok {} := by
  rw [load_eq]
  rfl

/-! ## Values that form settings -/

/-- **The values that a key takes.** -/
def Key.Fits (key : Key) (json : Json) : Prop :=
  match key with
  | .output | .dotOutput => json = .null ∨ ∃ text, json = .string text
  | .additionalImports => ∃ imports : List String, json = .array (imports.map .string)
  | .limit => ∃ n : Nat, n < limitBound ∧ json = .integer n
  | .parallel => ∃ b, json = .bool b

/-- **The value that settings have for a key.** -/
def asJson (settings : Settings) : Key → Json
  | .output => settings.output.elim .null .string
  | .dotOutput => settings.dotOutput.elim .null .string
  | .additionalImports => .array (settings.additionalImports.map .string)
  | .limit => .integer settings.limit
  | .parallel => .bool settings.parallel

theorem nullableString?_eq_some_iff {text : Option String} :
    Json.nullable? Json.string? json = some text ↔ json = text.elim .null .string := by
  cases json <;> cases text <;> simp [Json.nullable?, Json.string?]

theorem stringList?_eq_some_iff {texts : List String} :
    Json.list? Json.string? json = some texts ↔ json = .array (texts.map .string) := by
  constructor
  · intro h
    unfold Json.list? at h
    split at h
    · rename_i items
      congr
      induction items generalizing texts with
      | nil =>
        cases h
        rfl
      | cons item items ih =>
        rw [List.mapM_cons] at h
        simp only [bind, Option.bind_eq_some_iff] at h
        obtain ⟨text, htext, rest, hrest, h⟩ := h
        cases h
        cases item <;> cases htext
        rw [ih hrest, List.map_cons]
    · cases h
  · rintro rfl
    exact Json.list?_map fun _ _ => rfl

theorem limit?_eq_some_iff {n : Nat} : limit? json = some n ↔ json = .integer n ∧ n < limitBound := by
  unfold limit?
  split
  · rename_i m
    split
    · rename_i hbound
      simp only [Bool.and_eq_true, decide_eq_true_eq] at hbound
      simp only [Option.some.injEq, Json.integer.injEq]
      omega
    · rename_i hbound
      simp only [Bool.and_eq_true, decide_eq_true_eq] at hbound
      simp only [reduceCtorEq, Json.integer.injEq, false_iff]
      omega
  · rename_i hother
    simp only [reduceCtorEq, false_iff, not_and]
    rintro rfl
    exact absurd rfl (hother n)

theorem bool?_eq_some_iff {b : Bool} : Json.bool? json = some b ↔ json = .bool b := by
  cases json <;> simp [Json.bool?]

/-- What a variable sets fits its key. -/
theorem Key.fits_of_value {text : String} (h : key.value text = .ok json) : key.Fits json := by
  cases key with
  | output | dotOutput =>
    cases h
    exact .inr ⟨text, rfl⟩
  | additionalImports =>
    cases h
    exact ⟨_, by rw [List.map_map]; rfl⟩
  | limit =>
    rw [value] at h
    cases hnumber : number (Text.trimChars text.toList) with
    | error fault =>
      rw [hnumber] at h
      cases h
    | ok n =>
      rw [hnumber] at h
      cases h
      obtain ⟨-, -, -, -, -, hbound⟩ := number_eq_ok_iff.1 hnumber
      exact ⟨n, hbound, rfl⟩
  | parallel =>
    rw [value] at h
    cases htruth : truth (Text.trimChars text.toList) with
    | error fault =>
      rw [htruth] at h
      cases h
    | ok b =>
      rw [htruth] at h
      cases h
      exact ⟨b, rfl⟩

section Fields

variable {α : Type} {decode : Json → Option α} {default : α} {word : String}

theorem decode_of_optional? {a : α} (h : fields.optional? decode default word = some a)
    (hjson : fields.get? word = some json) : decode json = some a := by
  unfold Json.Fields.optional? at h
  rwa [hjson] at h

/-- A field that can be read if it is there is read, or it has its default. -/
theorem exists_optional? {encode : α → Json} (default : α)
    (h : ∀ json, fields.get? word = some json → ∃ a, decode json = some a ∧ json = encode a) :
    ∃ a, fields.optional? decode default word = some a ∧
      encode a = (fields.get? word).getD (encode default) := by
  unfold Json.Fields.optional?
  cases hjson : fields.get? word with
  | none => exact ⟨default, rfl, rfl⟩
  | some json =>
    obtain ⟨a, ha, rfl⟩ := h json hjson
    exact ⟨a, ha, rfl⟩

end Fields

/-- The fields of settings are read one after the other. -/
theorem ofFields?_eq_some_iff :
    ofFields? fields = some settings ↔
      fields.optional? (Json.nullable? Json.string?) none Key.output.word = some settings.output ∧
      fields.optional? (Json.nullable? Json.string?) none Key.dotOutput.word =
        some settings.dotOutput ∧
      fields.optional? (Json.list? Json.string?) [] Key.additionalImports.word =
        some settings.additionalImports ∧
      fields.optional? limit? Registry.defaultLimit Key.limit.word = some settings.limit ∧
      fields.optional? Json.bool? true Key.parallel.word = some settings.parallel := by
  unfold ofFields?
  simp only [bind, Option.bind_eq_some_iff, pure, Option.some.injEq]
  constructor
  · rintro ⟨output, houtput, dotOutput, hdotOutput, imports, himports, limit, hlimit, parallel,
      hparallel, rfl⟩
    exact ⟨houtput, hdotOutput, himports, hlimit, hparallel⟩
  · rintro ⟨houtput, hdotOutput, himports, hlimit, hparallel⟩
    exact ⟨_, houtput, _, hdotOutput, _, himports, _, hlimit, _, hparallel, rfl⟩

/-- **Values that form settings fit**, as far as they belong to a key. -/
theorem fits_of_ofFields? (h : ofFields? fields = some settings)
    (hjson : fields.get? key.word = some json) : key.Fits json := by
  obtain ⟨houtput, hdotOutput, himports, hlimit, hparallel⟩ := ofFields?_eq_some_iff.1 h
  have htext : ∀ {text : Option String}, Json.nullable? Json.string? json = some text →
      json = .null ∨ ∃ text, json = .string text := by
    intro text htext
    cases text with
    | none => exact .inl (nullableString?_eq_some_iff.1 htext)
    | some text => exact .inr ⟨text, nullableString?_eq_some_iff.1 htext⟩
  cases key with
  | output => exact htext (decode_of_optional? houtput hjson)
  | dotOutput => exact htext (decode_of_optional? hdotOutput hjson)
  | additionalImports =>
    exact ⟨_, stringList?_eq_some_iff.1 (decode_of_optional? himports hjson)⟩
  | limit =>
    obtain ⟨hn, hbound⟩ := limit?_eq_some_iff.1 (decode_of_optional? hlimit hjson)
    exact ⟨_, hbound, hn⟩
  | parallel => exact ⟨_, bool?_eq_some_iff.1 (decode_of_optional? hparallel hjson)⟩

/-- **Values that fit form settings**, in which every key has its value or its default. -/
theorem exists_ofFields? (h : ∀ (key : Key) json, fields.get? key.word = some json → key.Fits json) :
    ∃ settings, ofFields? fields = some settings ∧
      ∀ key : Key, settings.asJson key = (fields.get? key.word).getD (({} : Settings).asJson key) := by
  have htext : ∀ json, (json = .null ∨ ∃ text, json = .string text) →
      ∃ text, Json.nullable? Json.string? json = some text ∧ json = text.elim .null .string := by
    rintro json (rfl | ⟨text, rfl⟩)
    · exact ⟨none, rfl, rfl⟩
    · exact ⟨some text, rfl, rfl⟩
  obtain ⟨output, houtput, houtputJson⟩ := exists_optional? none fun json hjson =>
    htext json (h .output json hjson)
  obtain ⟨dotOutput, hdotOutput, hdotOutputJson⟩ := exists_optional? none fun json hjson =>
    htext json (h .dotOutput json hjson)
  obtain ⟨imports, himports, himportsJson⟩ := exists_optional? [] fun json hjson => by
    obtain ⟨imports, rfl⟩ := h .additionalImports json hjson
    exact ⟨imports, stringList?_eq_some_iff.2 rfl, rfl⟩
  obtain ⟨limit, hlimit, hlimitJson⟩ := exists_optional? Registry.defaultLimit fun json hjson => by
    obtain ⟨n, hbound, rfl⟩ := h .limit json hjson
    exact ⟨n, limit?_eq_some_iff.2 ⟨rfl, hbound⟩, rfl⟩
  obtain ⟨parallel, hparallel, hparallelJson⟩ := exists_optional? true fun json hjson => by
    obtain ⟨b, rfl⟩ := h .parallel json hjson
    exact ⟨b, bool?_eq_some_iff.2 rfl, rfl⟩
  refine ⟨⟨output, dotOutput, imports, limit, parallel⟩,
    ofFields?_eq_some_iff.2 ⟨houtput, hdotOutput, himports, hlimit, hparallel⟩, ?_⟩
  intro key
  cases key with
  | output => exact houtputJson
  | dotOutput => exact hdotOutputJson
  | additionalImports => exact himportsJson
  | limit => exact hlimitJson
  | parallel => exact hparallelJson

/-! ## A file below the environment -/

/-- **The file has these entries**: none if it is missing, else those that its text spells. -/
def File.Has (file : File) (fields : Json.Fields) : Prop :=
  (file = .missing ∧ fields = []) ∨
    ∃ content, file = .text content ∧ Toml.parse? content = some fields

/-- **The value that counts for a key**: what the last variable that sets it gives, or else what the file
gives, or else the default. -/
inductive Counts (env : List (String × String)) (fields : Json.Fields) (key : Key) : Json → Prop
  | set {json : Json} : IsSetTo env key json → Counts env fields key json
  | file {json : Json} :
    (∀ pair ∈ env, ¬ key.IsSetBy pair.1) → fields.get? key.word = some json →
      Counts env fields key json
  | default :
    (∀ pair ∈ env, ¬ key.IsSetBy pair.1) → fields.get? key.word = none →
      Counts env fields key (({} : Settings).asJson key)

/-- Of the variables that set a key the last one counts. -/
theorem Counts.isSetTo {pair : String × String} (h : Counts env fields key json) (hpair : pair ∈ env)
    (hset : key.IsSetBy pair.1) : IsSetTo env key json := by
  cases h with
  | set h => exact h
  | file hunset => exact absurd hset (hunset pair hpair)
  | default hunset => exact absurd hset (hunset pair hpair)

/-- **A value of the file does not fit** and no variable sets its key. -/
def Unfitting (env : List (String × String)) (fields : Json.Fields) : Prop :=
  ∃ (key : Key) (json : Json), (∀ pair ∈ env, ¬ key.IsSetBy pair.1) ∧
    fields.get? key.word = some json ∧ ¬ key.Fits json

theorem File.Has.fields_eq (h : file.Has fields) : (Source.file file).fields = .ok fields := by
  rcases h with ⟨rfl, rfl⟩ | ⟨content, rfl, hparse⟩
  · rfl
  · rw [Source.fields, hparse]

/-- The first entry for a name is the last one. -/
theorem File.Has.get?_reverse (h : file.Has fields) (word : String) :
    Json.Fields.get? fields.reverse word = fields.get? word := by
  have hnodup : (fields.map (·.1)).Nodup := by
    rcases h with ⟨rfl, rfl⟩ | ⟨content, rfl, hparse⟩
    · exact List.nodup_nil
    · exact Toml.nodup_of_parse? hparse
  clear h
  induction fields with
  | nil => rfl
  | cons entry fields ih =>
    obtain ⟨hnew, hrest⟩ := List.nodup_cons.1 hnodup
    rw [List.reverse_cons, get?_append, ih hrest]
    by_cases hword : entry.1 = word
    · have hnone : fields.find? (fun other => decide (other.1 = word)) = none := by
        rw [List.find?_eq_none]
        intro other hother heq
        have hmem : other.1 ∈ fields.map (·.1) := List.mem_map_of_mem hother
        rw [of_decide_eq_true heq, ← hword] at hmem
        exact hnew hmem
      simp [Json.Fields.get?, hnone, hword]
    · simp [Json.Fields.get?, hword]

/-- **A variable at fault decides**, whatever the file gives. -/
theorem load_eq_invalidValue_iff (hfile : file.Has fields) {name text : String} {fault : ValueFault} :
    load file env = .error (.invalidValue name text fault) ↔ IsFirstFault env name text fault := by
  rw [load_eq, hfile.fields_eq]
  cases henv : variableFields env with
  | error cause =>
    simp only [Except.bind, Except.error.injEq]
    constructor
    · rintro rfl
      obtain ⟨name', text', fault', heq, hfault⟩ := variableFields_eq_error_iff.1 henv
      cases heq
      exact hfault
    · intro hfault
      have herror := variableFields_eq_error_iff.2 ⟨name, text, fault, rfl, hfault⟩
      rw [henv] at herror
      exact Except.error.inj herror
  | ok above =>
    simp only [Except.bind]
    constructor
    · intro h
      cases hfields : ofFields? (above.reverse ++ fields.reverse) <;> rw [hfields] at h <;> cases h
    · intro hfault
      have herror := variableFields_eq_error_iff.2 ⟨name, text, fault, rfl, hfault⟩
      rw [henv] at herror
      cases herror

/-- What the two layers give to a key: the variables come first. -/
theorem get?_layers (hfile : file.Has fields) {above : Json.Fields}
    (henv : variableFields env = .ok above) (key : Key) :
    (∃ json, Json.Fields.get? (above.reverse ++ fields.reverse) key.word = some json ∧
        IsSetTo env key json) ∨
      (∀ pair ∈ env, ¬ key.IsSetBy pair.1) ∧
        Json.Fields.get? (above.reverse ++ fields.reverse) key.word = fields.get? key.word := by
  rw [get?_append]
  rcases get?_variableFields henv key with ⟨json, hjson, hset⟩ | ⟨hnone, hunset⟩
  · rw [hjson]
    exact .inl ⟨json, rfl, hset⟩
  · rw [hnone, Option.none_or, hfile.get?_reverse]
    exact .inr ⟨hunset, rfl⟩

/-- **If no variable is at fault**, there are settings in which for each key that value counts, unless a
value of the file that counts does not fit. -/
theorem load_of_no_fault (hfile : file.Has fields)
    (hsound : ¬ ∃ name text fault, IsFirstFault env name text fault) :
    (Unfitting env fields ∧ load file env = .error .unfitting) ∨
      ¬ Unfitting env fields ∧ ∃ settings, load file env = .ok settings ∧
        ∀ key, Counts env fields key (settings.asJson key) := by
  rw [load_eq, hfile.fields_eq]
  cases henv : variableFields env with
  | error cause =>
    obtain ⟨name, text, fault, -, hfault⟩ := variableFields_eq_error_iff.1 henv
    exact absurd ⟨name, text, fault, hfault⟩ hsound
  | ok above =>
    simp only [Except.bind]
    by_cases hunfitting : Unfitting env fields
    · refine .inl ⟨hunfitting, ?_⟩
      obtain ⟨key, json, hunset, hjson, hfits⟩ := hunfitting
      cases hfields : ofFields? (above.reverse ++ fields.reverse) with
      | none => rfl
      | some settings =>
        rcases get?_layers hfile henv key with ⟨other, -, name, text, before, after, rfl, hset, -⟩ |
          ⟨-, heq⟩
        · exact absurd hset (hunset (name, text) (by simp))
        · exact absurd (fits_of_ofFields? hfields (heq.trans hjson)) hfits
    · refine .inr ⟨hunfitting, ?_⟩
      have hfits : ∀ (key : Key) json,
          Json.Fields.get? (above.reverse ++ fields.reverse) key.word = some json → key.Fits json := by
        intro key json hjson
        rcases get?_layers hfile henv key with ⟨other, hother, _, _, _, _, -, -, hvalue, -⟩ |
          ⟨hunset, heq⟩
        · rw [hjson] at hother
          cases hother
          exact Key.fits_of_value hvalue
        · by_contra hfits
          exact hunfitting ⟨key, json, hunset, heq.symm.trans hjson, hfits⟩
      obtain ⟨settings, hsettings, hvalues⟩ := exists_ofFields? hfits
      refine ⟨settings, by rw [hsettings]; rfl, fun key => ?_⟩
      rw [hvalues key]
      rcases get?_layers hfile henv key with ⟨json, hjson, hset⟩ | ⟨hunset, heq⟩
      · rw [hjson]
        exact .set hset
      · rw [heq]
        cases hjson : fields.get? key.word with
        | none => exact .default hunset hjson
        | some json => exact .file hunset hjson

/-- What belongs to no key has no effect. -/
theorem load_congr {file' : File} {fields' : Json.Fields} (hfile : file.Has fields)
    (hfile' : file'.Has fields')
    (hsame : ∀ key : Key, fields'.get? key.word = fields.get? key.word) :
    load file' env = load file env := by
  have hget : ∀ (above : Json.Fields) (key : Key),
      Json.Fields.get? (above ++ fields'.reverse) key.word =
        Json.Fields.get? (above ++ fields.reverse) key.word := by
    intro above key
    rw [get?_append, get?_append, hfile.get?_reverse, hfile'.get?_reverse, hsame]
  have hfields : ∀ above : Json.Fields,
      ofFields? (above ++ fields'.reverse) = ofFields? (above ++ fields.reverse) := by
    intro above
    unfold ofFields? Json.Fields.optional?
    simp only [hget]
  rw [load_eq, load_eq, hfile.fields_eq, hfile'.fields_eq]
  simp only [Except.bind, hfields]

/-- **The settings of a settings file and of the environment.** Take a file that is missing or well formed.

The first variable at fault decides, also if a later one sets the same key. If there is none, then every
setting has the value of the last variable that sets its key, or else that of the file, or else its default;
unless a value of the file does not fit that no variable replaces. What variables and entries of the file
there are besides does not matter, nor does the order of the two sources. -/
theorem load_layers (hfile : file.Has fields) (env : List (String × String)) :
    (∀ name text fault, load file env = .error (.invalidValue name text fault) ↔
        IsFirstFault env name text fault) ∧
      ((¬ ∃ name text fault, IsFirstFault env name text fault) →
        (load file env = .error .unfitting ↔ Unfitting env fields) ∧
          (¬ Unfitting env fields → ∃ settings, load file env = .ok settings ∧
            ∀ key, Counts env fields key (settings.asJson key))) ∧
      (∀ file' fields', File.Has file' fields' →
        (∀ key : Key, fields'.get? key.word = fields.get? key.word) →
          load file' env = load file env) ∧
      (∀ before pair after, env = before ++ pair :: after → (∀ key : Key, ¬ key.IsSetBy pair.1) →
        load file env = load file (before ++ after)) ∧
      ofSources [.environment env, .file file] = load file env := by
  refine ⟨fun name text fault => load_eq_invalidValue_iff hfile, fun hsound => ?_,
    fun file' fields' hfile' hsame => load_congr hfile hfile' hsame, ?_, ofSources_swap file env⟩
  · rcases load_of_no_fault hfile hsound with ⟨hunfitting, hload⟩ | ⟨hfitting, settings, hload, hcounts⟩
    · exact ⟨⟨fun _ => hunfitting, fun _ => hload⟩, fun hfitting => absurd hunfitting hfitting⟩
    · refine ⟨⟨fun herror => ?_, fun hunfitting => absurd hunfitting hfitting⟩,
        fun _ => ⟨settings, hload, hcounts⟩⟩
      rw [hload] at herror
      cases herror
  · rintro before pair after rfl hunset
    rw [load_eq, load_eq, variableFields_insert hunset]

/-- A file that gives a number where a truth value belongs. -/
def numberedFile : File := .text "parallel = 3"

theorem line_numberedFile : Toml.line "parallel = 3".toList =
    .done (.definition ⟨[], "parallel"⟩ (.integer 3)) [] (by decide) := by
  have hkey : Toml.key "parallel = 3".toList = .done ⟨[], "parallel"⟩ " = 3".toList (by decide) := by
    rw [Toml.key, Toml.longKey]
    rfl
  have hequals : Text.shorterAfter ['='] (Toml.skipSpaces " = 3".toList) =
      some ⟨" 3".toList, by decide⟩ := by rfl
  have hvalue : Toml.value Toml.maxNesting (Toml.skipSpaces " 3".toList) =
      .done (.integer 3) [] (by decide) := by
    unfold Toml.value
    rfl
  have hdefinition : Toml.definition Toml.maxNesting "parallel = 3".toList =
      .done (⟨[], "parallel"⟩, .integer 3) [] (by decide) := by
    unfold Toml.definition
    simp only [hkey, hequals, hvalue]
    rfl
  have hbrackets : Text.shorterAfter ['[', '['] "parallel = 3".toList = none := by rfl
  have hbracket : Text.shorterAfter ['['] "parallel = 3".toList = none := by rfl
  rw [Toml.line, hbrackets, hbracket, hdefinition]
  rfl

theorem has_numberedFile : numberedFile.Has [("parallel", .integer 3)] := by
  have hskip : Toml.skipLines "parallel = 3".toList = "parallel = 3".toList := by
    rw [Toml.skipLines]
    rfl
  have hblank : Toml.skipLines [] = [] := by
    rw [Toml.skipLines]
    rfl
  have hlines : Toml.lines? "parallel = 3".toList =
      some [.definition ⟨[], "parallel"⟩ (.integer 3)] := by
    rw [Toml.lines?_of_line hskip line_numberedFile rfl, Toml.lines?_of_blank hblank]
    rfl
  have hparse : Toml.parse? "parallel = 3" =
      ((Toml.lines? "parallel = 3".toList).bind (Toml.addLines [] [])).map Toml.itemsToJson := by rfl
  refine .inr ⟨"parallel = 3", rfl, ?_⟩
  rw [hparse, hlines]
  rfl

/-- Variables that set one key twice, with another one in between. -/
def nightEnvironment : List (String × String) :=
  [("WIREGRAPH_Parallel", "Yes"), ("HOME", "/"), ("WIREGRAPH_PARALLEL", " no ")]

/-- Without variables the number does not fit. If one is malformed, it is reported, although a later one
is not. If both are well formed, the last one counts and nobody looks at the number. -/
theorem numberedFile_below_variables :
    load numberedFile [] = .error .unfitting ∧
      load numberedFile [("WIREGRAPH_Parallel", "maybe"), ("WIREGRAPH_PARALLEL", " no ")] =
        .error (.invalidValue "WIREGRAPH_Parallel" "maybe" .notBoolean) ∧
      ∃ settings, load numberedFile nightEnvironment = .ok settings ∧ settings.parallel = false := by
  obtain ⟨-, hbare, -⟩ := load_layers has_numberedFile []
  obtain ⟨hfault, -⟩ := load_layers has_numberedFile
    [("WIREGRAPH_Parallel", "maybe"), ("WIREGRAPH_PARALLEL", " no ")]
  obtain ⟨-, hlayered, -⟩ := load_layers has_numberedFile nightEnvironment
  have hfirst : Key.parallel.IsSetBy "WIREGRAPH_Parallel" := ⟨"Parallel".toList, rfl, rfl⟩
  have hlast : Key.parallel.IsSetBy "WIREGRAPH_PARALLEL" := ⟨"PARALLEL".toList, rfl, rfl⟩
  have hmem : ("WIREGRAPH_PARALLEL", " no ") ∈ nightEnvironment := by simp [nightEnvironment]
  have hnotBoolean : Key.parallel.value "maybe" = .error .notBoolean := by rfl
  refine ⟨?_, ?_, ?_⟩
  · have hunfitting : Unfitting [] [("parallel", .integer 3)] := by
      refine ⟨.parallel, .integer 3, by simp, rfl, ?_⟩
      rintro ⟨b, ⟨⟩⟩
    refine (hbare ?_).1.2 hunfitting
    rintro ⟨name, text, fault, key, before, after, henv, -⟩
    simp at henv
  · exact (hfault _ _ _).2 ⟨.parallel, [], _, rfl, hfirst,
      Key.value_eq_error_iff.1 ⟨_, hnotBoolean⟩, hnotBoolean, by simp⟩
  · have hfields : variableFields nightEnvironment =
        .ok [("parallel", .bool true), ("parallel", .bool false)] := by rfl
    have hsound : ¬ ∃ name text fault, IsFirstFault nightEnvironment name text fault := by
      rintro ⟨name, text, fault, hfault⟩
      have herror := variableFields_eq_error_iff.2 ⟨name, text, fault, rfl, hfault⟩
      rw [hfields] at herror
      cases herror
    have hfitting : ¬ Unfitting nightEnvironment [("parallel", .integer 3)] := by
      rintro ⟨key, json, hunset, hjson, -⟩
      cases key with
      | parallel => exact hunset _ hmem hlast
      | output | dotOutput | additionalImports | limit => cases hjson
    obtain ⟨settings, hload, hcounts⟩ := (hlayered hsound).2 hfitting
    refine ⟨settings, hload, ?_⟩
    have hset := (hcounts .parallel).isSetTo hmem hlast
    rw [nightEnvironment, isSetTo_cons, isSetTo_cons, isSetTo_cons] at hset
    rcases hset with ((⟨_, _, before, after, henv, -⟩ | ⟨-, -, hvalue⟩) | ⟨hunset, -⟩) | ⟨hunset, -⟩
    · simp at henv
    · have hno : Key.parallel.value " no " = .ok (.bool false) := by rfl
      rw [hno] at hvalue
      exact (Json.bool.inj (Except.ok.inj hvalue)).symm
    · exact absurd hlast (hunset ("WIREGRAPH_PARALLEL", " no ") (by simp))
    · exact absurd hlast (hunset ("WIREGRAPH_PARALLEL", " no ") (by simp))

end Wiring.Settings
