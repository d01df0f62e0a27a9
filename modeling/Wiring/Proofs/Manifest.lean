import Wiring.Manifest.Basic
import Wiring.Proofs.TypeExpr.Json

/-!
# Reading manifests back

A manifest is read back as it was written. Only the types that it names have to be as the program builds
them: their compositions are in normal form, since reading brings them into it.

* `Manifest.isNormal`: all compositions of a manifest are in normal form.
* `Manifest.isNormal_of_parse?`, `Manifest.isNormal_merge`: so they are in each manifest that is read, and in
  several taken together.
* `Manifest.read_back`: what is read back.
-/

namespace Wiring

open Json (Fields)

namespace Property

def isNormal (p : Property) : Bool :=
  p.type.isNormal

theorem ofJson?_toJson {p : Property} (h : p.isNormal = true) : ofJson? p.toJson = some p := by
  have htype := TypeExpr.ofJson?_toJson (t := p.type) h
  simp [ofJson?, toJson, Json.record?, Fields.unrepeated, Fields.required?, Fields.get?, Json.string?, htype]

theorem isValid_toJson (p : Property) : p.toJson.isValid = true := by
  simp [toJson, Json.isValid, Json.entriesAreValid, TypeExpr.isValid_toJson]

theorem isNormal_of_ofJson? {json : Json} {p : Property} (h : ofJson? json = some p) :
    p.isNormal = true := by
  simp only [ofJson?, bind, Option.bind_eq_some_iff] at h
  obtain ⟨fields, -, label, -, type, htype, h⟩ := h
  cases h
  obtain ⟨json, hjson⟩ := Fields.exists_of_required? htype
  exact TypeExpr.isNormal_of_ofJson? (t := type) hjson

end Property

namespace Origin

def isNormal : Origin → Bool
  | .instantiated fulfilling _ => fulfilling.all (·.isNormal)
  | .aliased fulfilling _ => fulfilling.isNormal
  | .received | .forwarded => true

theorem isValid_toJson (o : Origin) : o.toJson.isValid = true := by
  cases o with
  | instantiated fulfilling erased =>
    cases fulfilling <;>
      simp [toJson, Json.isValid, Json.entriesAreValid, TypeExpr.isValid_toJson]
  | aliased fulfilling erased =>
    simp [toJson, Json.isValid, Json.entriesAreValid, Property.isValid_toJson]
  | received | forwarded => rfl

theorem ofJson?_toJson {o : Origin} (h : o.isNormal = true) : ofJson? o.toJson = some o := by
  unfold ofJson?
  -- fields that are ignored have to denote something as well
  rw [isValid_toJson]
  cases o with
  | instantiated fulfilling erased =>
    cases fulfilling with
    | none =>
      simp [toJson, Json.tagged?, Json.string?, Json.record?, Fields.unrepeated, Fields.optional?,
        Fields.flag?, Fields.get?, Json.bool?]
    | some t =>
      have ht := TypeExpr.ofJson?_toJson (t := t) h
      simp [toJson, Json.tagged?, Json.string?, Json.record?, Fields.unrepeated, Fields.optional?,
        Fields.flag?, Fields.get?, Json.bool?, Json.nullable?_of_ne_null t.toJson_ne_null, ht]
  | aliased fulfilling erased =>
    have hfulfilling := Property.ofJson?_toJson (p := fulfilling) h
    simp [toJson, Json.tagged?, Json.string?, Json.record?, Fields.unrepeated, Fields.required?,
      Fields.optional?, Fields.flag?, Fields.get?, Json.bool?, hfulfilling]
  | received | forwarded => rfl

theorem isNormal_of_ofJson? {json : Json} {o : Origin} (h : ofJson? json = some o) :
    o.isNormal = true := by
  unfold ofJson? at h
  split at h
  · cases h
  simp only [bind, Option.bind_eq_some_iff] at h
  obtain ⟨⟨tag, body⟩, -, kind, -, h⟩ := h
  split at h
  · simp only [Option.bind_eq_some_iff] at h
    obtain ⟨fields, -, fulfilling, hfulfilling, erased, -, h⟩ := h
    cases h
    have hall := Fields.forall_of_nullable? hfulfilling fun _ _ => TypeExpr.isNormal_of_ofJson?
    cases fulfilling with
    | none => rfl
    | some t => exact hall t rfl
  · obtain ⟨fields, -, rfl⟩ := Option.map_eq_some_iff.1 h
    rfl
  · simp only [Option.bind_eq_some_iff] at h
    obtain ⟨fields, -, fulfilling, hfulfilling, erased, -, h⟩ := h
    cases h
    obtain ⟨json, hjson⟩ := Fields.exists_of_required? hfulfilling
    exact Property.isNormal_of_ofJson? (p := fulfilling) hjson
  · obtain ⟨fields, -, rfl⟩ := Option.map_eq_some_iff.1 h
    rfl
  · cases h

end Origin

namespace Dependency

def isNormal (d : Dependency) : Bool :=
  d.property.isNormal && d.origin.isNormal

theorem ofJson?_toJson {d : Dependency} (h : d.isNormal = true) : ofJson? d.toJson = some d := by
  simp only [isNormal, Bool.and_eq_true] at h
  simp [ofJson?, toJson, Json.record?, Fields.unrepeated, Fields.required?, Fields.get?,
    Property.ofJson?_toJson h.1, Origin.ofJson?_toJson h.2]

theorem isNormal_of_ofJson? {json : Json} {d : Dependency} (h : ofJson? json = some d) :
    d.isNormal = true := by
  simp only [ofJson?, bind, Option.bind_eq_some_iff] at h
  obtain ⟨fields, -, property, hproperty, origin, horigin, h⟩ := h
  cases h
  obtain ⟨propertyJson, hproperty⟩ := Fields.exists_of_required? hproperty
  obtain ⟨originJson, horigin⟩ := Fields.exists_of_required? horigin
  simp only [isNormal, Property.isNormal_of_ofJson? hproperty, Origin.isNormal_of_ofJson? horigin,
    Bool.and_self]

end Dependency

namespace Argument

def isNormal (a : Argument) : Bool :=
  a.type.isNormal

theorem ofJson?_toJson {a : Argument} (h : a.isNormal = true) : ofJson? a.toJson = some a := by
  have htype := TypeExpr.ofJson?_toJson (t := a.type) h
  simp [ofJson?, toJson, Json.record?, Fields.unrepeated, Fields.required?, Fields.optional?,
    Fields.flag?, Fields.get?, Json.string?, Json.bool?, Json.nullable?_optionJson, htype]

theorem isNormal_of_ofJson? {json : Json} {a : Argument} (h : ofJson? json = some a) :
    a.isNormal = true := by
  simp only [ofJson?, bind, Option.bind_eq_some_iff] at h
  obtain ⟨fields, -, outerLabel, -, innerLabel, -, type, htype, hasDefault, -, h⟩ := h
  cases h
  obtain ⟨json, hjson⟩ := Fields.exists_of_required? htype
  exact TypeExpr.isNormal_of_ofJson? (t := type) hjson

end Argument

namespace Initializer

def isNormal (i : Initializer) : Bool :=
  i.arguments.all (·.isNormal)

theorem toJson_ne_null (i : Initializer) : i.toJson ≠ .null := by
  simp [toJson]

theorem ofJson?_toJson {i : Initializer} (h : i.isNormal = true) : ofJson? i.toJson = some i := by
  have harguments : Json.list? Argument.ofJson? (.array (i.arguments.map Argument.toJson)) =
      some i.arguments :=
    Json.list?_map fun a ha => Argument.ofJson?_toJson (List.all_eq_true.1 h a ha)
  simp [ofJson?, toJson, Json.record?, Fields.unrepeated, Fields.optional?, Fields.flag?, Fields.get?,
    Json.bool?, harguments]

theorem isNormal_of_ofJson? {json : Json} {i : Initializer} (h : ofJson? json = some i) :
    i.isNormal = true := by
  simp only [ofJson?, bind, Option.bind_eq_some_iff] at h
  obtain ⟨fields, -, arguments, harguments, isAsync, -, canThrow, -, isOptional, -,
    hasGenericParameter, -, hasWhereClause, -, h⟩ := h
  cases h
  exact List.all_eq_true.2 (Fields.forall_of_optional? harguments fun _ _ => Argument.isNormal_of_ofJson?)

end Initializer

theorem Declaration.ofJson?_word (d : Declaration) : ofJson? (.string d.word) = some d := by
  cases d <;> decide

namespace Component

def isNormal (c : Component) : Bool :=
  c.types.all (·.isNormal) && c.initializer.all (·.isNormal) && c.dependencies.all (·.isNormal)

/-- **A component is read back as it was written**, whether or not it has additional types. -/
theorem ofJson?_toJson {c : Component} (h : c.isNormal = true) : ofJson? c.toJson = some c := by
  obtain ⟨concreteType, additionalTypes, isRoot, initializer, dependencies, declaration⟩ := c
  simp only [isNormal, types, Bool.and_eq_true, List.all_cons] at h
  obtain ⟨⟨⟨hconcreteType, hadditional⟩, hinitializer⟩, hdependencies⟩ := h
  have hconcreteType := TypeExpr.ofJson?_toJson hconcreteType
  have hadditional : Json.list? TypeExpr.ofJson? (.array (additionalTypes.map TypeExpr.toJson)) =
      some additionalTypes :=
    Json.list?_map fun t ht => TypeExpr.ofJson?_toJson (List.all_eq_true.1 hadditional t ht)
  have hdependencies : Json.list? Dependency.ofJson? (.array (dependencies.map Dependency.toJson)) =
      some dependencies :=
    Json.list?_map fun d hd => Dependency.ofJson?_toJson (List.all_eq_true.1 hdependencies d hd)
  have hinitializer : Json.nullable? Initializer.ofJson? (initializer.elim .null Initializer.toJson) =
      some initializer := by
    cases initializer with
    | none => rfl
    | some i =>
      have hi := Initializer.ofJson?_toJson (i := i) hinitializer
      simp [Json.nullable?_of_ne_null i.toJson_ne_null, hi]
  -- additional types of which there are none are left out
  cases additionalTypes with
  | nil =>
    simp [ofJson?, toJson, Json.record?, Fields.unrepeated, Fields.required?, Fields.optional?,
      Fields.flag?, Fields.get?, Json.bool?, Declaration.ofJson?_word, hconcreteType, hinitializer,
      hdependencies]
  | cons t ts =>
    rw [List.map_cons] at hadditional
    simp [ofJson?, toJson, Json.record?, Fields.unrepeated, Fields.required?, Fields.optional?,
      Fields.flag?, Fields.get?, Json.bool?, Declaration.ofJson?_word, hconcreteType, hadditional,
      hinitializer, hdependencies]

theorem isNormal_of_ofJson? {json : Json} {c : Component} (h : ofJson? json = some c) :
    c.isNormal = true := by
  simp only [ofJson?, bind, Option.bind_eq_some_iff] at h
  obtain ⟨fields, -, concreteType, hconcreteType, additionalTypes, hadditional, isRoot, -,
    initializer, hinitializer, dependencies, hdependencies, declaration, -, h⟩ := h
  cases h
  obtain ⟨json, hjson⟩ := Fields.exists_of_required? hconcreteType
  have hconcreteType := TypeExpr.isNormal_of_ofJson? hjson
  have hadditional : additionalTypes.all (·.isNormal) = true :=
    List.all_eq_true.2 (Fields.forall_of_optional? hadditional fun _ _ => TypeExpr.isNormal_of_ofJson?)
  have hinitializer : initializer.all (·.isNormal) = true :=
    (Option.all_eq_true _ _).2 (Fields.forall_of_nullable? hinitializer
      fun _ _ => Initializer.isNormal_of_ofJson?)
  have hdependencies : dependencies.all (·.isNormal) = true :=
    List.all_eq_true.2 (Fields.forall_of_optional? hdependencies
      fun _ _ => Dependency.isNormal_of_ofJson?)
  simp only [isNormal, types, List.all_cons, hconcreteType, hadditional, hinitializer, hdependencies,
    Bool.and_self]

end Component

namespace Manifest

/-- **All compositions of the manifest are in normal form**, as they are wherever the program makes one. -/
def isNormal (m : Manifest) : Bool :=
  m.components.all (·.isNormal)

/-- Reading brings all compositions into normal form. -/
theorem isNormal_of_ofJson? {json : Json} {m : Manifest} (h : ofJson? json = some m) :
    m.isNormal = true := by
  simp only [ofJson?, bind, Option.bind_eq_some_iff] at h
  obtain ⟨fields, -, imports, -, components, hcomponents, h⟩ := h
  cases h
  exact List.all_eq_true.2 (Fields.forall_of_optional? hcomponents fun _ _ => Component.isNormal_of_ofJson?)

theorem isNormal_of_parse? {text : String} {m : Manifest} (h : parse? text = some m) :
    m.isNormal = true := by
  obtain ⟨json, -, hjson⟩ := Option.bind_eq_some_iff.1 h
  exact isNormal_of_ofJson? hjson

theorem isNormal_merge {manifests : List Manifest} (h : ∀ m ∈ manifests, m.isNormal = true) :
    (merge manifests).isNormal = true := by
  simp only [isNormal, merge, List.all_eq_true, List.mem_flatMap] at h ⊢
  rintro c ⟨m, hm, hc⟩
  exact h m hm c hc

/-- **A manifest is read back as it was written.** -/
theorem read_back {m : Manifest} (h : m.isNormal = true) : ofJson? m.toJson = some m := by
  have himports : Json.list? Json.string? (.array (m.imports.map .string)) = some m.imports :=
    Json.list?_map fun _ _ => rfl
  have hcomponents : Json.list? Component.ofJson? (.array (m.components.map Component.toJson)) =
      some m.components :=
    Json.list?_map fun c hc => Component.ofJson?_toJson (List.all_eq_true.1 h c hc)
  simp [ofJson?, toJson, Json.record?, Fields.unrepeated, Fields.optional?, Fields.get?, himports,
    hcomponents]

end Manifest

/-- A theatre with a stage, which can stand for compositions of any number of types. -/
def theatre : Component :=
  ⟨.simple "Theatre" [.optional (.nested "Act" (.simple "Play" []) [])],
    [TypeExpr.compose [.simple "Venue" [], .simple "Building" []], TypeExpr.compose [],
      TypeExpr.compose [.unknown "<stage>"]],
    true,
    some ⟨[⟨some "_", "stage", .attributed (.someOf (.simple "Stage" [])) none ["escaping"], true⟩],
      false, false, true, false, false⟩,
    [⟨⟨"stage", .anyOf (.simple "Stage" [])⟩, .instantiated (some (.simple "Stage" [])) true⟩,
      ⟨⟨"scene", .tuple [⟨none, .simple "Stage" []⟩, ⟨some "props", .array (.simple "Prop" [])⟩]⟩,
        .aliased ⟨"stage", .anyOf (.simple "Stage" [])⟩ false⟩,
      ⟨⟨"play", .closure [.metatype (.simple "Act" []) true] true false (.unknown "?")⟩, .received⟩,
      ⟨⟨"cast", .dictionary (.simple "Role" []) (.forced (.simple "Actor" []))⟩, .forwarded⟩],
    .extensionType⟩

/-- Compositions of two types, of none and of one are read back, as all other types are. -/
theorem theatre_read_back :
    (⟨["import Stage"], [theatre]⟩ : Manifest).isNormal = true ∧
      Manifest.ofJson? (Manifest.toJson ⟨["import Stage"], [theatre]⟩) =
        some ⟨["import Stage"], [theatre]⟩ := by
  have hnormal : (⟨["import Stage"], [theatre]⟩ : Manifest).isNormal = true := by
    simp [Manifest.isNormal, Component.isNormal, Component.types, Initializer.isNormal,
      Argument.isNormal, Dependency.isNormal, Origin.isNormal, Property.isNormal, theatre,
      TypeExpr.isNormal_compose, TypeExpr.isNormal, TypeExpr.areNormal, TypeExpr.elementsAreNormal]
  exact ⟨hnormal, Manifest.read_back hnormal⟩

end Wiring
