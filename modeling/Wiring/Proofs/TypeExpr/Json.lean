import Wiring.Proofs.Json
import Wiring.Proofs.TypeExpr.Canonical

/-!
# Reading types back from JSON

A type whose compositions are in normal form is read back as it was written. Generic arguments that were
left out are none, and bringing a composition into normal form again changes nothing.

* `TypeExpr.ofJson?_toJson`: what is read back.
* `TypeExpr.isValid_toJson`: what is written denotes something in every part.
* `TypeExpr.isNormal_of_ofJson?`: what is read is in normal form.
-/

namespace Wiring.TypeExpr

open Json (Fields)

/-! ## What is written -/

mutual

/-- **A type in normal form is read back as it was written.** -/
theorem ofJson?_toJson : ∀ {t : TypeExpr}, t.isNormal = true → ofJson? t.toJson = some t
  | .simple n gs, h => by
    have hgs := itemsOfJson?_toJsonAll h
    rw [toJson, ofJson?]
    -- generic arguments of which there are none are left out
    cases gs with
    | nil =>
      simp [toJsonAll, genericEntries, Json.record?, Fields.unrepeated, Fields.required?, Fields.get?,
        Json.string?, listField?, listEntry?]
    | cons g gs =>
      rw [toJsonAll] at hgs ⊢
      simp [genericEntries, Json.record?, Fields.unrepeated, Fields.required?, Fields.get?,
        Json.string?, listField?, listEntry?, listOfJson?, hgs]
  | .nested n p gs, h => by
    simp only [isNormal, Bool.and_eq_true] at h
    have hp := ofJson?_toJson h.1
    have hgs := itemsOfJson?_toJsonAll h.2
    rw [toJson, ofJson?]
    cases gs with
    | nil =>
      simp [toJsonAll, genericEntries, Json.record?, Fields.unrepeated, Fields.required?, Fields.get?,
        Json.string?, typeField?, typeEntry?, listField?, listEntry?, hp]
    | cons g gs =>
      rw [toJsonAll] at hgs ⊢
      simp [genericEntries, Json.record?, Fields.unrepeated, Fields.required?, Fields.get?,
        Json.string?, typeField?, typeEntry?, listField?, listEntry?, listOfJson?, hp, hgs]
  | .composition ms, h => by
    -- composing members that are in normal form changes nothing
    have hcompose := compose_of_isNormal h
    simp only [isNormal, Bool.and_eq_true] at h
    rw [toJson, ofJson?]
    simp only [listOfJson?, itemsOfJson?_toJsonAll h.2, Option.map_some, hcompose]
  | .optional t, h | .forced t, h | .someOf t, h | .anyOf t, h | .array t, h => by
    rw [toJson, ofJson?]
    simp only [ofJson?_toJson (t := t) h, Option.map_some]
  | .metatype t isType, h => by
    have ht := ofJson?_toJson (t := t) h
    rw [toJson, ofJson?]
    simp [Json.record?, Fields.unrepeated, Fields.required?, Fields.get?, Json.bool?, typeField?,
      typeEntry?, ht]
  | .attributed t specifier attributes, h => by
    have ht := ofJson?_toJson (t := t) h
    have hattributes : Json.list? Json.string? (.array (attributes.map .string)) = some attributes :=
      Json.list?_map fun _ _ => rfl
    rw [toJson, ofJson?]
    simp [Json.record?, Fields.unrepeated, Fields.optional?, Fields.get?, typeField?, typeEntry?, ht,
      Json.nullable?_optionJson, hattributes]
  | .dictionary k v, h => by
    simp only [isNormal, Bool.and_eq_true] at h
    have hk := ofJson?_toJson h.1
    have hv := ofJson?_toJson h.2
    rw [toJson, ofJson?]
    simp [Json.record?, Fields.unrepeated, typeField?, typeEntry?, hk, hv]
  | .tuple es, h => by
    rw [toJson, ofJson?]
    simp only [elementsOfJson?, elementItemsOfJson?_elementsToJson h, Option.map_some]
  | .closure as isAsync canThrow r, h => by
    simp only [isNormal, Bool.and_eq_true] at h
    have has := itemsOfJson?_toJsonAll h.1
    have hr := ofJson?_toJson h.2
    rw [toJson, ofJson?]
    simp [Json.record?, Fields.unrepeated, Fields.flag?, Fields.optional?, Fields.get?, Json.bool?,
      listField?, listEntry?, listOfJson?, typeField?, typeEntry?, has, hr]
  | .unknown text, _ => by
    rw [toJson, ofJson?]
    rfl

/-- So are several types. -/
theorem itemsOfJson?_toJsonAll : ∀ {ts : List TypeExpr}, areNormal ts = true →
    itemsOfJson? (toJsonAll ts) = some ts
  | [], _ => by rw [toJsonAll, itemsOfJson?]
  | t :: ts, h => by
    simp only [areNormal, Bool.and_eq_true] at h
    rw [toJsonAll, itemsOfJson?, ofJson?_toJson h.1, itemsOfJson?_toJsonAll h.2]
    rfl

/-- So are the elements of a tuple. -/
theorem elementItemsOfJson?_elementsToJson : ∀ {es : List (Labelled TypeExpr)},
    elementsAreNormal es = true → elementItemsOfJson? (elementsToJson es) = some es
  | [], _ => by rw [elementsToJson, elementItemsOfJson?]
  | ⟨label, t⟩ :: es, h => by
    simp only [elementsAreNormal, Bool.and_eq_true] at h
    have ht := ofJson?_toJson h.1
    have hes := elementItemsOfJson?_elementsToJson h.2
    rw [elementsToJson, elementItemsOfJson?]
    simp [Json.record?, Fields.unrepeated, Fields.optional?, Fields.get?, typeField?, typeEntry?, ht, hes,
      Json.nullable?_optionJson]

end

theorem toJson_ne_null (t : TypeExpr) : t.toJson ≠ .null := by
  cases t <;> simp [toJson]

theorem isValid_genericEntries {items : List Json} (h : Json.areValid items = true) :
    Json.entriesAreValid (genericEntries items) = true := by
  unfold genericEntries
  split
  · rfl
  · simp [Json.entriesAreValid, Json.isValid, h]

mutual

/-- **What is written for a type denotes something** in every part. -/
theorem isValid_toJson : ∀ t : TypeExpr, t.toJson.isValid = true
  | .simple n gs => by
    simp [toJson, Json.isValid, Json.entriesAreValid, isValid_genericEntries (areValid_toJsonAll gs)]
  | .nested n p gs => by
    simp [toJson, Json.isValid, Json.entriesAreValid, isValid_toJson p,
      isValid_genericEntries (areValid_toJsonAll gs)]
  | .composition ms => by
    simp [toJson, Json.isValid, Json.entriesAreValid, areValid_toJsonAll ms]
  | .optional t | .forced t | .someOf t | .anyOf t | .array t | .metatype t _ => by
    simp [toJson, Json.isValid, Json.entriesAreValid, isValid_toJson t]
  | .attributed t specifier attributes => by
    have hattributes : Json.areValid (attributes.map .string) = true :=
      Json.areValid_iff.2 (List.forall_mem_map.2 fun _ _ => rfl)
    simp [toJson, Json.isValid, Json.entriesAreValid, isValid_toJson t, Json.isValid_optionJson,
      hattributes]
  | .dictionary k v => by
    simp [toJson, Json.isValid, Json.entriesAreValid, isValid_toJson k, isValid_toJson v]
  | .tuple es => by
    simp [toJson, Json.isValid, Json.entriesAreValid, areValid_elementsToJson es]
  | .closure as _ _ r => by
    simp [toJson, Json.isValid, Json.entriesAreValid, areValid_toJsonAll as, isValid_toJson r]
  | .unknown text => by
    simp [toJson, Json.isValid, Json.entriesAreValid]

theorem areValid_toJsonAll : ∀ ts : List TypeExpr, Json.areValid (toJsonAll ts) = true
  | [] => rfl
  | t :: ts => by simp [toJsonAll, Json.areValid, isValid_toJson t, areValid_toJsonAll ts]

theorem areValid_elementsToJson :
    ∀ es : List (Labelled TypeExpr), Json.areValid (elementsToJson es) = true
  | [] => rfl
  | ⟨label, t⟩ :: es => by
    simp [elementsToJson, Json.areValid, Json.isValid, Json.entriesAreValid, isValid_toJson t,
      Json.isValid_optionJson, areValid_elementsToJson es]

end

/-! ## What is read -/

mutual

/-- **What is read is in normal form.** -/
theorem isNormal_of_ofJson? : ∀ {json : Json} {t : TypeExpr}, ofJson? json = some t →
    t.isNormal = true
  | .object [(kind, body)], t, h => by
    rw [ofJson?.eq_def] at h
    simp only at h
    split at h
    · simp only [bind, Option.bind_eq_some_iff] at h
      obtain ⟨fields, -, name, -, generics, hgenerics, h⟩ := h
      cases h
      exact areNormal_of_listField? hgenerics
    · simp only [bind, Option.bind_eq_some_iff] at h
      obtain ⟨fields, -, name, -, parent, hparent, generics, hgenerics, h⟩ := h
      cases h
      simp only [isNormal, isNormal_of_typeField? hparent, areNormal_of_listField? hgenerics,
        Bool.and_self]
    · obtain ⟨ts, hts, rfl⟩ := Option.map_eq_some_iff.1 h
      -- the one kind whose parts are changed when they are read
      exact isNormal_compose (areNormal_iff.1 (areNormal_of_listOfJson? hts))
    · obtain ⟨inner, hinner, rfl⟩ := Option.map_eq_some_iff.1 h
      exact isNormal_of_ofJson? (t := inner) hinner
    · obtain ⟨inner, hinner, rfl⟩ := Option.map_eq_some_iff.1 h
      exact isNormal_of_ofJson? (t := inner) hinner
    · obtain ⟨inner, hinner, rfl⟩ := Option.map_eq_some_iff.1 h
      exact isNormal_of_ofJson? (t := inner) hinner
    · obtain ⟨inner, hinner, rfl⟩ := Option.map_eq_some_iff.1 h
      exact isNormal_of_ofJson? (t := inner) hinner
    · simp only [bind, Option.bind_eq_some_iff] at h
      obtain ⟨fields, -, base, hbase, isType, -, h⟩ := h
      cases h
      exact isNormal_of_typeField? (t := base) hbase
    · simp only [bind, Option.bind_eq_some_iff] at h
      obtain ⟨fields, -, base, hbase, specifier, -, attributes, -, h⟩ := h
      cases h
      exact isNormal_of_typeField? (t := base) hbase
    · obtain ⟨inner, hinner, rfl⟩ := Option.map_eq_some_iff.1 h
      exact isNormal_of_ofJson? (t := inner) hinner
    · simp only [bind, Option.bind_eq_some_iff] at h
      obtain ⟨fields, -, key, hkey, value, hvalue, h⟩ := h
      cases h
      simp only [isNormal, isNormal_of_typeField? hkey, isNormal_of_typeField? hvalue, Bool.and_self]
    · obtain ⟨elements, helements, rfl⟩ := Option.map_eq_some_iff.1 h
      exact elementsAreNormal_of_elementsOfJson? helements
    · simp only [bind, Option.bind_eq_some_iff] at h
      obtain ⟨fields, -, arguments, harguments, as, rfl, isAsync, -, canThrow, -, result, hresult, h⟩ :=
        h
      cases h
      simp only [isNormal, isNormal_of_typeField? hresult, Bool.and_true]
      exact areNormal_of_listField? harguments
    · obtain ⟨text, -, rfl⟩ := Option.map_eq_some_iff.1 h
      rfl
    · cases h
  | .object [], t, h | .object (_ :: _ :: _), t, h | .null, t, h | .bool _, t, h | .integer _, t, h
  | .decimal _, t, h | .string _, t, h | .array _, t, h | .invalid, t, h => by
    rw [ofJson?.eq_def] at h
    cases h

theorem isNormal_of_typeField? {keys : List String} {key : String} :
    ∀ {json : Json} {t : TypeExpr}, typeField? keys key json = some t → t.isNormal = true
  | .object fields, t, h => by
    rw [typeField?] at h
    exact isNormal_of_typeEntry? h
  | .array items, t, h => by
    rw [typeField?] at h
    exact isNormal_of_typeItem? h
  | .null, t, h | .bool _, t, h | .integer _, t, h | .decimal _, t, h | .string _, t, h
  | .invalid, t, h => by
    rw [typeField?.eq_def] at h
    cases h

theorem isNormal_of_typeEntry? {key : String} :
    ∀ {fields : List (String × Json)} {t : TypeExpr}, typeEntry? key fields = some t →
      t.isNormal = true
  | [], t, h => by
    unfold typeEntry? at h
    cases h
  | (k, value) :: fields, t, h => by
    unfold typeEntry? at h
    split at h
    · exact isNormal_of_ofJson? h
    · exact isNormal_of_typeEntry? h

theorem isNormal_of_typeItem? {key : String} :
    ∀ {items : List Json} {keys : List String} {t : TypeExpr}, typeItem? keys key items = some t →
      t.isNormal = true
  | [], keys, t, h => by
    rw [typeItem?] at h
    cases h
  | item :: items, keys, t, h => by
    rw [typeItem?] at h
    split at h
    · exact isNormal_of_ofJson? h
    · exact isNormal_of_typeItem? h

theorem areNormal_of_listField? {keys : List String} {key : String} :
    ∀ {json : Json} {ts : Option (List TypeExpr)}, listField? keys key json = some ts →
      areNormal (ts.getD []) = true
  | .object fields, ts, h => by
    rw [listField?] at h
    exact areNormal_of_listEntry? h
  | .array items, ts, h => by
    rw [listField?] at h
    exact areNormal_of_listItem? h
  | .null, ts, h | .bool _, ts, h | .integer _, ts, h | .decimal _, ts, h | .string _, ts, h
  | .invalid, ts, h => by
    rw [listField?.eq_def] at h
    cases h

theorem areNormal_of_listEntry? {key : String} :
    ∀ {fields : List (String × Json)} {ts : Option (List TypeExpr)},
      listEntry? key fields = some ts → areNormal (ts.getD []) = true
  | [], ts, h => by
    unfold listEntry? at h
    cases h
    rfl
  | (k, value) :: fields, ts, h => by
    unfold listEntry? at h
    split at h
    · obtain ⟨found, hfound, rfl⟩ := Option.map_eq_some_iff.1 h
      exact areNormal_of_listOfJson? hfound
    · exact areNormal_of_listEntry? h

theorem areNormal_of_listItem? {key : String} :
    ∀ {items : List Json} {keys : List String} {ts : Option (List TypeExpr)},
      listItem? keys key items = some ts → areNormal (ts.getD []) = true
  | [], keys, ts, h => by
    rw [listItem?] at h
    cases h
    rfl
  | item :: items, keys, ts, h => by
    rw [listItem?] at h
    split at h
    · obtain ⟨found, hfound, rfl⟩ := Option.map_eq_some_iff.1 h
      exact areNormal_of_listOfJson? hfound
    · exact areNormal_of_listItem? h

theorem areNormal_of_listOfJson? : ∀ {json : Json} {ts : List TypeExpr},
    listOfJson? json = some ts → areNormal ts = true
  | .array items, ts, h => by
    rw [listOfJson?] at h
    exact areNormal_of_itemsOfJson? h
  | .null, ts, h | .bool _, ts, h | .integer _, ts, h | .decimal _, ts, h | .string _, ts, h
  | .object _, ts, h | .invalid, ts, h => by
    rw [listOfJson?.eq_def] at h
    cases h

theorem areNormal_of_itemsOfJson? : ∀ {items : List Json} {ts : List TypeExpr},
    itemsOfJson? items = some ts → areNormal ts = true
  | [], ts, h => by
    rw [itemsOfJson?] at h
    cases h
    rfl
  | item :: items, ts, h => by
    rw [itemsOfJson?] at h
    simp only [bind, Option.bind_eq_some_iff] at h
    obtain ⟨t, ht, rest, hrest, h⟩ := h
    cases h
    simp only [areNormal, isNormal_of_ofJson? ht, areNormal_of_itemsOfJson? hrest, Bool.and_self]

theorem elementsAreNormal_of_elementsOfJson? : ∀ {json : Json} {es : List (Labelled TypeExpr)},
    elementsOfJson? json = some es → elementsAreNormal es = true
  | .array items, es, h => by
    rw [elementsOfJson?] at h
    exact elementsAreNormal_of_elementItemsOfJson? h
  | .null, es, h | .bool _, es, h | .integer _, es, h | .decimal _, es, h | .string _, es, h
  | .object _, es, h | .invalid, es, h => by
    rw [elementsOfJson?.eq_def] at h
    cases h

theorem elementsAreNormal_of_elementItemsOfJson? :
    ∀ {items : List Json} {es : List (Labelled TypeExpr)},
      elementItemsOfJson? items = some es → elementsAreNormal es = true
  | [], es, h => by
    rw [elementItemsOfJson?] at h
    cases h
    rfl
  | item :: items, es, h => by
    rw [elementItemsOfJson?] at h
    simp only [bind, Option.bind_eq_some_iff] at h
    obtain ⟨fields, -, label, -, t, ht, rest, hrest, h⟩ := h
    cases h
    simp only [elementsAreNormal, isNormal_of_typeField? ht,
      elementsAreNormal_of_elementItemsOfJson? hrest, Bool.and_self]

end

end Wiring.TypeExpr
