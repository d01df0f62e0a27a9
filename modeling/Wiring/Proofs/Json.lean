import Wiring.Component.Json

/-!
# Reading back parts of records

What is written for a text that may be absent, or for a list, is read back as it was, and values that are
written denote something. What is read comes out of the decoders of the parts, or is a default.

* `Json.list?_map`, `Json.nullable?_of_ne_null`: what is read back.
* `Json.forall_of_list?`, `Json.Fields.forall_of_optional?`, `Json.Fields.forall_of_nullable?`: what holds of
  what is read.
-/

namespace Wiring.Json

variable {α : Type} {encode : α → Json} {decode : Json → Option α}

/-- A list is read back if its items are. -/
theorem list?_map {as : List α} (h : ∀ a ∈ as, decode (encode a) = some a) :
    list? decode (.array (as.map encode)) = some as := by
  rw [list?]
  induction as with
  | nil => rfl
  | cons a as ih =>
    rw [List.map_cons, List.mapM_cons, h a List.mem_cons_self,
      ih fun b hb => h b (List.mem_cons_of_mem _ hb)]
    rfl

/-- A value that is there is read back if it is not written as `null`. -/
theorem nullable?_of_ne_null {json : Json} (h : json ≠ .null) :
    nullable? decode json = (decode json).map some := by
  cases json <;> first | rfl | exact absurd rfl h

theorem nullable?_optionJson (text : Option String) :
    nullable? string? (TypeExpr.optionJson text) = some text := by
  cases text <;> rfl

theorem areValid_iff {items : List Json} : areValid items = true ↔ ∀ item ∈ items, item.isValid = true := by
  induction items with
  | nil => simp [areValid]
  | cons item items ih => simp [areValid, ih]

theorem isValid_optionJson (text : Option String) : (TypeExpr.optionJson text).isValid = true := by
  cases text <;> rfl

/-! ## What is read -/

/-- The items of a list that is read are read from items of the array. -/
theorem forall_of_list? {json : Json} {as : List α} {P : α → Prop} (h : list? decode json = some as)
    (hdecode : ∀ item a, decode item = some a → P a) : ∀ a ∈ as, P a := by
  unfold list? at h
  split at h
  · rename_i items
    induction items generalizing as with
    | nil =>
      cases h
      simp
    | cons item items ih =>
      rw [List.mapM_cons] at h
      simp only [bind, Option.bind_eq_some_iff] at h
      obtain ⟨a, ha, rest, hrest, h⟩ := h
      cases h
      exact List.forall_mem_cons.2 ⟨hdecode item a ha, ih hrest⟩
  · cases h

theorem eq_none_or_of_nullable? {json : Json} {a : Option α} (h : nullable? decode json = some a) :
    a = none ∨ ∃ b, a = some b ∧ decode json = some b := by
  unfold nullable? at h
  split at h
  · exact .inl (Option.some.inj h).symm
  · obtain ⟨b, hb, rfl⟩ := Option.map_eq_some_iff.1 h
    exact .inr ⟨b, rfl, hb⟩

namespace Fields

variable {fields : Fields} {key : String} {a default : α}

theorem exists_of_required? (h : required? decode fields key = some a) :
    ∃ json, decode json = some a := by
  obtain ⟨json, -, hjson⟩ := Option.bind_eq_some_iff.1 h
  exact ⟨json, hjson⟩

theorem eq_default_or_of_optional? (h : optional? decode default fields key = some a) :
    a = default ∨ ∃ json, decode json = some a := by
  unfold optional? at h
  split at h
  · exact .inl (Option.some.inj h).symm
  · exact .inr ⟨_, h⟩

/-- So are the items of a list that may be left out. -/
theorem forall_of_optional? {as : List α} {P : α → Prop}
    (h : optional? (list? decode) [] fields key = some as)
    (hdecode : ∀ item a, decode item = some a → P a) : ∀ a ∈ as, P a := by
  rcases eq_default_or_of_optional? h with rfl | ⟨json, hjson⟩
  · simp
  · exact forall_of_list? hjson hdecode

/-- A value that may be left out or absent is read, if it is there. -/
theorem forall_of_nullable? {a : Option α} {P : α → Prop}
    (h : optional? (nullable? decode) none fields key = some a)
    (hdecode : ∀ json b, decode json = some b → P b) : ∀ b ∈ a, P b := by
  rcases eq_default_or_of_optional? h with rfl | ⟨json, hjson⟩
  · simp
  · rcases eq_none_or_of_nullable? hjson with rfl | ⟨b, rfl, hb⟩
    · simp
    · simpa using hdecode json b hb

end Fields

end Wiring.Json
