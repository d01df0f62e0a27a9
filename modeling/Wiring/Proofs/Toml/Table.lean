import Mathlib.Data.List.Nodup
import Wiring.Toml.File

/-!
# Names in settings files

A key may be given a value once only, so that the entries of a settings file have different names.

* `Toml.lines?_of_blank`, `Toml.lines?_of_line`: the lines of a text, one by one.
* `Toml.names_update`: what a change does to the names of a table.
* `Toml.nodup_of_parse?`: the names of a file's entries.
-/

namespace Wiring.Toml

variable {name : String} {path : List String} {items changed : Items} {s cs r rest : List Char}
  {first : Line}

/-! ## Lines -/

/-- A text of empty lines and comments has no lines that say something. -/
theorem lines?_of_blank (hskip : skipLines s = []) : lines? s = some [] := by
  rw [lines?]
  simp [hskip]

/-- The lines of a text are the first one and those of the text after it. -/
theorem lines?_of_line (hskip : skipLines s = cs) {h : r.length < cs.length}
    (hline : line cs = .done first r h) (hend : lineEnd r = some rest) :
    lines? s = (lines? rest).map (first :: ·) := by
  subst hskip
  have hne : ¬ (skipLines s).isEmpty := by
    intro hempty
    rw [List.isEmpty_iff.1 hempty] at h
    cases h
  rw [lines?, if_neg hne]
  simp only [hline]
  split
  · rename_i hnone
    rw [hend] at hnone
    cases hnone
  · rename_i hsome
    rw [hend] at hsome
    cases hsome
    rfl

/-! ## Names -/

/-- A change at a name keeps the names, or puts the name after them if it is new. -/
theorem names_update {change : Option Item → Option Item} (h : update name change items = some changed) :
    changed.map (·.1) = items.map (·.1) ∨
      name ∉ items.map (·.1) ∧ changed.map (·.1) = items.map (·.1) ++ [name] := by
  induction items generalizing changed with
  | nil =>
    obtain ⟨item, -, rfl⟩ := Option.map_eq_some_iff.1 h
    exact .inr ⟨List.not_mem_nil, rfl⟩
  | cons entry items ih =>
    obtain ⟨other, item⟩ := entry
    rw [update] at h
    split at h
    · rename_i hname
      obtain ⟨item', -, rfl⟩ := Option.map_eq_some_iff.1 h
      exact .inl (by rw [List.map_cons, List.map_cons, hname])
    · rename_i hname
      obtain ⟨rest, hrest, rfl⟩ := Option.map_eq_some_iff.1 h
      rcases ih hrest with hsame | ⟨hnew, hadded⟩
      · exact .inl (by rw [List.map_cons, List.map_cons, hsame])
      · refine .inr ⟨?_, by rw [List.map_cons, List.map_cons, hadded, List.cons_append]⟩
        rw [List.map_cons, List.mem_cons, not_or]
        exact ⟨Ne.symm hname, hnew⟩

theorem nodup_update {change : Option Item → Option Item} (h : update name change items = some changed)
    (hitems : (items.map (·.1)).Nodup) : (changed.map (·.1)).Nodup := by
  rcases names_update h with hsame | ⟨hnew, hadded⟩
  · rw [hsame]
    exact hitems
  · rw [hadded]
    exact List.nodup_append.2 ⟨hitems, List.nodup_singleton name, by
      rintro a ha b hb rfl
      exact hnew (List.mem_singleton.1 hb ▸ ha)⟩

/-- A change in a table below changes no name here. -/
theorem nodup_inTable {change : Items → Option Items}
    (hchange : ∀ items changed, change items = some changed → (items.map (·.1)).Nodup →
      (changed.map (·.1)).Nodup)
    (h : inTable change path items = some changed) (hitems : (items.map (·.1)).Nodup) :
    (changed.map (·.1)).Nodup := by
  cases path with
  | nil => exact hchange items changed h hitems
  | cons name path => exact nodup_update h hitems

theorem nodup_assign {json : Json} (h : assign json name path items = some changed)
    (hitems : (items.map (·.1)).Nodup) : (changed.map (·.1)).Nodup := by
  cases path <;> exact nodup_update h hitems

theorem nodup_addLines {lines : List Line} (h : addLines path items lines = some changed)
    (hitems : (items.map (·.1)).Nodup) : (changed.map (·.1)).Nodup := by
  induction lines generalizing path items with
  | nil =>
    cases h
    exact hitems
  | cons line lines ih =>
    cases line with
    | header key =>
      obtain ⟨opened, hopened, h⟩ := Option.bind_eq_some_iff.1 h
      exact ih h (nodup_inTable (fun _ _ hupdate => nodup_update hupdate) hopened hitems)
    | element key =>
      obtain ⟨added, hadded, h⟩ := Option.bind_eq_some_iff.1 h
      exact ih h (nodup_inTable (fun _ _ hupdate => nodup_update hupdate) hadded hitems)
    | definition key json =>
      obtain ⟨defined, hdefined, h⟩ := Option.bind_eq_some_iff.1 h
      exact ih h (nodup_inTable (fun _ _ hassign => nodup_assign hassign) hdefined hitems)

theorem names_itemsToJson (items : Items) : (itemsToJson items).map (·.1) = items.map (·.1) := by
  induction items with
  | nil => rfl
  | cons entry items ih => rw [itemsToJson, List.map_cons, List.map_cons, ih]

/-- **A settings file gives a value to each name once.** -/
theorem nodup_of_parse? {text : String} {fields : Json.Fields} (h : parse? text = some fields) :
    (fields.map (·.1)).Nodup := by
  obtain ⟨items, hitems, rfl⟩ := Option.map_eq_some_iff.1 h
  obtain ⟨lines, -, hlines⟩ := Option.bind_eq_some_iff.1 hitems
  rw [names_itemsToJson]
  exact nodup_addLines hlines List.nodup_nil

end Wiring.Toml
