import Wiring.Proofs.Text.Quoted
import Wiring.Proofs.TypeExpr.Spelling
import Wiring.TypeExpr.Order

/-!
# A type can be read off its outline

Two types can have one source text, and then their outlines decide which of them comes first. That
makes an order only if no two types have one outline. Every part of an outline ends by itself, and the
name that it begins with says which parts follow.

* `bracketed_append_inj`: parts in brackets end by themselves if each of them does.
* `isDelimited_outline`: outlines do.
* `outline_injective`: no two types have one outline.
-/

namespace Wiring.TypeExpr

open Text

variable {α : Type} {text : α → String}

/-! ## Parts of an outline -/

/-- The text begins with a character that no bracket is closed with. -/
def OpensPart (text : α → String) (a : α) : Prop :=
  ∃ c cs, (text a).toList = c :: cs ∧ c ≠ ']'

/-- Parts after a comma, up to the bracket that closes them. -/
theorem furtherParts_append_inj {as : List α} (has : ∀ a ∈ as, IsDelimited text a) :
    ∀ {bs : List α} {r s : List Char},
      as.flatMap (fun a => ", ".toList ++ (text a).toList) ++ ("]".toList ++ r) =
        bs.flatMap (fun b => ", ".toList ++ (text b).toList) ++ ("]".toList ++ s) →
      as = bs ∧ r = s := by
  induction as with
  | nil =>
    intro bs r s h
    cases bs with
    | nil => exact ⟨rfl, List.append_cancel_left h⟩
    | cons b bs => simp at h
  | cons a as ih =>
    intro bs r s h
    cases bs with
    | nil => simp at h
    | cons b bs =>
      simp only [List.flatMap_cons, List.append_assoc, List.append_cancel_left_eq] at h
      obtain ⟨rfl, hfurther⟩ := has a List.mem_cons_self b _ _ h
      obtain ⟨rfl, hrest⟩ := ih (fun x hx => has x (List.mem_cons_of_mem _ hx)) hfurther
      exact ⟨rfl, hrest⟩

/-- **Parts in brackets end by themselves** if each of them does. -/
theorem isDelimited_bracketed {as : List α} (has : ∀ a ∈ as, IsDelimited text a)
    (hopens : ∀ a, OpensPart text a) : IsDelimited (fun as => bracketed (as.map text)) as := by
  intro bs r s h
  have hparts : ∀ (xs : List α) (t : List Char),
      (bracketed (xs.map text)).toList ++ t =
        "[".toList ++ (", ".toList.intercalate (xs.map fun a => (text a).toList) ++
          ("]".toList ++ t)) := by
    intro xs t
    simp [bracketed, String.toList_intercalate, Function.comp_def]
  simp only [hparts, List.append_cancel_left_eq] at h
  cases as with
  | nil =>
    cases bs with
    | nil => exact ⟨rfl, List.append_cancel_left h⟩
    | cons b bs =>
      obtain ⟨c, cs, hb, hc⟩ := hopens b
      rw [List.map_cons, intercalate_cons, hb] at h
      exact absurd (List.cons.inj h).1.symm hc
  | cons a as =>
    cases bs with
    | nil =>
      obtain ⟨c, cs, ha, hc⟩ := hopens a
      rw [List.map_cons, intercalate_cons, ha] at h
      exact absurd (List.cons.inj h).1 hc
    | cons b bs =>
      simp only [List.map_cons, intercalate_cons, List.flatMap_map, List.append_assoc] at h
      obtain ⟨rfl, hfurther⟩ := has a List.mem_cons_self b _ _ h
      obtain ⟨rfl, hrest⟩ :=
        furtherParts_append_inj (fun x hx => has x (List.mem_cons_of_mem _ hx)) hfurther
      exact ⟨rfl, hrest⟩

/-- A part in parentheses ends by itself if the part does. -/
theorem isDelimited_named {a : α} (ha : IsDelimited text a) (name : String) :
    IsDelimited (fun a => named name (text a)) a := by
  intro b r s h
  simp only [named, String.toList_append, List.append_assoc, List.append_cancel_left_eq] at h
  obtain ⟨rfl, hend⟩ := ha b _ _ h
  exact ⟨rfl, List.append_cancel_left hend⟩

/-- **The first part of a record** ends by itself, and the other parts make a record again. -/
theorem record_append_inj {name key : String} {a b : α} {parts parts' : List (String × String)}
    {r s : List Char} (ha : IsDelimited text a)
    (h : (record name ((key, text a) :: parts)).toList ++ r =
      (record name ((key, text b) :: parts')).toList ++ s) :
    a = b ∧ (record name parts).toList ++ r = (record name parts').toList ++ s := by
  cases parts with
  | nil =>
    cases parts' with
    | nil =>
      simp only [record, List.map_cons, List.map_nil, String.intercalate_singleton,
        String.toList_append, List.append_assoc, List.append_cancel_left_eq] at h
      obtain ⟨rfl, hend⟩ := ha b _ _ h
      exact ⟨rfl, by rw [List.append_cancel_left hend]⟩
    | cons part parts' =>
      simp only [record, List.map_cons, List.map_nil, String.intercalate_singleton,
        String.intercalate_cons_cons, String.toList_append, List.append_assoc,
        List.append_cancel_left_eq] at h
      have hend := (ha b _ _ h).2
      simp at hend
  | cons part parts =>
    cases parts' with
    | nil =>
      simp only [record, List.map_cons, List.map_nil, String.intercalate_singleton,
        String.intercalate_cons_cons, String.toList_append, List.append_assoc,
        List.append_cancel_left_eq] at h
      have hend := (ha b _ _ h).2
      simp at hend
    | cons part' parts' =>
      simp only [record, List.map_cons, String.intercalate_cons_cons, String.toList_append,
        List.append_assoc, List.append_cancel_left_eq] at h
      obtain ⟨rfl, hrest⟩ := ha b _ _ h
      refine ⟨rfl, ?_⟩
      simp only [record, List.map_cons, String.toList_append, List.append_assoc,
        List.append_cancel_left hrest]

theorem isDelimited_outlineOption (label : Option String) : IsDelimited outlineOption label := by
  intro other r s h
  cases label with
  | none =>
    cases other with
    | none => exact ⟨rfl, List.append_cancel_left h⟩
    | some name => simp [outlineOption, named] at h
  | some name =>
    cases other with
    | none => simp [outlineOption, named] at h
    | some name' =>
      obtain ⟨rfl, hrest⟩ := isDelimited_named (isDelimited_quoted name) "Some" name' r s h
      exact ⟨rfl, hrest⟩

theorem isDelimited_toString (b : Bool) : IsDelimited (toString : Bool → String) b := by
  have hne : ∀ r s, "true".toList ++ r ≠ "false".toList ++ s := by simp
  intro b' r s h
  cases b <;> cases b'
  · exact ⟨rfl, List.append_cancel_left h⟩
  · exact absurd h.symm (hne s r)
  · exact absurd h (hne r s)
  · exact ⟨rfl, List.append_cancel_left h⟩

/-! ## Names of the kinds of types -/

/-- The name that the outline of a type begins with. -/
def outlineName : TypeExpr → String
  | .simple _ _ => "Simple"
  | .nested _ _ _ => "Nested"
  | .composition _ => "Composition"
  | .optional _ => "Optional"
  | .forced _ => "ImplicitlyUnwrappedOptional"
  | .someOf _ => "Opaque"
  | .anyOf _ => "Existential"
  | .metatype _ _ => "Metatype"
  | .attributed _ _ _ => "Attributed"
  | .array _ => "Array"
  | .dictionary _ _ => "Dictionary"
  | .tuple _ => "Tuple"
  | .closure _ _ _ _ => "Closure"
  | .unknown _ => "Unknown"

theorem toList_named (name part : String) :
    (named name part).toList = name.toList ++ '(' :: (part.toList ++ [')']) := by
  simp [named]

theorem exists_toList_record (name : String) (parts : List (String × String)) :
    ∃ rest, (record name parts).toList = name.toList ++ ' ' :: rest := by
  unfold record
  simp only [String.toList_append, List.append_assoc]
  exact ⟨_, rfl⟩

/-- An outline goes on after its name with a sign that is no letter. -/
theorem exists_toList_outline (t : TypeExpr) :
    ∃ sign rest, (outline t).toList = (outlineName t).toList ++ sign :: rest ∧
      sign.isAlpha = false := by
  have hrecord : ∀ name parts, ∃ sign rest,
      (record name parts).toList = name.toList ++ sign :: rest ∧ sign.isAlpha = false := by
    intro name parts
    obtain ⟨rest, h⟩ := exists_toList_record name parts
    exact ⟨' ', rest, h, by decide⟩
  have hnamed : ∀ name part, ∃ sign rest,
      (named name part).toList = name.toList ++ sign :: rest ∧ sign.isAlpha = false := by
    intro name part
    exact ⟨'(', _, toList_named name part, by decide⟩
  cases t with
  | simple | nested | metatype | attributed | dictionary | closure => exact hrecord _ _
  | composition | optional | forced | someOf | anyOf | array | tuple | unknown => exact hnamed _ _

theorem isAlpha_of_mem_outlineName (t : TypeExpr) : ∀ c ∈ (outlineName t).toList, c.isAlpha = true := by
  cases t <;> simp [outlineName]

/-- **The outline says of which kind the type is.** -/
theorem outlineName_eq {t t' : TypeExpr} {r s : List Char}
    (h : (outline t).toList ++ r = (outline t').toList ++ s) : outlineName t = outlineName t' := by
  have htake : ∀ (u : TypeExpr) (rest : List Char),
      ((outline u).toList ++ rest).takeWhile Char.isAlpha = (outlineName u).toList := by
    intro u rest
    obtain ⟨sign, after, hu, hsign⟩ := exists_toList_outline u
    rw [hu, List.append_assoc,
      List.takeWhile_append_of_pos fun c hc => isAlpha_of_mem_outlineName u c hc]
    simp [hsign]
  exact String.toList_inj.1 ((htake t r).symm.trans ((congrArg _ h).trans (htake t' s)))

theorem opensPart_outline (t : TypeExpr) : OpensPart outline t := by
  obtain ⟨sign, rest, h, -⟩ := exists_toList_outline t
  cases hname : (outlineName t).toList with
  | nil =>
    have hne : (outlineName t).toList ≠ [] := by cases t <;> simp [outlineName]
    exact absurd hname hne
  | cons c cs =>
    refine ⟨c, cs ++ sign :: rest, by rw [h, hname, List.cons_append], ?_⟩
    have hc := isAlpha_of_mem_outlineName t c (by simp [hname])
    rintro rfl
    cases hc

theorem opensPart_quoted (name : String) : OpensPart quoted name :=
  ⟨'"', _, toList_quoted name, by decide⟩

/-! ## Elements of tuples -/

/-- The outline of one element of a tuple. -/
def outlineElement (e : Labelled TypeExpr) : String :=
  record "TupleElement" [("label", outlineOption e.label), ("type_description", outline e.value)]

theorem outlines_eq_map (ts : List TypeExpr) : outlines ts = ts.map outline := by
  induction ts with
  | nil => rfl
  | cons t ts ih => rw [outlines, ih, List.map_cons]

theorem outlineElements_eq_map (es : List (Labelled TypeExpr)) :
    outlineElements es = es.map outlineElement := by
  induction es with
  | nil => rfl
  | cons e es ih => rw [outlineElements, ih, List.map_cons, outlineElement]

theorem isDelimited_outlineElement {e : Labelled TypeExpr} (he : IsDelimited outline e.value) :
    IsDelimited outlineElement e := by
  intro e' r s h
  obtain ⟨label, value⟩ := e
  obtain ⟨label', value'⟩ := e'
  obtain ⟨rfl, hvalue⟩ := record_append_inj (isDelimited_outlineOption label) h
  obtain ⟨rfl, hend⟩ := record_append_inj he hvalue
  exact ⟨rfl, List.append_cancel_left hend⟩

theorem opensPart_outlineElement (e : Labelled TypeExpr) : OpensPart outlineElement e := by
  obtain ⟨rest, h⟩ := exists_toList_record "TupleElement"
    [("label", outlineOption e.label), ("type_description", outline e.value)]
  exact ⟨'T', _, h, by decide⟩

/-- The outlines of several types end at their bracket. -/
theorem isDelimited_outlines {ts : List TypeExpr} (hts : ∀ t ∈ ts, IsDelimited outline t) :
    IsDelimited (fun ts => bracketed (outlines ts)) ts := by
  intro ts' r s h
  simp only [outlines_eq_map] at h
  exact isDelimited_bracketed hts opensPart_outline ts' r s h

/-! ## Types -/

mutual

/-- **An outline ends by itself**, and the type can be read off it. -/
theorem isDelimited_outline (t : TypeExpr) : IsDelimited outline t := by
  intro t' r s h
  have hname := outlineName_eq h
  cases t with
  | simple n gs =>
    cases t' with
    | simple n' gs' =>
      simp only [outline] at h
      obtain ⟨rfl, hgenerics⟩ := record_append_inj (isDelimited_quoted n) h
      obtain ⟨rfl, hend⟩ :=
        record_append_inj (isDelimited_outlines (isDelimited_outline_all gs)) hgenerics
      exact ⟨rfl, List.append_cancel_left hend⟩
    | _ => simp [outlineName] at hname
  | nested n p gs =>
    cases t' with
    | nested n' p' gs' =>
      simp only [outline] at h
      obtain ⟨rfl, hparent⟩ := record_append_inj (isDelimited_quoted n) h
      obtain ⟨rfl, hgenerics⟩ := record_append_inj (isDelimited_outline p) hparent
      obtain ⟨rfl, hend⟩ :=
        record_append_inj (isDelimited_outlines (isDelimited_outline_all gs)) hgenerics
      exact ⟨rfl, List.append_cancel_left hend⟩
    | _ => simp [outlineName] at hname
  | composition ms =>
    cases t' with
    | composition ms' =>
      simp only [outline] at h
      have hmembers := isDelimited_named
        (isDelimited_outlines (isDelimited_outline_all ms)) "UnorderedTypes"
      obtain ⟨rfl, hrest⟩ := isDelimited_named hmembers "Composition" ms' r s h
      exact ⟨rfl, hrest⟩
    | _ => simp [outlineName] at hname
  | optional t =>
    cases t' with
    | optional t' =>
      simp only [outline] at h
      obtain ⟨rfl, hrest⟩ := isDelimited_named (isDelimited_outline t) "Optional" t' r s h
      exact ⟨rfl, hrest⟩
    | _ => simp [outlineName] at hname
  | forced t =>
    cases t' with
    | forced t' =>
      simp only [outline] at h
      obtain ⟨rfl, hrest⟩ := isDelimited_named (isDelimited_outline t) "ImplicitlyUnwrappedOptional" t' r s h
      exact ⟨rfl, hrest⟩
    | _ => simp [outlineName] at hname
  | someOf t =>
    cases t' with
    | someOf t' =>
      simp only [outline] at h
      obtain ⟨rfl, hrest⟩ := isDelimited_named (isDelimited_outline t) "Opaque" t' r s h
      exact ⟨rfl, hrest⟩
    | _ => simp [outlineName] at hname
  | anyOf t =>
    cases t' with
    | anyOf t' =>
      simp only [outline] at h
      obtain ⟨rfl, hrest⟩ := isDelimited_named (isDelimited_outline t) "Existential" t' r s h
      exact ⟨rfl, hrest⟩
    | _ => simp [outlineName] at hname
  | metatype t isType =>
    cases t' with
    | metatype t' isType' =>
      simp only [outline] at h
      obtain ⟨rfl, hkind⟩ := record_append_inj (isDelimited_outline t) h
      obtain ⟨rfl, hend⟩ := record_append_inj (isDelimited_toString isType) hkind
      exact ⟨rfl, List.append_cancel_left hend⟩
    | _ => simp [outlineName] at hname
  | attributed t specifier attributes =>
    cases t' with
    | attributed t' specifier' attributes' =>
      simp only [outline] at h
      obtain ⟨rfl, hspecifier⟩ := record_append_inj (isDelimited_outline t) h
      obtain ⟨rfl, hattributes⟩ :=
        record_append_inj (isDelimited_outlineOption specifier) hspecifier
      obtain ⟨rfl, hend⟩ := record_append_inj
        (isDelimited_bracketed (fun a _ => isDelimited_quoted a) opensPart_quoted) hattributes
      exact ⟨rfl, List.append_cancel_left hend⟩
    | _ => simp [outlineName] at hname
  | array t =>
    cases t' with
    | array t' =>
      simp only [outline] at h
      obtain ⟨rfl, hrest⟩ := isDelimited_named (isDelimited_outline t) "Array" t' r s h
      exact ⟨rfl, hrest⟩
    | _ => simp [outlineName] at hname
  | dictionary k v =>
    cases t' with
    | dictionary k' v' =>
      simp only [outline] at h
      obtain ⟨rfl, hvalue⟩ := record_append_inj (isDelimited_outline k) h
      obtain ⟨rfl, hend⟩ := record_append_inj (isDelimited_outline v) hvalue
      exact ⟨rfl, List.append_cancel_left hend⟩
    | _ => simp [outlineName] at hname
  | tuple es =>
    cases t' with
    | tuple es' =>
      simp only [outline, outlineElements_eq_map] at h
      have helements := isDelimited_bracketed
        (fun e he => isDelimited_outlineElement (isDelimited_outline_elements es e he))
        opensPart_outlineElement
      obtain ⟨rfl, hrest⟩ := isDelimited_named helements "Tuple" es' r s h
      exact ⟨rfl, hrest⟩
    | _ => simp [outlineName] at hname
  | closure as isAsync canThrow result =>
    cases t' with
    | closure as' isAsync' canThrow' result' =>
      simp only [outline] at h
      obtain ⟨rfl, hasync⟩ :=
        record_append_inj (isDelimited_outlines (isDelimited_outline_all as)) h
      obtain ⟨rfl, hthrow⟩ := record_append_inj (isDelimited_toString isAsync) hasync
      obtain ⟨rfl, hresult⟩ := record_append_inj (isDelimited_toString canThrow) hthrow
      obtain ⟨rfl, hend⟩ := record_append_inj (isDelimited_outline result) hresult
      exact ⟨rfl, List.append_cancel_left hend⟩
    | _ => simp [outlineName] at hname
  | unknown text =>
    cases t' with
    | unknown text' =>
      simp only [outline] at h
      obtain ⟨rfl, hrest⟩ := isDelimited_named (isDelimited_quoted text) "Unknown" text' r s h
      exact ⟨rfl, hrest⟩
    | _ => simp [outlineName] at hname

theorem isDelimited_outline_all : ∀ ts : List TypeExpr, ∀ t ∈ ts, IsDelimited outline t
  | [], _, ht => by cases ht
  | t :: ts, u, hu => by
    rcases List.mem_cons.1 hu with hu | hu
    · exact hu ▸ isDelimited_outline t
    · exact isDelimited_outline_all ts u hu

theorem isDelimited_outline_elements :
    ∀ es : List (Labelled TypeExpr), ∀ e ∈ es, IsDelimited outline e.value
  | [], _, he => by cases he
  | ⟨_, t⟩ :: es, e, he => by
    rcases List.mem_cons.1 he with he | he
    · exact he ▸ isDelimited_outline t
    · exact isDelimited_outline_elements es e he

end

/-- **No two types have one outline.** -/
theorem outline_injective : Function.Injective outline := by
  intro t t' h
  exact (isDelimited_outline t t' [] [] (by rw [h])).1

end Wiring.TypeExpr
