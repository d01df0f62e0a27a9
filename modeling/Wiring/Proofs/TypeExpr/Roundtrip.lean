import Wiring.Proofs.TypeExpr.Legible

/-!
# Reading is the inverse of writing

A canonical type is read back from its canonical text, and from every other text that differs from it in
white space only.

* `legible`: every canonical type is legible, by induction on the type; so it is read back.
* `TypeExpr.parse_spelling`: the whole text of a type, with white space at its ends.
* `TypeExpr.other_specifier_not_read_back`: other specifiers than those of the grammar are not.
-/

namespace Wiring

open Text

/-! ## By induction on the type -/

namespace TypeExpr

open Grammar

/-- A name that is no specifier begins nothing that could be taken for one. -/
theorem isSpecifierName_of_isCanonical {t : TypeExpr} {fits : String → Bool}
    (h : t.isCanonical fits = true) : t.isSpecifierName = false := by
  unfold isSpecifierName
  split
  · simp only [isCanonical, Bool.and_eq_true, decide_eq_true_eq] at h
    simp [h.1.2]
  · rfl

mutual

/-- **Every canonical type is legible** wherever it stands, in all texts that spell it. -/
theorem legible : ∀ t : TypeExpr, t.isNormal = true → t.isCanonical (· ∈ specifiers) = true →
    ∀ place, Legible false place t
  | .simple n gs, hnormal, hcanonical, place => by
    simp only [isCanonical, Bool.and_eq_true, decide_eq_true_eq] at hcanonical
    obtain ⟨⟨hn, hnot⟩, hgs⟩ := hcanonical
    exact .simple hn (fun hmem => absurd hmem hnot)
      fun t ht => (legible_all gs hnormal hgs t ht).1 .whole
  | .nested n p gs, hnormal, hcanonical, place => by
    simp only [isNormal, isCanonical, Bool.and_eq_true, decide_eq_true_eq] at hnormal hcanonical
    obtain ⟨⟨⟨⟨⟨hn, htype⟩, hprotocol⟩, hnominal⟩, hp⟩, hgs⟩ := hcanonical
    exact .nested hn htype hprotocol hnominal (legible p hnormal.1 hp .operand)
      fun t ht => (legible_all gs hnormal.2 hgs t ht).1 .whole
  | .composition ms, hnormal, hcanonical, place => by
    have hmembers : areNormal ms = true := by
      simp only [isNormal, Bool.and_eq_true] at hnormal
      exact hnormal.2
    simp only [isCanonical, Bool.and_eq_true, decide_eq_true_eq] at hcanonical
    have hall := legible_all ms hmembers hcanonical.2
    exact .composition (compose_of_isNormal hnormal) hcanonical.1
      (.inr fun m hm => (hall m (List.mem_of_mem_head? hm)).2) fun m hm => (hall m hm).1 .operand
  | .optional t, hnormal, hcanonical, _ => .optional (legible t hnormal hcanonical .operand)
  | .forced t, hnormal, hcanonical, _ => .forced (legible t hnormal hcanonical .operand)
  | .metatype t _, hnormal, hcanonical, _ => .metatype (legible t hnormal hcanonical .operand)
  | .array t, hnormal, hcanonical, _ => .array (legible t hnormal hcanonical .whole)
  | .someOf t, hnormal, hcanonical, _ => by
    simp only [isCanonical, Bool.and_eq_true, Bool.not_eq_true'] at hcanonical
    exact .someOf hcanonical.1 (legible t hnormal hcanonical.2 .constraint)
  | .anyOf t, hnormal, hcanonical, _ => by
    simp only [isCanonical, Bool.and_eq_true, Bool.not_eq_true'] at hcanonical
    exact .anyOf hcanonical.1 (legible t hnormal hcanonical.2 .constraint)
  | .attributed t specifier attributes, hnormal, hcanonical, _ => by
    simp only [isCanonical, Bool.and_eq_true, Bool.not_eq_true', Bool.or_eq_true, List.all_eq_true,
      Option.all_eq_true, decide_eq_true_eq] at hcanonical
    obtain ⟨⟨⟨⟨hsome, hspecifier⟩, hattributes⟩, hplain⟩, ht⟩ := hcanonical
    have hdecorated : attributes ≠ [] ∨ specifier ≠ none := by
      rcases hsome with hattribute | hspecifier
      · exact .inl (by simpa using hattribute)
      · exact .inr (by rintro rfl; cases hspecifier)
    exact .attributed hdecorated hspecifier hattributes hplain (legible t hnormal ht _)
  | .dictionary k v, hnormal, hcanonical, _ => by
    simp only [isNormal, isCanonical, Bool.and_eq_true] at hnormal hcanonical
    exact .dictionary (legible k hnormal.1 hcanonical.1 .whole)
      (legible v hnormal.2 hcanonical.2 .whole)
  | .tuple es, hnormal, hcanonical, _ => by
    simp only [isCanonical, Bool.and_eq_true, Bool.not_eq_true'] at hcanonical
    have hall := legible_elements es hnormal hcanonical.2
    exact .tuple hcanonical.1 (fun e he => (hall e he).2) fun e he => (hall e he).1
  | .closure as isAsync canThrow t, hnormal, hcanonical, _ => by
    simp only [isNormal, isCanonical, Bool.and_eq_true] at hnormal hcanonical
    exact .closure (fun a ha => (legible_all as hnormal.1 hcanonical.1 a ha).1 .whole)
      (legible t hnormal.2 hcanonical.2 .whole)
  | .unknown _, _, hcanonical, _ => nomatch hcanonical

theorem legible_all : ∀ ts : List TypeExpr, areNormal ts = true →
    areCanonical (· ∈ specifiers) ts = true →
      ∀ t ∈ ts, (∀ place, Legible false place t) ∧ t.isSpecifierName = false
  | [], _, _ => List.forall_mem_nil _
  | t :: ts, hnormal, hcanonical => by
    simp only [areNormal, areCanonical, Bool.and_eq_true] at hnormal hcanonical
    rw [List.forall_mem_cons]
    exact ⟨⟨legible t hnormal.1 hcanonical.1, isSpecifierName_of_isCanonical hcanonical.1⟩,
      legible_all ts hnormal.2 hcanonical.2⟩

theorem legible_elements : ∀ es : List (Labelled TypeExpr), elementsAreNormal es = true →
    elementsAreCanonical (· ∈ specifiers) es = true →
      ∀ e ∈ es, Legible false .whole e.value ∧ ∀ w ∈ e.label, isIdentifier w = true
  | [], _, _ => List.forall_mem_nil _
  | ⟨label, t⟩ :: es, hnormal, hcanonical => by
    simp only [elementsAreNormal, elementsAreCanonical, Bool.and_eq_true, Option.all_eq_true]
      at hnormal hcanonical
    rw [List.forall_mem_cons]
    exact ⟨⟨legible t hnormal.1 hcanonical.1.2 .whole, hcanonical.1.1⟩,
      legible_elements es hnormal.2 hcanonical.2⟩

end

/-- **Every canonical type is read back** in each place where it may stand. -/
theorem readable (t : TypeExpr) (hnormal : t.isNormal = true)
    (hcanonical : t.isCanonical (· ∈ specifiers) = true) : Readable false t :=
  (legible t hnormal hcanonical .whole).readsAt.readable nofun

end TypeExpr

/-! ## The whole text -/

namespace TypeExpr

open Grammar

variable {t : TypeExpr} {lead text trail : String}

/-- A text in which a type and nothing else is read. -/
theorem parse_reads {rest : List Char} (hne : trimChars text.toList ≠ [])
    (h : (typeExpr (skipGaps text.toList)).Reads t rest) (hrest : skipGaps rest = []) :
    parse text = .ok t := by
  have htrim : (trimChars text.toList).isEmpty = false := List.isEmpty_eq_false_iff.2 hne
  obtain ⟨_, h⟩ := h
  simp only [parse, htrim, h, hrest]
  rfl

/-- A type that is read as a whole is read from its text with white space at the ends. -/
theorem parse_of_isWhole {narrow : Bool} (h : IsWhole narrow t) (hlead : AreGaps lead.toList)
    (htrail : AreGaps trail.toList) (hclose : narrow = true → trail = "")
    (htext : SpellsIn narrow t.pieces text.toList) : parse (lead ++ text ++ trail) = .ok t := by
  have hbegins := h.begins htext
  have hchars : (lead ++ text ++ trail).toList = lead.toList ++ (text.toList ++ trail.toList) := by
    rw [String.toList_append, String.toList_append, List.append_assoc]
  have hskip : skipGaps (lead.toList ++ (text.toList ++ trail.toList)) =
      text.toList ++ trail.toList := by
    rw [skipGaps_append hlead, (hbegins.append _).skipGaps_eq]
  have hne : trimChars (lead ++ text ++ trail).toList ≠ [] := by
    obtain ⟨c, cs, hcs, hc⟩ := hbegins
    have hmem : c ∈ (lead ++ text ++ trail).toList := by simp [hchars, hcs]
    exact List.ne_nil_of_mem (mem_trimChars hmem hc)
  have hend : Ends narrow typeEnds trail.toList := by
    refine ⟨follows_of_areGaps htrail, ?_⟩
    intro hnarrow
    rw [hclose hnarrow]
    exact adjoins_nil
  have hreads : (typeExpr (skipGaps (lead ++ text ++ trail).toList)).Reads t trail.toList := by
    rw [hchars, hskip]
    exact h.reads htext hend
  exact parse_reads hne hreads (skipGaps_of_areGaps htrail)

/-- **A canonical type is read back from its canonical text**, and from every text with other white space
between its parts and at its ends. -/
theorem parse_spelling (hnormal : t.isNormal = true)
    (hcanonical : t.isCanonical (· ∈ specifiers) = true) :
    Spells t.pieces t.source.toList ∧
      ∀ lead text trail : String, AreGaps lead.toList → AreGaps trail.toList →
        Spells t.pieces text.toList → parse (lead ++ text ++ trail) = .ok t :=
  ⟨spells_source t, fun _ _ _ hlead htrail htext =>
    parse_of_isWhole (readable t hnormal hcanonical).whole hlead htrail nofun htext⟩

/-- A type with names that look like words of the grammar, and brackets of all kinds. -/
def loader : TypeExpr :=
  .closure
    [.attributed (.anyOf (.composition [.nested "Key" (.simple "Store" []) [], .simple "any" []]))
      (some "inout") ["escaping"],
      .tuple [⟨some "some", .metatype (.simple "async" []) true⟩,
        ⟨none, .dictionary (.simple "Key" []) (.forced (.simple "Set" [.array (.simple "Value" [])]))⟩]]
    true true (.optional (.someOf (.simple "some" [])))

/-- The type of a loader with white space in unusual places. -/
def loaderText : String :=
  "( @escaping\tinout  any\nStore.Key& any\r\n,(some :async.Type,[Key:Set<[ Value]>!]\n) )" ++
    "\nasync\tthrows->( some some)?"

/-- White space in unusual places makes no difference. -/
theorem loader_read_back :
    loader.isNormal = true ∧ loader.isCanonical (· ∈ specifiers) = true ∧ AreGaps "\r\n".toList ∧
      Spells loader.pieces loaderText.toList ∧ parse ("\r\n" ++ loaderText ++ "\r\n") = .ok loader := by
  have hsorted : sortedSet compare [.nested "Key" (.simple "Store" []) [], .simple "any" []] =
      [.nested "Key" (.simple "Store" []) [], .simple "any" []] :=
    sortedSet_eq_self (by decide +kernel) (by decide)
  have hnormal : loader.isNormal = true := by
    simp [loader, isNormal, areNormal, elementsAreNormal, isComposition, hsorted]
  have hcanonical : loader.isCanonical (· ∈ specifiers) = true := by decide
  have hgaps : AreGaps "\r\n".toList := by decide
  have hspells : Spells loader.pieces loaderText.toList := by decide +kernel
  exact ⟨hnormal, hcanonical, hgaps, hspells,
    (parse_spelling hnormal hcanonical).2 _ _ _ hgaps hgaps hspells⟩

/-! ## Other specifiers -/

/-- Where the type ends before the text does, the text is not read. -/
theorem parse_ne_ok {rest : List Char} (h : (typeExpr (skipGaps text.toList)).Reads t rest)
    (hrest : (skipGaps rest).isEmpty = false) (u : TypeExpr) : parse text ≠ .ok u := by
  obtain ⟨_, h⟩ := h
  unfold parse
  simp only
  split
  · exact nofun
  · rw [h]
    simp [hrest]

/-- A name is read as an operand up to white space, if no sign comes after that. -/
theorem suffixed_reads_name {n : String} {rest : List Char} (hn : isIdentifier n = true)
    (hend : EndsWord rest) (hgap : rest.head? ≠ some '<') (hmember : (memberName rest).Fails)
    (hsuffix : suffix rest = none) : (suffixed (n.toList ++ rest)).Reads (.simple n []) rest := by
  have hnominal := nominal_reads (identifier_reads hn hend) (optionalGenerics_nothing hgap)
    (furtherSegments_nothing hmember)
  exact suffixed_reads (primary_of_nominal hnominal) (suffixes_nothing hsuffix)

/-- A name is read as a type up to white space, if no sign comes after that. -/
theorem composition_reads_name {n : String} {rest : List Char} (hn : isIdentifier n = true)
    (hsome : n ≠ "some") (hany : n ≠ "any") (hend : EndsWord rest) (hgap : rest.head? ≠ some '<')
    (hmember : (memberName rest).Fails) (hsuffix : suffix rest = none)
    (hjoin : separator ['&'] rest = none) :
    (Grammar.composition (n.toList ++ rest)).Reads (.simple n []) rest := by
  have hname := suffixed_reads_name hn hend hgap hmember hsuffix
  have hfront := takeWhile_name (all_of_isIdentifier hn) hend
  have hnone : constraint (n.toList ++ rest) = none := by
    refine constraint_eq_none ?_ ?_
    · rw [hfront]
      exact fun h => hsome (String.toList_inj.1 h)
    · rw [hfront]
      exact fun h => hany (String.toList_inj.1 h)
  exact composition_reads (constrained_of_suffixed hnone hname) (furtherMembers_nothing hjoin)

/-- **A specifier of another kind is not read back**: after the attribute it is read as a name, and what
stands after it is left over. -/
theorem other_specifier_not_read_back :
    ¬ ∀ t : TypeExpr, t.isNormal = true → t.isCanonical (fun _ => true) = true →
      ∀ lead text trail : String, AreGaps lead.toList → AreGaps trail.toList →
        Spells t.pieces text.toList → parse (lead ++ text ++ trail) = .ok t := by
  intro h
  have hparse := h (.attributed (.simple "Int" []) (some "foo") ["a"]) (by decide) (by decide)
    "" "@a foo Int" "" (by decide) (by decide) (by decide)
  have hattributes : (attributes "@a foo Int".toList).Reads ["a"] "foo Int".toList :=
    attributes_cons (a := "a") (r := " foo Int".toList) (by decide)
      (endsWord_append (g := [' ']) (by decide) (by decide) _) (attributes_nothing (by decide))
  -- `foo` is read as the type, and `Int` is left over
  have hname : (Grammar.composition "foo Int".toList).Reads (.simple "foo" []) " Int".toList :=
    composition_reads_name (n := "foo") (by decide) (by decide) (by decide)
      (endsWord_append (g := [' ']) (by decide) (by decide) _) (by decide) (memberName_fails (by decide))
      (suffix_eq_none (by decide) (by decide) (by decide)) (separator_eq_none (by decide))
  have htype := typeExpr_reads hattributes (specifier_nothing (by decide)) hname
  have hskip : skipGaps ("" ++ "@a foo Int" ++ "").toList = "@a foo Int".toList := by decide
  rw [← hskip] at htype
  exact parse_ne_ok htype (by decide) _ hparse

end TypeExpr

end Wiring
