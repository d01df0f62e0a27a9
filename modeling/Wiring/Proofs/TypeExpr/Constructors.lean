import Wiring.Proofs.TypeExpr.Readable

/-!
# Types are read back one constructor at a time

If the parts of a type are read back, so is the type: one lemma for each constructor, from the names to
the decorations.

* `readable_simple`, `readable_nested`: dotted names with generic arguments.
* `readable_postfix`: what a postfix operator makes.
* `readable_array`, `readable_dictionary`, `readable_tuple`, `readable_closure`: brackets.
* `readable_someOf`, `readable_anyOf`, `readable_composition`, `readable_attributed`: what needs
  parentheses below another operator; `isBase_composition`: what a composition needs after `some`.
-/

namespace Wiring.TypeExpr.Grammar

open Text

variable {narrow : Bool} {s rest ends g : List Char} {t u k v : TypeExpr} {c : Char} {n w : String}
  {gs ms as : List TypeExpr}

/-! ## Names -/

theorem piecesAll_eq_map (ts : List TypeExpr) : piecesAll ts = ts.map pieces := by
  induction ts with
  | nil => rfl
  | cons t ts ih => rw [piecesAll, ih, List.map_cons]

/-- The items of a list of types. -/
theorem IsWhole.typeExpr_readsBack (h : IsWhole narrow t) (hends : ends ⊆ typeEnds) :
    ReadsBack narrow narrow typeExpr ends t.pieces t :=
  fun hs hrest => ⟨h.begins hs, h.reads hs (hrest.mono hends)⟩

/-- **Generic arguments are read back**, and a name before them ends there. -/
theorem generics_read (h : ∀ t ∈ gs, Readable narrow t) (hends : ends ⊆ typeEnds)
    (hs : SpellsIn narrow (genericPieces (piecesAll gs)) s) (hrest : Follows (operandEnds ends) rest) :
    (optionalGenerics (s ++ rest)).Reads gs rest ∧ Follows (nameEnds ends) (s ++ rest) ∧
      ((gs = [] → Adjoins rest) → Adjoins (s ++ rest)) := by
  cases gs with
  | nil =>
    obtain rfl := spellsIn_nil_iff.1 hs
    have hno : '<' ∉ operandEnds typeEnds := by decide
    have hhead := hrest.head_ne (fun hc => hno (operandEnds_mono hends hc)) (by decide)
    exact ⟨optionalGenerics_nothing hhead, hrest.mono (List.subset_cons_self _ _), fun h => h rfl⟩
  | cons t ts =>
    rw [piecesAll_eq_map] at hs
    obtain ⟨g, s, g', htext, hg, hg', hs⟩ := SpellsIn.of_enclosed hs rest
    have hend : Ends narrow ['>'] (g' ++ (['>'] ++ rest)) := ends_append_cons hg' (by decide) (by decide)
    obtain ⟨hbegins, _, hfirst, hmore⟩ :=
      commaSeparated_reads repeats_furtherTypes (by decide)
        (fun t ht => (h t ht).whole.typeExpr_readsBack (by decide)) hs hend
    have hopening : Leaves (opening ['<'] (['<'] ++ (g ++ (s ++ (g' ++ (['>'] ++ rest))))))
        (s ++ (g' ++ (['>'] ++ rest))) :=
      opening_leaves (by decide) hg.1 (hbegins.append _).skipGaps_eq
    rw [htext]
    exact ⟨optionalGenerics_reads hopening hfirst hmore (closing_leaves (by decide) hg'.1),
      follows_cons (by decide) List.mem_cons_self, fun _ => adjoins_cons (by decide)⟩

/-- **A dotted name is a type that needs no parentheses**: it starts with no bracket. -/
theorem primary_of_nominal (h : (nominal s).Reads t rest) : (primary s).Reads t rest := by
  have hhead : ∀ c, isIdentifierStart c = false → s.head? ≠ some c := by
    intro c hc hhead
    have hstart : ∀ d, s.head? = some d → isIdentifierStart d = false := by
      intro d hd
      rw [hhead, Option.some.injEq] at hd
      exact hd ▸ hc
    obtain ⟨_, hfails⟩ := nominal_fails (identifier_fails hstart)
    obtain ⟨_, hreads⟩ := h
    rw [hfails] at hreads
    cases hreads
  rw [primary_eq_nominal (hhead '(' (by decide)) (hhead '[' (by decide))]
  exact h

/-- **A dotted name is read back everywhere.** -/
theorem Readable.of_name (h : IsName narrow t) (hgroup : needsGrouping t = false)
    (hbare : t.isSpecifierName = true → narrow = true)
    (hopens : ∀ {ends s rest : List Char}, ends ⊆ typeEnds → SpellsIn narrow t.pieces s →
      Follows (operandEnds ends) rest → Opens ends (s ++ rest))
    (hleads : ∀ {s rest : List Char}, SpellsIn narrow t.pieces s →
      Follows (operandEnds typeEnds) rest → (t.isSpecifierName = true → Adjoins rest) →
        Leads (s ++ rest)) : Readable narrow t := by
  refine .of_operand ⟨?_, hopens, hleads⟩ hgroup hbare fun _ => h
  intro s rest u r hs hrest hmember hsuffixes
  have hname := h hs hrest (furtherSegments_nothing hmember)
  exact suffixed_reads (primary_of_nominal hname) hsuffixes

/-- A name with generic arguments. If it is a specifier as well, narrow texts are needed: there no white
space stands between the name and what comes after it, unless that is `&`. -/
theorem readable_simple (hn : isIdentifier n = true) (hbare : n ∈ specifiers → narrow = true)
    (hgs : ∀ t ∈ gs, Readable narrow t) : Readable narrow (.simple n gs) := by
  have hspecifier : (simple n gs).isSpecifierName = true → n ∈ specifiers := by
    cases gs with
    | nil => simp [isSpecifierName]
    | cons => simp [isSpecifierName]
  refine .of_name ?_ rfl (fun h => hbare (hspecifier h)) ?_ ?_
  · intro s rest u r hs hrest hsegments
    obtain ⟨s, rfl, hgenerics⟩ := spellsIn_word_iff.1 hs
    obtain ⟨hgenerics, hfollows, -⟩ := generics_read hgs (List.Subset.refl _) hgenerics hrest
    rw [List.append_assoc]
    exact nominal_reads (identifier_reads hn (endsWord_of_nameEnds hfollows)) hgenerics hsegments
  · intro ends s rest hends hs hrest
    obtain ⟨s, rfl, hgenerics⟩ := spellsIn_word_iff.1 hs
    rw [List.append_assoc]
    exact .name hn (generics_read hgs hends hgenerics hrest).2.1
  · intro s rest hs hrest hadjoins
    obtain ⟨s, rfl, hgenerics⟩ := spellsIn_word_iff.1 hs
    obtain ⟨-, hfollows, hnext⟩ := generics_read hgs (List.Subset.refl _) hgenerics hrest
    rw [List.append_assoc]
    refine leads_identifier hn ?_ (endsWord_of_nameEnds hfollows)
    intro hmem
    refine hnext ?_
    rintro rfl
    exact hadjoins (decide_eq_true hmem)

/-- **A member type is read back** after its parent, whose further segment it is. -/
theorem readable_nested (hn : isIdentifier n = true) (htype : n ≠ "Type") (hprotocol : n ≠ "Protocol")
    (hnominal : t.isNominal = true) (ht : Readable narrow t) (hgs : ∀ t ∈ gs, Readable narrow t) :
    Readable narrow (.nested n t gs) := by
  have hgroup : needsGrouping t = false := by
    cases t <;> first | rfl | cases hnominal
  have hparent := ht.operand
  rw [hgroup] at hparent
  -- the parent is read up to the point
  have htext : ∀ a s rest : List Char, a ++ (("." ++ n).toList ++ s) ++ rest =
      a ++ ('.' :: (n.toList ++ (s ++ rest))) := by
    intro a s rest
    rw [String.toList_append, List.append_assoc, List.append_assoc, List.append_assoc]
    rfl
  refine .of_name ?_ rfl (by simp [isSpecifierName]) ?_ ?_
  · intro s rest u r hs hrest hsegments
    obtain ⟨a, b, rfl, ha, hb⟩ := spellsIn_append_iff.1 hs
    obtain ⟨s, rfl, hgenerics⟩ := spellsIn_word_iff.1 hb
    obtain ⟨hgenerics, hfollows, -⟩ := generics_read hgs (List.Subset.refl _) hgenerics hrest
    have hmember := memberName_reads hn htype hprotocol (endsWord_of_nameEnds hfollows)
    rw [htext]
    exact ht.name hnominal ha (follows_cons (by decide) (by decide))
      (furtherSegments_reads hmember hgenerics hsegments)
  · intro ends s rest hends hs hrest
    obtain ⟨a, b, rfl, ha, hb⟩ := spellsIn_append_iff.1 hs
    obtain ⟨s, rfl, -⟩ := spellsIn_word_iff.1 hb
    rw [htext]
    exact hparent.opens hends ha (follows_cons (by decide) (by simp [operandEnds]))
  · intro s rest hs _ _
    obtain ⟨a, b, rfl, ha, hb⟩ := spellsIn_append_iff.1 hs
    obtain ⟨s, rfl, -⟩ := spellsIn_word_iff.1 hb
    rw [htext]
    exact hparent.leads ha (follows_cons (by decide) (by decide)) fun _ => adjoins_cons (by decide)

/-! ## Postfix operators -/

/-- **A postfix operator makes an operand of an operand.** -/
theorem readable_postfix {op : String} (wrap : TypeExpr → TypeExpr) (ht : Readable narrow t)
    (hop : ∃ cs, op.toList = c :: cs) (hc : c ∈ ['?', '!', '.'])
    (hsuffix : ∀ {rest : List Char}, Follows (operandEnds typeEnds) rest →
      (memberName (op.toList ++ rest)).Fails ∧
        ∃ h, suffix (op.toList ++ rest) = some (wrap, ⟨rest, h⟩))
    (hpieces : (wrap t).pieces = grouped (needsGrouping t) t.pieces ++ [.word op])
    (hgroup : needsGrouping (wrap t) = false) (hname : (wrap t).isNominal = false) :
    Readable narrow (wrap t) := by
  have hends : ∀ ends, c ∈ operandEnds ends := by
    intro ends
    simp only [List.mem_cons, List.not_mem_nil, or_false] at hc
    rcases hc with rfl | rfl | rfl <;> simp [operandEnds]
  have hgap : isGap c = false := (of_mem_nameEnds (List.mem_cons_of_mem _ (hends typeEnds))).2.2.2
  have hnext : ∀ ends rest, Follows (operandEnds ends) (op.toList ++ rest) ∧
      Adjoins (op.toList ++ rest) := by
    intro ends rest
    obtain ⟨cs, hop⟩ := hop
    rw [hop]
    exact ⟨follows_cons hgap (hends ends), adjoins_cons hgap⟩
  have hspecifier : (wrap t).isSpecifierName = false := by
    cases hwrap : wrap t <;> first | rfl | simp [hwrap, isNominal] at hname
  refine .of_operand ⟨?_, ?_, ?_⟩ hgroup (by simp [hspecifier]) (by simp [hname])
  · intro s rest u r hs hrest _ hsuffixes
    rw [hpieces] at hs
    obtain ⟨s', htext, hs'⟩ := hs.of_append_word rest
    obtain ⟨hmember, hfound⟩ := hsuffix hrest
    rw [htext]
    exact ht.operand.reads hs' (hnext _ _).1 hmember (suffixes_reads hfound hsuffixes)
  · intro ends s rest hends hs _
    rw [hpieces] at hs
    obtain ⟨s', htext, hs'⟩ := hs.of_append_word rest
    rw [htext]
    exact ht.operand.opens hends hs' (hnext _ _).1
  · intro s rest hs _ _
    rw [hpieces] at hs
    obtain ⟨s', htext, hs'⟩ := hs.of_append_word rest
    rw [htext]
    exact ht.operand.leads hs' (hnext _ _).1 fun _ => (hnext [] _).2

theorem readable_optional (ht : Readable narrow t) : Readable narrow (.optional t) :=
  readable_postfix (c := '?') .optional ht ⟨_, rfl⟩ (by decide)
    (fun _ => ⟨memberName_fails (by simp), suffix_question _⟩) rfl rfl rfl

theorem readable_forced (ht : Readable narrow t) : Readable narrow (.forced t) :=
  readable_postfix (c := '!') .forced ht ⟨_, rfl⟩ (by decide)
    (fun _ => ⟨memberName_fails (by simp), suffix_exclamation _⟩) rfl rfl rfl

/-- A keyword ends where an operand ends. -/
theorem endsKeyword_of_operandEnds (h : Follows (operandEnds typeEnds) s) : EndsKeyword s := by
  intro c hc
  rcases h.head hc with hgap | hend
  · exact endsKeyword_of_isGap hgap
  · exact (of_mem_nameEnds (List.mem_cons_of_mem _ hend)).2.1

/-- The word of a metatype is left to the postfix operators. -/
theorem readable_metatype (ht : Readable narrow t) (isType : Bool) :
    Readable narrow (.metatype t isType) := by
  cases isType with
  | true =>
    refine readable_postfix (c := '.') (.metatype · true) ht ⟨_, rfl⟩ (by decide) ?_ rfl rfl rfl
    intro rest hrest
    have hend := endsWord_of_nameEnds (hrest.mono (List.subset_cons_self _ _))
    exact ⟨memberName_metatype_fails (.inl rfl) hend, suffix_type (endsKeyword_of_operandEnds hrest)⟩
  | false =>
    refine readable_postfix (c := '.') (.metatype · false) ht ⟨_, rfl⟩ (by decide) ?_ rfl rfl rfl
    intro rest hrest
    have hend := endsWord_of_nameEnds (hrest.mono (List.subset_cons_self _ _))
    exact ⟨memberName_metatype_fails (.inr rfl) hend, suffix_protocol (endsKeyword_of_operandEnds hrest)⟩

/-! ## Brackets -/

/-- **What stands in square brackets is read as an operand.** -/
theorem isOperand_collection {ps : List Piece}
    (h : ∀ {s : List Char} (rest : List Char), SpellsIn narrow ps s →
      (∃ s', s ++ rest = '[' :: s') ∧ (collection (s ++ rest)).Reads t rest) :
    IsOperand narrow t ps where
  reads := by
    intro s rest u r hs _ _ hsuffixes
    obtain ⟨⟨s', htext⟩, hread⟩ := h rest hs
    exact suffixed_reads (primary_of_collection (by simp [htext]) hread) hsuffixes
  opens := by
    intro ends s rest _ hs _
    obtain ⟨⟨s', htext⟩, -⟩ := h rest hs
    rw [htext]
    exact .bracket (.inr rfl)
  leads := by
    intro s rest hs _ _
    obtain ⟨⟨s', htext⟩, -⟩ := h rest hs
    rw [htext]
    exact leads_bracket (.inr rfl) s'

theorem readable_array (ht : Readable narrow t) : Readable narrow (.array t) := by
  refine .of_operand (isOperand_collection ?_) rfl (by simp [isSpecifierName]) (by simp [isNominal])
  intro s rest hs
  obtain ⟨g, s, g', htext, hg, hg', hs⟩ := SpellsIn.of_enclosed hs rest
  have hend : Ends narrow [']'] (g' ++ ([']'] ++ rest)) := ends_append_cons hg' (by decide) (by decide)
  have hopening : Leaves (opening ['['] (['['] ++ (g ++ (s ++ (g' ++ ([']'] ++ rest))))))
      (s ++ (g' ++ ([']'] ++ rest))) :=
    opening_leaves (by decide) hg.1 ((ht.whole.begins hs).append _).skipGaps_eq
  -- no colon comes before the bracket, so this is no dictionary
  have hvalue := dictionaryValue_nothing (separator_eq_none (hend.follows.head_skipGaps_ne (by decide)))
  rw [htext]
  exact ⟨⟨_, rfl⟩, collection_reads hopening (ht.whole.reads hs (hend.mono (by decide))) hvalue
    (closing_leaves (by decide) hg'.1)⟩

theorem readable_dictionary (hk : Readable narrow k) (hv : Readable narrow v) :
    Readable narrow (.dictionary k v) := by
  refine .of_operand (isOperand_collection ?_) rfl (by simp [isSpecifierName]) (by simp [isNominal])
  intro s rest hs
  obtain ⟨g, s, g', htext, hg, hg', hs⟩ := SpellsIn.of_enclosed hs rest
  rw [List.append_assoc] at hs
  obtain ⟨a, s, rfl, ha, hsign⟩ := spellsIn_append_iff.1 hs
  obtain ⟨i, i', b, hsplit, hi, hi', hb⟩ := hsign.of_sign (g' ++ ([']'] ++ rest))
  have hend : Ends narrow [']'] (g' ++ ([']'] ++ rest)) := ends_append_cons hg' (by decide) (by decide)
  have hcolon : Ends narrow [':'] (i ++ ([':'] ++ (i' ++ (b ++ (g' ++ ([']'] ++ rest)))))) :=
    ends_append_cons hi (by decide) (by decide)
  have hopening : Leaves
      (opening ['['] (['['] ++ (g ++ (a ++ (i ++ ([':'] ++ (i' ++ (b ++ (g' ++ ([']'] ++ rest))))))))))
      (a ++ (i ++ ([':'] ++ (i' ++ (b ++ (g' ++ ([']'] ++ rest))))))) :=
    opening_leaves (by decide) hg.1 ((hk.whole.begins ha).append _).skipGaps_eq
  have hvalue := dictionaryValue_reads
    (separator_leaves (by decide) hi.1 hi'.1 ((hv.whole.begins hb).append _).skipGaps_eq)
    (hv.whole.reads hb (hend.mono (by decide)))
  have hwhole : s ++ (g' ++ ("]".toList ++ rest)) =
      i ++ ([':'] ++ (i' ++ (b ++ (g' ++ ([']'] ++ rest))))) := hsplit
  rw [htext, List.append_assoc a, hwhole]
  exact ⟨⟨_, rfl⟩, collection_reads hopening (hk.whole.reads ha (hcolon.mono (by decide))) hvalue
    (closing_leaves (by decide) hg'.1)⟩

theorem elementPieces_eq_map (es : List (Labelled TypeExpr)) :
    elementPieces es = es.map elementLayout := by
  induction es with
  | nil => rfl
  | cons e es ih =>
    obtain ⟨label, t⟩ := e
    cases label <;> rw [elementPieces, ih, List.map_cons, elementLayout]

/-- **A tuple is read back** from its parentheses, which a single element without a label has not. -/
theorem readable_tuple {es : List (Labelled TypeExpr)} (hsingle : isSingle es = false)
    (hes : ∀ e ∈ es, Readable narrow e.value ∧ ∀ w ∈ e.label, isIdentifier w = true) :
    Readable narrow (.tuple es) := by
  have hno : ∀ t, es ≠ [⟨none, t⟩] := by
    rintro t rfl
    cases hsingle
  have hgroup : group es = .tuple es := by
    rw [group]
    exact hno
  have hneeds : needsGrouping (.tuple es) = false := by
    rw [needsGrouping]
    all_goals simp [hno]
  have helements := isOperand_group fun e he => (hes e he).1.whole.element_readsBack (hes e he).2
  rw [hgroup, ← elementPieces_eq_map, ← pieces_tuple hno] at helements
  exact .of_operand helements hneeds (by simp [isSpecifierName]) (by simp [isNominal])

/-- **An effect is read if it is there**, and what comes after it is not taken for one. -/
theorem effect_read {cs : List Char} {flag : Bool} (hw : w.toList = c :: cs) (hgap : isGap c = false)
    (hs : SpellsIn narrow (if flag then [.blank, .word w] else []) s) (hc : c ∉ ends)
    (hrest : Follows ends rest) (hend : EndsKeyword rest) :
    (effect w.toList (s ++ rest)).Reads flag rest ∧ Follows (c :: ends) (s ++ rest) ∧
      EndsKeyword (s ++ rest) := by
  cases flag with
  | false =>
    obtain rfl := spellsIn_nil_iff.1 hs
    rw [hw]
    exact ⟨effect_nothing (hrest.head_skipGaps_ne hc), hrest.mono (List.subset_cons_self _ _), hend⟩
  | true =>
    obtain ⟨g, _, rfl, hg, hne, hword⟩ := spellsIn_blank_iff.1 hs
    obtain ⟨_, rfl, hnil⟩ := spellsIn_word_iff.1 hword
    obtain rfl := spellsIn_nil_iff.1 hnil
    have htext : g ++ (w.toList ++ []) ++ rest = g ++ (w.toList ++ rest) := by
      rw [List.append_nil, List.append_assoc]
    have hfollows : Follows (c :: ends) (w.toList ++ rest) := by
      rw [hw]
      exact follows_cons hgap List.mem_cons_self
    have hskip : skipGaps (g ++ (w.toList ++ rest)) = w.toList ++ rest := by
      rw [skipGaps_append hg.1, hw]
      exact skipGaps_cons hgap
    rw [htext]
    refine ⟨effect_reads (by simp [hw]) hskip hend, (follows_append_iff hg.1).2 hfollows, ?_⟩
    intro d hd
    obtain ⟨d', g, rfl⟩ := List.exists_cons_of_ne_nil hne
    obtain rfl : d' = d := by simpa using hd
    exact endsKeyword_of_isGap (hg.1 d' List.mem_cons_self)

/-- The effects of a closure, its arrow and its result. -/
theorem closureTail_read {isAsync canThrow : Bool} (ht : Readable narrow t)
    (hs : SpellsIn narrow ((if isAsync then [.blank, .word "async"] else []) ++
      ((if canThrow then [.blank, .word "throws"] else []) ++
        (Piece.sign " " "->" " " ++ t.pieces))) s) (hrest : Ends narrow typeEnds rest) :
    (closureTail (s ++ rest)).Reads (isAsync, canThrow, t) rest := by
  obtain ⟨a, _, rfl, ha, hs⟩ := spellsIn_append_iff.1 hs
  obtain ⟨b, _, rfl, hb, hs⟩ := spellsIn_append_iff.1 hs
  obtain ⟨g, g', s, htext, hg, hg', hs⟩ := hs.of_sign rest
  have harrow : Follows ['-'] (g ++ (['-', '>'] ++ (g' ++ (s ++ rest)))) :=
    follows_append_cons hg.1 (by decide) (by decide)
  have hend : EndsKeyword (g ++ (['-', '>'] ++ (g' ++ (s ++ rest)))) := by
    intro c hc
    rcases harrow.head hc with hgap | hminus
    · exact endsKeyword_of_isGap hgap
    · obtain rfl := List.mem_singleton.1 hminus
      decide
  -- from the arrow backwards: what follows `async` depends on whether `throws` is there
  obtain ⟨hthrows, hfollows, hend'⟩ :=
    effect_read (w := "throws") (c := 't') rfl (by decide) hb (by decide) harrow hend
  obtain ⟨hasync, -, -⟩ :=
    effect_read (w := "async") (c := 'a') rfl (by decide) ha (by decide) hfollows hend'
  rw [List.append_assoc, List.append_assoc, htext]
  exact closureTail_reads hasync hthrows
    (separator_leaves (by decide) hg.1 hg'.1 ((ht.whole.begins hs).append _).skipGaps_eq)
    (ht.whole.reads hs hrest)

/-- **A closure is read to the end of its result**; its arguments are elements without labels. -/
theorem closure_read {isAsync canThrow : Bool} (has : ∀ t ∈ as, Readable narrow t)
    (ht : Readable narrow t) (hs : SpellsIn narrow (TypeExpr.closure as isAsync canThrow t).pieces s)
    (rest : List Char) :
    (∃ s', s ++ rest = '(' :: s') ∧ (Ends narrow typeEnds rest →
      (parenthesized (s ++ rest)).Reads (.closure as isAsync canThrow t) rest) := by
  have helements : ∀ e ∈ as.map (⟨none, ·⟩),
      ReadsBack narrow narrow element elementEnds (elementLayout e) e := by
    intro e he
    obtain ⟨t, ht, rfl⟩ := List.mem_map.1 he
    exact (has t ht).whole.element_readsBack (by simp)
  have hlayouts : (as.map (⟨none, ·⟩)).map elementLayout = piecesAll as := by
    rw [List.map_map, piecesAll_eq_map]
    rfl
  have hvalues : (as.map fun t => (⟨none, t⟩ : Labelled TypeExpr)).map (·.value) = as := by
    rw [List.map_map]
    exact List.map_id' as
  simp only [pieces, List.append_assoc, ← hlayouts] at hs
  obtain ⟨a, b, rfl, ha, hb⟩ := spellsIn_append_iff.1 hs
  rw [List.append_assoc]
  obtain ⟨hhead, _, _, hopening, hes, hclosing⟩ := parentheses_read helements ha (b ++ rest)
  refine ⟨hhead, ?_⟩
  intro hrest
  have hclosure := parenthesized_reads_closure hopening hes hclosing (closureTail_read ht hb hrest)
  rw [hvalues] at hclosure
  exact hclosure

theorem readable_closure {isAsync canThrow : Bool} (has : ∀ t ∈ as, Readable narrow t)
    (ht : Readable narrow t) : Readable narrow (.closure as isAsync canThrow t) := by
  have hopens : ∀ {ends s rest : List Char},
      SpellsIn narrow (TypeExpr.closure as isAsync canThrow t).pieces s → Opens ends (s ++ rest) := by
    intro ends s rest hs
    obtain ⟨⟨s', htext⟩, -⟩ := closure_read has ht hs rest
    rw [htext]
    exact .bracket (.inl rfl)
  have hbracket : ∀ {s : List Char} (rest : List Char),
      SpellsIn narrow (TypeExpr.closure as isAsync canThrow t).pieces s → Leads (s ++ rest) := by
    intro s rest hs
    obtain ⟨⟨s', htext⟩, -⟩ := closure_read has ht hs rest
    rw [htext]
    exact leads_bracket (.inl rfl) s'
  refine .of_base ⟨?_, ?_⟩ (fun {_ rest} hs _ => hbracket rest hs) rfl rfl ?_
  · intro s rest hs _
    exact (hbracket rest hs).starts
  · intro s rest hs hrest
    have hclosure := primary_of_parenthesized ((closure_read has ht hs rest).2 hrest)
    -- a postfix operator would belong to the result
    have hsuffixes := suffixes_nothing (t := .closure as isAsync canThrow t)
      (suffix_eq_none_of_follows (hrest.follows.mono (List.subset_cons_self _ _)))
    exact composition_of_constrained ((hopens hs).constrained_reads (suffixed_reads hclosure hsuffixes))
      hrest.follows
  · intro s rest hs _
    exact (hopens hs).unlabelled

/-! ## Constraints -/

/-- **`some` and `any` are read back** with the constraint after them. -/
theorem readable_constraint {word : String} {wrap : TypeExpr → TypeExpr} (hbase : IsBase narrow t)
    (hword : isIdentifier word = true) (hnot : word ∉ specifiers)
    (hfound : ∀ {g rest : List Char}, AreGaps g → g ≠ [] → skipGaps rest = rest →
      ∃ h, constraint (word.toList ++ (g ++ rest)) = some (wrap, ⟨rest, h⟩))
    (hpieces : (wrap t).pieces = .word word :: .blank :: t.pieces)
    (hgroup : needsGrouping (wrap t) = true) (hname : (wrap t).isNominal = false) :
    Readable narrow (wrap t) := by
  have hsplit : ∀ {s : List Char} (rest : List Char), SpellsIn narrow (wrap t).pieces s →
      ∃ g s', s ++ rest = word.toList ++ (g ++ (s' ++ rest)) ∧ AreGaps g ∧ g ≠ [] ∧
        SpellsIn narrow t.pieces s' := by
    intro s rest hs
    rw [hpieces] at hs
    exact hs.of_word_blank rest
  refine .of_base ⟨?_, ?_⟩ ?_ hgroup hname ?_
  · intro s rest hs _
    obtain ⟨g, s', htext, -⟩ := hsplit rest hs
    rw [htext]
    exact starts_identifier hword _
  · intro s rest hs hrest
    obtain ⟨g, s', htext, hg, hne, hs'⟩ := hsplit rest hs
    have hskip := (hbase.starts hs' hrest.follows).begins.skipGaps_eq
    rw [htext]
    exact composition_of_constrained
      (constrained_reads (hfound hg hne hskip) (hbase.reads hs' hrest)) hrest.follows
  · intro s rest hs _
    obtain ⟨g, s', htext, hg, hne, -⟩ := hsplit rest hs
    rw [htext]
    exact leads_identifier hword (fun hmem => absurd hmem hnot) (endsWord_append hg hne _)
  · intro s rest hs hrest
    obtain ⟨g, s', htext, hg, hne, hs'⟩ := hsplit rest hs
    have hstarts := hbase.starts hs' (hrest.mono elementEnds_subset)
    rw [htext]
    refine elementLabel_eq_none hword (endsWord_append hg hne _) ?_
    rw [skipGaps_append hg, hstarts.begins.skipGaps_eq]
    exact hstarts.head_ne (by decide)

theorem readable_someOf (hbase : IsBase narrow t) : Readable narrow (.someOf t) :=
  readable_constraint hbase (by decide) (by decide) constraint_some rfl rfl rfl

theorem readable_anyOf (hbase : IsBase narrow t) : Readable narrow (.anyOf t) :=
  readable_constraint hbase (by decide) (by decide) constraint_any rfl rfl rfl

/-! ## Compositions -/

theorem groupedAll_eq_map (ts : List TypeExpr) :
    groupedAll ts = ts.map fun t => grouped (needsGrouping t) t.pieces := by
  induction ts with
  | nil => rfl
  | cons t ts ih => rw [groupedAll, ih, List.map_cons]

/-- The text of the first member, which ends before `&`, and the further members. -/
theorem members_read {m : TypeExpr} (hms : ∀ m ∈ ms, Readable narrow m) (hends : ends ⊆ typeEnds)
    (hs : SpellsIn narrow (TypeExpr.composition (m :: ms)).pieces s) (hrest : Follows ends rest) :
    ∃ a b, s ++ rest = a ++ (b ++ rest) ∧ SpellsIn narrow (grouped (needsGrouping m) m.pieces) a ∧
      Follows (operandEnds ends) (b ++ rest) ∧ Follows ('&' :: ends) (b ++ rest) ∧
        (furtherMembers (b ++ rest)).Reads ms rest := by
  have hc : '&' ∉ ends := fun hc => absurd (hends hc) (by decide)
  have hitems : ∀ m ∈ ms,
      ReadsBack narrow false constrained ('&' :: ends) (grouped (needsGrouping m) m.pieces) m := by
    intro m hm s rest hs hrest
    exact (hms m hm).operand.constrained_readsBack hs (hrest.mono (List.cons_subset_cons _ hends))
  have hjoin : '&' :: ends ⊆ operandEnds ends := by
    intro c hc
    simp only [operandEnds, List.mem_cons] at hc ⊢
    exact .inr (.inr (.inr hc))
  rw [pieces, groupedAll_eq_map, intercalate_map_cons] at hs
  obtain ⟨a, b, rfl, ha, hb⟩ := spellsIn_append_iff.1 hs
  -- white space stands before `&` in narrow texts as well
  obtain ⟨hread, hnext⟩ :=
    further_reads repeats_furtherMembers rfl (by decide) hc (by simp) hitems hb
      (ends_of_follows hrest)
  exact ⟨a, b, List.append_assoc .., ha, hnext.follows.mono hjoin, hnext.follows, hread⟩

/-- **A composition is read back** if each member is read as an operand, since its members stand in
order. -/
theorem isBase_composition (hnormal : compose ms = .composition ms) (hlength : 2 ≤ ms.length)
    (hms : ∀ m ∈ ms, Readable narrow m) : IsBase narrow (.composition ms) := by
  obtain ⟨m, m', ms, rfl⟩ : ∃ m m' ms', ms = m :: m' :: ms' := by
    match ms, hlength with
    | m :: m' :: ms, _ => exact ⟨m, m', ms, rfl⟩
  obtain ⟨hm, hmore⟩ := List.forall_mem_cons.1 hms
  -- what was in order when it was written is in order when it is composed again
  have hcomposed : composed m (m' :: ms) = .composition (m :: m' :: ms) := hnormal
  refine ⟨?_, ?_⟩
  · intro s rest hs hrest
    obtain ⟨a, b, htext, ha, hfollows, -⟩ := members_read hmore (List.Subset.refl _) hs hrest
    rw [htext]
    exact (hm.operand.opens (List.Subset.refl _) ha hfollows).starts
  · intro s rest hs hrest
    obtain ⟨a, b, htext, ha, -, hfollows, hread⟩ :=
      members_read hmore (List.Subset.refl _) hs hrest.follows
    rw [htext, ← hcomposed]
    exact composition_reads (hm.operand.constrained_readsBack ha (ends_of_follows hfollows)).2
      hread

/-- A composition is read back everywhere unless its first member is taken for a specifier. -/
theorem readable_composition (hnormal : compose ms = .composition ms) (hlength : 2 ≤ ms.length)
    (hms : ∀ m ∈ ms, Readable narrow m) (hfirst : ∀ m ∈ ms.head?, m.isSpecifierName = false) :
    Readable narrow (.composition ms) := by
  have hbase := isBase_composition hnormal hlength hms
  obtain ⟨m, ms, rfl⟩ := List.exists_cons_of_length_pos (Nat.lt_of_lt_of_le Nat.zero_lt_two hlength)
  obtain ⟨hm, hmore⟩ := List.forall_mem_cons.1 hms
  refine .of_base hbase ?_ (decide_eq_true hlength) rfl ?_
  · intro s rest hs hrest
    obtain ⟨a, b, htext, ha, hfollows, -⟩ :=
      members_read hmore (List.Subset.refl _) hs hrest.follows
    rw [htext]
    refine hm.operand.leads ha hfollows ?_
    simp [hfirst m rfl]
  · intro s rest hs hrest
    obtain ⟨a, b, htext, ha, hfollows, -⟩ := members_read hmore elementEnds_subset hs hrest
    rw [htext]
    exact (hm.operand.opens elementEnds_subset ha hfollows).unlabelled

/-! ## Attributes and specifiers -/

/-- The specifiers are identifiers. -/
theorem isIdentifier_of_specifier (h : w ∈ specifiers) : isIdentifier w = true := by
  revert w
  decide

/-- **A specifier is read back**, or that there is none. -/
theorem specifier_read {spec : Option String} (h : ∀ w ∈ spec, w ∈ specifiers)
    (hs : SpellsIn narrow (spec.toList.flatMap fun w => [.word w, .blank]) s) (hrest : Starts rest)
    (hfree : spec = none → Leads rest) :
    (specifier (s ++ rest)).Reads spec rest ∧ Starts (s ++ rest) := by
  cases spec with
  | none =>
    obtain rfl := spellsIn_nil_iff.1 hs
    exact ⟨(hfree rfl).free, hrest⟩
  | some w =>
    have hw := h w rfl
    obtain ⟨g, _, htext, hg, hne, hnil⟩ := SpellsIn.of_word_blank hs rest
    obtain rfl := spellsIn_nil_iff.1 hnil
    rw [htext, List.nil_append]
    exact ⟨specifier_reads hw hg hne hrest.begins.skipGaps_eq,
      starts_identifier (isIdentifier_of_specifier hw) _⟩

/-- **Attributes are read back**, up to something that starts a type or is a specifier. -/
theorem attributes_read {as : List String} (h : ∀ a ∈ as, isIdentifier a = true) :
    ∀ {s : List Char}, SpellsIn narrow (as.flatMap fun a => [.word ("@" ++ a), .blank]) s →
      Starts rest → (attributes (s ++ rest)).Reads as rest ∧ Begins (s ++ rest) := by
  induction as with
  | nil =>
    intro s hs hrest
    obtain rfl := spellsIn_nil_iff.1 hs
    exact ⟨attributes_nothing (hrest.head_ne (by decide)), hrest.begins⟩
  | cons a as ih =>
    intro s hs hrest
    obtain ⟨ha, has⟩ := List.forall_mem_cons.1 h
    obtain ⟨g, s, htext, hg, hne, hs⟩ := SpellsIn.of_word_blank hs rest
    obtain ⟨hread, hbegins⟩ := ih has hs hrest
    have hskip : skipGaps (g ++ (s ++ rest)) = s ++ rest := by
      rw [skipGaps_append hg, hbegins.skipGaps_eq]
    rw [← hskip] at hread
    rw [htext, String.toList_append, List.append_assoc]
    exact ⟨attributes_cons ha (endsWord_append hg hne _) hread, ⟨_, _, rfl, by decide⟩⟩

/-- The attributes, the specifier and the type after them. -/
theorem spells_attributed {spec : Option String} {as : List String}
    (hs : SpellsIn narrow (TypeExpr.attributed t spec as).pieces s) (rest : List Char) :
    ∃ a b s', s ++ rest = a ++ (b ++ (s' ++ rest)) ∧
      SpellsIn narrow (as.flatMap fun a => [.word ("@" ++ a), .blank]) a ∧
      SpellsIn narrow (spec.toList.flatMap fun w => [.word w, .blank]) b ∧
        SpellsIn narrow t.pieces s' := by
  rw [pieces, decorationPieces, List.append_assoc] at hs
  obtain ⟨a, _, rfl, ha, hs⟩ := spellsIn_append_iff.1 hs
  obtain ⟨b, s', rfl, hb, hs'⟩ := spellsIn_append_iff.1 hs
  exact ⟨a, b, s', by simp only [List.append_assoc], ha, hb, hs'⟩

/-- **Attributes and specifiers are no labels**: an attribute is no name, and after a specifier comes no
colon. -/
theorem decorations_unlabelled {spec : Option String} {as : List String} {a b : List Char}
    (hsome : as ≠ [] ∨ spec ≠ none) (hspec : ∀ w ∈ spec, w ∈ specifiers)
    (ha : SpellsIn narrow (as.flatMap fun a => [.word ("@" ++ a), .blank]) a)
    (hb : SpellsIn narrow (spec.toList.flatMap fun w => [.word w, .blank]) b) (hrest : Starts rest) :
    elementLabel (a ++ (b ++ rest)) = none := by
  cases as with
  | nil =>
    obtain rfl := spellsIn_nil_iff.1 ha
    obtain ⟨w, rfl⟩ := Option.ne_none_iff_exists'.1 (hsome.resolve_left (by simp))
    obtain ⟨g, _, htext, hg, hne, hnil⟩ := SpellsIn.of_word_blank hb rest
    obtain rfl := spellsIn_nil_iff.1 hnil
    rw [List.nil_append, htext, List.nil_append]
    refine elementLabel_eq_none (isIdentifier_of_specifier (hspec w rfl)) (endsWord_append hg hne _) ?_
    rw [skipGaps_append hg, hrest.begins.skipGaps_eq]
    exact hrest.head_ne (by decide)
  | cons a' as =>
    obtain ⟨_, rfl, -⟩ := spellsIn_word_iff.1 ha
    refine elementLabel_eq_none_of_start ?_
    intro c hc
    rw [String.toList_append] at hc
    obtain rfl : '@' = c := by simpa using hc
    decide

/-- **A type with attributes or a specifier is read back**; without a specifier nothing in front of the
type may be taken for one. -/
theorem readable_attributed {spec : Option String} {as : List String} (hbase : IsBase narrow t)
    (hfree : spec = none → IsFree narrow t) (hsome : as ≠ [] ∨ spec ≠ none)
    (has : ∀ a ∈ as, isIdentifier a = true) (hspec : ∀ w ∈ spec, w ∈ specifiers) :
    Readable narrow (.attributed t spec as) := by
  have hdecorated : decorated as spec t = .attributed t spec as := by
    rw [decorated, if_neg]
    simpa [or_iff_not_imp_left] using hsome
  have hwhole : IsWhole narrow (.attributed t spec as) := by
    refine ⟨?_, ?_, ?_⟩
    · intro s rest hs hrest
      obtain ⟨a, b, s', htext, ha, hb, hs'⟩ := spells_attributed hs rest
      obtain ⟨hspecifier, hstarts⟩ := specifier_read hspec hb (hbase.starts hs' hrest.follows)
        fun hnone => hfree hnone hs' hrest
      rw [htext, ← hdecorated]
      exact typeExpr_reads (attributes_read has ha hstarts).1 hspecifier (hbase.reads hs' hrest)
    · intro s hs
      obtain ⟨a, b, s', htext, ha, hb, hs'⟩ := spells_attributed hs []
      obtain ⟨-, hstarts⟩ := specifier_read hspec hb (hbase.starts hs' follows_nil)
        fun hnone => hfree hnone hs' ends_nil
      rw [← List.append_nil s, htext]
      exact (attributes_read has ha hstarts).2
    · intro s rest hs hrest
      obtain ⟨a, b, s', htext, ha, hb, hs'⟩ := spells_attributed hs rest
      rw [htext]
      exact decorations_unlabelled hsome hspec ha hb (hbase.starts hs' (hrest.mono elementEnds_subset))
  exact ⟨hwhole, by simp [isAttributed], hwhole.isOperand rfl, by simp [isNominal]⟩

end Wiring.TypeExpr.Grammar
