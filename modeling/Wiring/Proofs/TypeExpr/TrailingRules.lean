import Wiring.Proofs.TypeExpr.Trailing

/-!
# The rules of the grammar with white space after the text

Each rule has the same outcome on a text and on the same text with white space after it, or the text ends in
a specifier alone. Rules that end with a closing bracket have the same outcome in any case: in a text that
ends in a specifier the bracket is missing, and so it is with white space after it.

* `typeExpr_near` … `parenthesized_near`: the outcomes of one rule on both texts, by induction on the text.
* `stuck_of_closureTail`: where a closure is read of the first text alone, its arrow is left over of the
  second one, and no rule goes on from there.
-/

namespace Wiring.TypeExpr.Grammar

open Text

variable {r x : List Char} {g : Spaces} {c : Char} {t : TypeExpr}

/-- After something that is stuck, or after nothing, no sign comes. -/
theorem separator_stuck {s : List Char} {sign : Char} (h : Stuck s) (hsign : sign ∈ [',', '&', ':']) :
    separator [sign] s = none :=
  separator_eq_none (h.blocked sign (List.mem_append_left closingBrackets hsign))

theorem separator_nil (sign : Char) : separator [sign] [] = none :=
  separator_eq_none nofun

theorem closing_eq_none {s : List Char} (h : (skipGaps s).head? ≠ some c) : closing [c] s = none := by
  rw [closing, shorterAfter_eq_none h]
  rfl

theorem bracket_near {s s' : List Char} (sign : Char) (h : Near g s s') (hsign : isGap sign = false)
    (hplain : isPlain sign = true) : Found g (Passes s) (opening [sign] s) (opening [sign] s') := by
  have hword : ∀ c ∈ [sign], isPlain c = true := List.forall_mem_singleton.2 hplain
  exact (opening_near h (isSolid_singleton hsign) (List.cons_ne_nil _ _)).mono fun _ =>
    passes_opening hword

theorem closingBracket_near {s s' : List Char} (sign : Char) (h : Near g s s') (hsign : isGap sign = false)
    (hplain : isPlain sign = true) : Found g (Passes s) (closing [sign] s) (closing [sign] s') := by
  refine (closing_near h (isSolid_singleton hsign) (List.cons_ne_nil _ _)).mono ?_
  rintro x ⟨b, hb, rfl⟩
  exact passes_gaps hb (passes_append (List.forall_mem_singleton.2 hplain) x)

/-- Where only closing brackets could come next, a blocked text has none. -/
theorem Stuck.closed {s : List Char} (h : Stuck s) : Blocked closingBrackets s :=
  h.blocked.mono (List.subset_append_right [',', '&', ':'] closingBrackets)

/-- White space and closing brackets start no tuple element. -/
theorem element_fails_of_head {s : List Char}
    (h : ∀ c, s.head? = some c → isGap c = true ∨ c ∈ closingBrackets) : (element s).Fails := by
  have hclosing : ∀ c ∈ closingBrackets,
      isIdentifierChar c = false ∧ isTypeStart c = false ∧ c ≠ '@' := by
    intro c hc
    simp only [closingBrackets, List.mem_cons, List.not_mem_nil, or_false] at hc
    rcases hc with rfl | rfl | rfl <;> decide
  have hgap : ∀ {c}, isGap c = true → isIdentifierChar c = false ∧ isTypeStart c = false ∧ c ≠ '@' := by
    intro c hc
    have hchar := isIdentifierChar_of_isGap hc
    refine ⟨hchar, Bool.eq_false_iff.2 fun hstart => ?_, ?_⟩
    · have hblank := isBlank_of_isTypeStart hstart
      rw [isBlank_of_isGap hc] at hblank
      cases hblank
    · rintro rfl
      cases hc
  have hhead : ∀ c, s.head? = some c → isIdentifierChar c = false ∧ isTypeStart c = false ∧ c ≠ '@' :=
    fun c hc => (h c hc).elim hgap (hclosing c)
  have hstart : ∀ c, s.head? = some c → isTypeStart c = false := fun c hc => (hhead c hc).2.1
  have hat : s.head? ≠ some '@' := fun hat => (hhead '@' hat).2.2 rfl
  exact element_fails (elementLabel_eq_none_of_start (isIdentifierStart_of_not_typeStart hstart))
    (typeExpr_fails (fun c hc => (hhead c hc).1) hat hstart)

/-! ## Arrows -/

/-- An arrow with something else after it than a specifier alone. -/
theorem passes_arrow (h : ¬ IsBare (skipGaps x)) : Passes ('-' :: '>' :: x) (skipGaps x) := by
  have hafter : Passes ('>' :: x) (skipGaps x) := passes_cons (by decide) (passes_skipGaps x)
  obtain ⟨front, hfront, hgaps⟩ := hafter.front
  refine ⟨⟨'-' :: front, by rw [hfront, List.cons_append], List.forall_mem_cons.2 ⟨nofun, hgaps⟩⟩, ?_⟩
  intro arrow harrow hsuffix
  rcases List.suffix_cons_iff.1 hsuffix with rfl | hsuffix
  · obtain ⟨y, hy, hbare⟩ := harrow
    cases hy
    exact absurd hbare h
  · exact hafter.keeps arrow harrow hsuffix

theorem IsBare.gaps {s : List Char} (h : IsBare s) : ∀ c ∈ s, isBlank c = true → isGap c = true := by
  obtain ⟨w, hw, hrest⟩ := h
  have hnear := attributes_near (near_append .single s)
  generalize attributes s = outcome at hrest hnear
  generalize attributes (s ++ Spaces.single.chars) = outcome' at hnear
  cases hnear with
  | apart hnever => exact hnever.elim
  | done hpasses =>
    obtain ⟨front, hs, hfront⟩ := hpasses.front
    obtain rfl : _ = w.toList := hrest
    rw [hs]
    refine List.forall_mem_append.2 ⟨hfront, fun c hc => isGap_of_isPlain ?_⟩
    exact isPlain_of_isIdentifierChar ((isIdentifierChar_of_specifier hw).1 c hc)

theorem endsInArrow_of_isBare (h : IsBare (skipGaps x)) : EndsInArrow ('-' :: '>' :: x) := by
  obtain ⟨b, hb, hx⟩ := exists_gaps x
  refine ⟨⟨_, ⟨x, rfl, h⟩, List.suffix_refl _⟩, ?_⟩
  have hgaps : ∀ c ∈ x, isBlank c = true → isGap c = true := by
    rw [hx]
    exact List.forall_mem_append.2 ⟨fun c hc _ => hb c hc, h.gaps⟩
  exact List.forall_mem_cons.2 ⟨nofun, List.forall_mem_cons.2 ⟨nofun, hgaps⟩⟩

/-- **What may make a closure of a list in parentheses is stuck**, also with white space after it. -/
theorem stuck_of_closureTail {s s' : List Char} (h : ¬ (closureTail s).Fails) (hnear : Near g s s') :
    Stuck s' := by
  have hstuck : Stuck s := by
    by_contra hnot
    have hhead : ∀ c ∈ ['-', 'a', 't'], (skipGaps s).head? ≠ some c := fun c hc hhead =>
      hnot ⟨c, hhead, hc⟩
    exact h (closureTail_fails (hhead 'a' (by decide)) (hhead 't' (by decide)) (hhead '-' (by decide)))
  have hsolid : IsSolid ['-', 'a', 't'] := by decide
  obtain ⟨c, hhead, hc⟩ := hstuck
  exact ⟨c, (hnear.skipGaps.head?_iff (hsolid c hc)).2 hhead, hc⟩

/-! ## Rules -/

mutual

theorem typeExpr_near {s s' : List Char} (h : Near g s s') :
    (typeExpr s).Agrees g (Passes s) (Apart s) (IsBare s) (typeExpr s') := by
  by_cases hbare : IsBare s
  · obtain ⟨⟨t, _, hreads⟩, _, hfails⟩ := typeExpr_of_isBare h hbare
    rw [hreads, hfails]
    exact .lost hbare
  · have hattributes := attributes_near h
    rw [typeExpr, typeExpr]
    generalize has : attributes s = outcome at hattributes ⊢
    generalize attributes s' = outcome' at hattributes ⊢
    cases hattributes with
    | apart hnever => exact hnever.elim
    | @done as r r' hr hr' hpasses hnear =>
      have hspecifier := specifier_near hnear fun w hw hrest => hbare ⟨w, hw, by rw [has]; exact hrest⟩
      dsimp only
      generalize specifier r = outcome at hspecifier ⊢
      generalize specifier r' = outcome' at hspecifier ⊢
      cases hspecifier with
      | apart hnever => exact hnever.elim
      | @done spec x x' hx hx' hpasses' hnear =>
        have hbase := (composition_near hnear).map (decorated as spec)
        exact (hbase.within (fun _ => hpasses'.trans) (fun _ => .of_passes hpasses') id).within
          (fun _ => hpasses.trans) (fun _ => .of_passes hpasses) False.elim
termination_by (s.length, 5)
decreasing_by simp [Prod.lex_def]; omega

theorem composition_near {s s' : List Char} (h : Near g s s') :
    (composition s).Agrees g (Passes s) (Apart s) False (composition s') := by
  have hfirst := constrained_near h
  rw [composition, composition]
  generalize constrained s = first at hfirst ⊢
  generalize constrained s' = first' at hfirst ⊢
  cases hfirst with
  | failed => exact .failed
  | lost hnever => exact hnever.elim
  | @done t r r' hr hr' hpasses hnear =>
    exact ((furtherMembers_near hnear).map (composed t)).after (fun _ => hpasses.trans)
      (fun _ => .of_passes hpasses)
  | apart hapart =>
    obtain ⟨_, hnone⟩ := furtherMembers_nothing (separator_nil '&')
    obtain ⟨_, hnone'⟩ := furtherMembers_nothing (separator_stuck hapart.stuck (by decide))
    dsimp only
    rw [hnone, hnone']
    exact .apart hapart
termination_by (s.length, 4)

theorem furtherMembers_near {s s' : List Char} (h : Near g s s') :
    (furtherMembers s).Agrees g (Passes s) (Apart s) (furtherMembers s') := by
  have hsign := sign_near '&' h (by decide) (by decide)
  rw [furtherMembers, furtherMembers]
  generalize separator ['&'] s = found at hsign ⊢
  generalize separator ['&'] s' = found' at hsign ⊢
  cases hsign with
  | none => exact .done (Passes.refl s) h
  | @some r r' hr hr' hpasses hnear =>
    have hfirst := constrained_near hnear
    dsimp only
    generalize constrained r = first at hfirst ⊢
    generalize constrained r' = first' at hfirst ⊢
    cases hfirst with
    | failed => exact .done (Passes.refl s) h
    | lost hnever => exact hnever.elim
    | @done t x x' hx hx' hpasses' hnear =>
      have hmore := (furtherMembers_near hnear).map (t :: ·)
      exact (hmore.within (fun _ => hpasses'.trans) (fun _ => .of_passes hpasses')).within
        (fun _ => hpasses.trans) (fun _ => .of_passes hpasses)
    | apart hapart =>
      obtain ⟨_, hnone⟩ := furtherMembers_nothing (separator_nil '&')
      obtain ⟨_, hnone'⟩ := furtherMembers_nothing (separator_stuck hapart.stuck (by decide))
      dsimp only
      rw [hnone, hnone']
      exact .apart (hapart.of_passes hpasses)
termination_by (s.length, 0)

theorem constrained_near {s s' : List Char} (h : Near g s s') :
    (constrained s).Agrees g (Passes s) (Apart s) False (constrained s') := by
  have hsuffixed := suffixed_near h
  rcases constraint_near h with hfound | ⟨hnone, wrap, hr, hsome⟩
  · rw [constrained, constrained]
    generalize constraint s = found at hfound ⊢
    generalize constraint s' = found' at hfound ⊢
    cases hfound with
    | none => exact hsuffixed
    | @some wrap r r' hr hr' hpasses hnear =>
      have hbase := composition_near hnear
      dsimp only
      generalize composition r = base at hbase ⊢
      generalize composition r' = base' at hbase ⊢
      cases hbase with
      | failed => exact hsuffixed
      | lost hnever => exact hnever.elim
      | done hpasses' hnear => exact .done (hpasses.trans hpasses') hnear
      | apart hapart => exact .apart (hapart.of_passes hpasses)
  · obtain ⟨_, hfails⟩ : (composition []).Fails := composition_fails nofun
    rw [constrained, hnone, constrained, hsome]
    dsimp only
    rw [hfails]
    exact hsuffixed
termination_by (s.length, 3)

theorem suffixed_near {s s' : List Char} (h : Near g s s') :
    (suffixed s).Agrees g (Passes s) (Apart s) False (suffixed s') := by
  have hprimary := primary_near h
  rw [suffixed, suffixed]
  generalize primary s = base at hprimary ⊢
  generalize primary s' = base' at hprimary ⊢
  cases hprimary with
  | failed => exact .failed
  | lost hnever => exact hnever.elim
  | @done t r r' hr hr' hpasses hnear =>
    exact (suffixes_near t hnear).after (fun _ => hpasses.trans) (fun _ => False.elim)
  | @apart t t' r' hr hr' hapart =>
    obtain ⟨_, hnone⟩ := suffixes_nothing (t := t) (suffix_eq_none (s := []) nofun nofun nofun)
    obtain ⟨_, hnone'⟩ := suffixes_nothing (t := t') (suffix_eq_none
      (hapart.stuck.head?_ne (c := '?') (by decide) (by decide))
      (hapart.stuck.head?_ne (c := '!') (by decide) (by decide))
      (hapart.stuck.head?_ne (c := '.') (by decide) (by decide)))
    dsimp only
    rw [hnone, hnone']
    exact .apart hapart
termination_by (s.length, 2)

theorem primary_near {s s' : List Char} (h : Near g s s') :
    (primary s).Agrees g (Passes s) (Apart s) False (primary s') := by
  have hparenthesized := parenthesized_near h
  have hcollection := collection_near h
  have hnominal := nominal_near h
  rw [primary, primary]
  generalize parenthesized s = list at hparenthesized ⊢
  generalize parenthesized s' = list' at hparenthesized ⊢
  cases hparenthesized with
  | done hpasses hnear => exact .done hpasses hnear
  | lost hnever => exact hnever.elim
  | apart hapart => exact .apart hapart
  | failed =>
    dsimp only
    generalize collection s = base at hcollection ⊢
    generalize collection s' = base' at hcollection ⊢
    cases hcollection with
    | done hpasses hnear => exact .done hpasses hnear
    | apart hnever => exact hnever.elim
    | lost hnever => exact hnever.elim
    | failed => exact hnominal.mono (fun _ => False.elim) id
termination_by (s.length, 1)

theorem nominal_near {s s' : List Char} (h : Near g s s') :
    (nominal s).Agrees g (Passes s) Never False (nominal s') := by
  have hname := identifier_near h
  rw [nominal, nominal]
  generalize identifier s = name at hname ⊢
  generalize identifier s' = name' at hname ⊢
  cases hname with
  | failed => exact .failed
  | apart hnever => exact hnever.elim
  | lost hnever => exact hnever.elim
  | @done name r r' hr hr' hpasses hnear =>
    have hgenerics := optionalGenerics_near hnear
    dsimp only
    generalize optionalGenerics r = generics at hgenerics ⊢
    generalize optionalGenerics r' = generics' at hgenerics ⊢
    cases hgenerics with
    | apart hnever => exact hnever.elim
    | @done gs x x' hx hx' hpasses' hnear =>
      have hmore := furtherSegments_near (.simple name gs) hnear
      exact (hmore.within (fun _ => hpasses'.trans) (fun _ => id)).after (fun _ => hpasses.trans)
        (fun _ => id)
termination_by (s.length, 0)

theorem furtherSegments_near {s s' : List Char} (t : TypeExpr) (h : Near g s s') :
    (furtherSegments t s).Agrees g (Passes s) Never (furtherSegments t s') := by
  have hname := memberName_near h
  rw [furtherSegments, furtherSegments]
  generalize memberName s = name at hname ⊢
  generalize memberName s' = name' at hname ⊢
  cases hname with
  | failed => exact .done (Passes.refl s) h
  | apart hnever => exact hnever.elim
  | lost hnever => exact hnever.elim
  | @done name r r' hr hr' hpasses hnear =>
    have hgenerics := optionalGenerics_near hnear
    dsimp only
    generalize optionalGenerics r = generics at hgenerics ⊢
    generalize optionalGenerics r' = generics' at hgenerics ⊢
    cases hgenerics with
    | apart hnever => exact hnever.elim
    | @done gs x x' hx hx' hpasses' hnear =>
      have hmore := furtherSegments_near (.nested name t gs) hnear
      exact (hmore.within (fun _ => hpasses'.trans) (fun _ => id)).within (fun _ => hpasses.trans)
        (fun _ => id)
termination_by (s.length, 0)

theorem optionalGenerics_near {s s' : List Char} (h : Near g s s') :
    (optionalGenerics s).Agrees g (Passes s) Never (optionalGenerics s') := by
  have hgenerics := genericArguments_near h
  rw [optionalGenerics, optionalGenerics]
  generalize genericArguments s = generics at hgenerics ⊢
  generalize genericArguments s' = generics' at hgenerics ⊢
  cases hgenerics with
  | done hpasses hnear => exact .done hpasses hnear
  | apart hnever => exact hnever.elim
  | lost hnever => exact hnever.elim
  | failed => exact .done (Passes.refl s) h
termination_by (s.length, 1)

theorem genericArguments_near {s s' : List Char} (h : Near g s s') :
    (genericArguments s).Agrees g (Passes s) Never False (genericArguments s') := by
  have hopening := bracket_near '<' h (by decide) (by decide)
  rw [genericArguments, genericArguments]
  generalize opening ['<'] s = found at hopening ⊢
  generalize opening ['<'] s' = found' at hopening ⊢
  cases hopening with
  | none => exact .failed
  | @some r r' hr hr' hpasses hnear =>
    have hfirst := typeExpr_near hnear
    obtain ⟨_, hnone⟩ := furtherTypes_nothing (separator_nil ',')
    dsimp only
    generalize typeExpr r = first at hfirst ⊢
    generalize typeExpr r' = first' at hfirst ⊢
    cases hfirst with
    | failed => exact .failed
    | lost =>
      dsimp only
      rw [hnone]
      exact .failed
    | apart hapart =>
      obtain ⟨_, hnone'⟩ := furtherTypes_nothing (separator_stuck hapart.stuck (by decide))
      have hopen := closing_eq_none (hapart.stuck.closed '>' (by decide))
      dsimp only
      rw [hnone, hnone']
      dsimp only
      rw [hopen]
      exact .failed
    | @done t x x' hx hx' hpasses' hnear =>
      have hmore := furtherTypes_near hnear
      dsimp only
      generalize furtherTypes x = more at hmore ⊢
      generalize furtherTypes x' = more' at hmore ⊢
      cases hmore with
      | apart hblocked =>
        have hopen := closing_eq_none (hblocked '>' (by decide))
        dsimp only
        rw [hopen]
        exact .failed
      | @done more y y' hy hy' hpasses'' hnear =>
        have hclosing := closingBracket_near '>' hnear (by decide) (by decide)
        dsimp only
        generalize closing ['>'] y = found at hclosing ⊢
        generalize closing ['>'] y' = found' at hclosing ⊢
        cases hclosing with
        | none => exact .failed
        | some hrest hnear =>
          exact .done (hpasses.trans (hpasses'.trans (hpasses''.trans hrest))) hnear
termination_by (s.length, 0)

theorem furtherTypes_near {s s' : List Char} (h : Near g s s') :
    (furtherTypes s).Agrees g (Passes s) (Blocked closingBrackets) (furtherTypes s') := by
  have hsign := sign_near ',' h (by decide) (by decide)
  rw [furtherTypes, furtherTypes]
  generalize separator [','] s = found at hsign ⊢
  generalize hs' : separator [','] s' = found' at hsign ⊢
  cases hsign with
  | none => exact .done (Passes.refl s) h
  | @some r r' hr hr' hpasses hnear =>
    have hblocked : Blocked closingBrackets s' :=
      blocked_of_separator (by rw [hs']; exact Option.some_ne_none _) (by decide)
    have hfirst := typeExpr_near hnear
    obtain ⟨_, hnone⟩ := furtherTypes_nothing (separator_nil ',')
    dsimp only
    generalize typeExpr r = first at hfirst ⊢
    generalize typeExpr r' = first' at hfirst ⊢
    cases hfirst with
    | failed => exact .done (Passes.refl s) h
    | lost =>
      dsimp only
      rw [hnone]
      exact .apart hblocked
    | apart hapart =>
      obtain ⟨_, hnone'⟩ := furtherTypes_nothing (separator_stuck hapart.stuck (by decide))
      dsimp only
      rw [hnone, hnone']
      exact .apart hapart.stuck.closed
    | @done t x x' hx hx' hpasses' hnear =>
      have hmore := (furtherTypes_near hnear).map (t :: ·)
      exact (hmore.within (fun _ => hpasses'.trans) (fun _ => id)).within (fun _ => hpasses.trans)
        (fun _ => id)
termination_by (s.length, 0)

theorem collection_near {s s' : List Char} (h : Near g s s') :
    (collection s).Agrees g (Passes s) Never False (collection s') := by
  have hopening := bracket_near '[' h (by decide) (by decide)
  rw [collection, collection]
  generalize opening ['['] s = found at hopening ⊢
  generalize opening ['['] s' = found' at hopening ⊢
  cases hopening with
  | none => exact .failed
  | @some r r' hr hr' hpasses hnear =>
    have hfirst := typeExpr_near hnear
    obtain ⟨_, hnone⟩ := dictionaryValue_nothing (separator_nil ':')
    dsimp only
    generalize typeExpr r = first at hfirst ⊢
    generalize typeExpr r' = first' at hfirst ⊢
    cases hfirst with
    | failed => exact .failed
    | lost =>
      dsimp only
      rw [hnone]
      exact .failed
    | apart hapart =>
      obtain ⟨_, hnone'⟩ := dictionaryValue_nothing (separator_stuck hapart.stuck (by decide))
      have hopen := closing_eq_none (hapart.stuck.closed ']' (by decide))
      dsimp only
      rw [hnone, hnone']
      dsimp only
      rw [hopen]
      exact .failed
    | @done t x x' hx hx' hpasses' hnear =>
      have hvalue := dictionaryValue_near hnear
      dsimp only
      generalize dictionaryValue x = value at hvalue ⊢
      generalize dictionaryValue x' = value' at hvalue ⊢
      cases hvalue with
      | apart hblocked =>
        have hopen := closing_eq_none (hblocked ']' (by decide))
        dsimp only
        rw [hopen]
        exact .failed
      | @done value y y' hy hy' hpasses'' hnear =>
        have hclosing := closingBracket_near ']' hnear (by decide) (by decide)
        dsimp only
        generalize closing [']'] y = found at hclosing ⊢
        generalize closing [']'] y' = found' at hclosing ⊢
        cases hclosing with
        | none => exact .failed
        | some hrest hnear =>
          exact .done (hpasses.trans (hpasses'.trans (hpasses''.trans hrest))) hnear
termination_by (s.length, 0)

theorem dictionaryValue_near {s s' : List Char} (h : Near g s s') :
    (dictionaryValue s).Agrees g (Passes s) (Blocked closingBrackets) (dictionaryValue s') := by
  have hsign := sign_near ':' h (by decide) (by decide)
  rw [dictionaryValue, dictionaryValue]
  generalize separator [':'] s = found at hsign ⊢
  generalize hs' : separator [':'] s' = found' at hsign ⊢
  cases hsign with
  | none => exact .done (Passes.refl s) h
  | @some r r' hr hr' hpasses hnear =>
    have hblocked : Blocked closingBrackets s' :=
      blocked_of_separator (by rw [hs']; exact Option.some_ne_none _) (by decide)
    have hvalue := typeExpr_near hnear
    dsimp only
    generalize typeExpr r = value at hvalue ⊢
    generalize typeExpr r' = value' at hvalue ⊢
    cases hvalue with
    | failed => exact .done (Passes.refl s) h
    | lost => exact .apart hblocked
    | apart hapart => exact .apart hapart.stuck.closed
    | done hpasses' hnear => exact .done (hpasses.trans hpasses') hnear
termination_by (s.length, 0)

theorem element_near {s s' : List Char} (h : Near g s s') :
    (element s).Agrees g (Passes s) (Blocked (',' :: closingBrackets)) True (element s') := by
  have hlabel := elementLabel_near h
  have hsub : ',' :: closingBrackets ⊆ ',' :: '&' :: ':' :: closingBrackets := by decide
  have hwhole : ((typeExpr s).map (Labelled.mk none)).Agrees g (Passes s)
      (Blocked (',' :: closingBrackets)) True ((typeExpr s').map (Labelled.mk none)) :=
    ((typeExpr_near h).map _).mono (fun _ hapart => hapart.stuck.blocked.mono hsub) (fun _ => trivial)
  rw [element, element]
  generalize elementLabel s = label at hlabel ⊢
  generalize hs' : elementLabel s' = label' at hlabel ⊢
  cases hlabel with
  | none => exact hwhole
  | @some label r r' hr hr' hpasses hnear =>
    have hvalue := typeExpr_near hnear
    dsimp only
    generalize typeExpr r = value at hvalue ⊢
    generalize typeExpr r' = value' at hvalue ⊢
    cases hvalue with
    | failed => exact hwhole
    | done hpasses' hnear => exact .done (hpasses.trans hpasses') hnear
    | apart hapart => exact .apart (hapart.stuck.blocked.mono hsub)
    | lost =>
      -- without its type the label is read as a type of its own, before its colon
      dsimp only
      rcases typeExpr_of_elementLabel hs' with ⟨_, hfails⟩ | ⟨t, rest, ⟨_, hreads⟩, hcolon⟩
      · rw [hfails]
        exact .lost trivial
      · rw [hreads]
        refine .apart fun c hc => ?_
        rw [hcolon]
        rintro ⟨⟩
        exact absurd hc (by decide)
termination_by (s.length, 6)

theorem elements_near {s s' : List Char} (h : Near g s s') :
    (elements s).Agrees g (Passes s) (Blocked closingBrackets) (elements s') := by
  have hfirst := element_near h
  obtain ⟨_, hnone⟩ := furtherElements_nothing (separator_nil ',')
  rw [elements, elements]
  generalize hs : element s = first at hfirst ⊢
  generalize element s' = first' at hfirst ⊢
  cases hfirst with
  | failed => exact .done (Passes.refl s) h
  | lost =>
    dsimp only
    rw [hnone]
    -- the element starts at the front of the text, and a closing bracket starts none
    have hfront : ∃ d, s.head? = some d ∧ isGap d = false ∧ d ∉ closingBrackets := by
      by_contra hnot
      obtain ⟨_, hfails⟩ := element_fails_of_head (s := s) fun c hc => by
        by_contra hother
        exact hnot ⟨c, hc, Bool.eq_false_iff.2 fun hgap => hother (.inl hgap), fun hc => hother (.inr hc)⟩
      rw [hs] at hfails
      cases hfails
    obtain ⟨d, hd, hgap, hopen⟩ := hfront
    exact .apart (blocked_of_head ((h.head?_iff hgap).2 hd) hgap hopen)
  | apart hblocked =>
    obtain ⟨_, hnone'⟩ := furtherElements_nothing (separator_eq_none (hblocked ',' (by decide)))
    dsimp only
    rw [hnone, hnone']
    exact .apart (hblocked.mono (by decide))
  | @done e r r' hr hr' hpasses hnear =>
    exact ((furtherElements_near hnear).map (e :: ·)).within (fun _ => hpasses.trans) (fun _ => id)
termination_by (s.length, 7)

theorem furtherElements_near {s s' : List Char} (h : Near g s s') :
    (furtherElements s).Agrees g (Passes s) (Blocked closingBrackets) (furtherElements s') := by
  have hsign := sign_near ',' h (by decide) (by decide)
  rw [furtherElements, furtherElements]
  generalize separator [','] s = found at hsign ⊢
  generalize hs' : separator [','] s' = found' at hsign ⊢
  cases hsign with
  | none => exact .done (Passes.refl s) h
  | @some r r' hr hr' hpasses hnear =>
    have hblocked : Blocked closingBrackets s' :=
      blocked_of_separator (by rw [hs']; exact Option.some_ne_none _) (by decide)
    have hfirst := element_near hnear
    obtain ⟨_, hnone⟩ := furtherElements_nothing (separator_nil ',')
    dsimp only
    generalize element r = first at hfirst ⊢
    generalize element r' = first' at hfirst ⊢
    cases hfirst with
    | failed => exact .done (Passes.refl s) h
    | lost =>
      dsimp only
      rw [hnone]
      exact .apart hblocked
    | apart hrest =>
      obtain ⟨_, hnone'⟩ := furtherElements_nothing (separator_eq_none (hrest ',' (by decide)))
      dsimp only
      rw [hnone, hnone']
      exact .apart (hrest.mono (by decide))
    | @done e x x' hx hx' hpasses' hnear =>
      have hmore := (furtherElements_near hnear).map (e :: ·)
      exact (hmore.within (fun _ => hpasses'.trans) (fun _ => id)).within (fun _ => hpasses.trans)
        (fun _ => id)
termination_by (s.length, 0)

theorem closureTail_near {s s' : List Char} (h : Near g s s') :
    (closureTail s).Agrees g (Passes s) (Apart s) (EndsInArrow s) (closureTail s') := by
  have hasync := effect_near "async".toList h (List.all_eq_true.1 (by decide)) (by decide)
  rw [closureTail, closureTail]
  generalize effect "async".toList s = outcome at hasync ⊢
  generalize effect "async".toList s' = outcome' at hasync ⊢
  cases hasync with
  | apart hnever => exact hnever.elim
  | @done isAsync r r' hr hr' hpasses hnear =>
    have hthrows := effect_near "throws".toList hnear (List.all_eq_true.1 (by decide)) (by decide)
    dsimp only
    generalize effect "throws".toList r = outcome at hthrows ⊢
    generalize effect "throws".toList r' = outcome' at hthrows ⊢
    cases hthrows with
    | apart hnever => exact hnever.elim
    | @done canThrow x x' hx hx' hpasses' hnear =>
      have hsign := arrow_near hnear
      dsimp only
      generalize separator ['-', '>'] x = found at hsign ⊢
      generalize separator ['-', '>'] x' = found' at hsign ⊢
      cases hsign with
      | none => exact .failed
      | @some y y' hy hy' harrow hnear =>
        obtain ⟨b, z, hb, rfl, rfl⟩ := harrow
        dsimp only
        by_cases hbare : IsBare (skipGaps z)
        · obtain ⟨⟨t, _, hreads⟩, _, hfails⟩ := typeExpr_of_isBare hnear hbare
          rw [hreads, hfails]
          have harrow := (endsInArrow_of_isBare hbare).of_passes (passes_gaps hb (Passes.refl _))
          exact .lost ((harrow.of_passes hpasses').of_passes hpasses)
        · have harrow := passes_gaps hb (passes_arrow hbare)
          have hresult := (typeExpr_near hnear).map (isAsync, canThrow, ·)
          have hlost : IsBare (skipGaps z) → EndsInArrow s := fun hbare' => absurd hbare' hbare
          exact ((hresult.within (fun _ => harrow.trans) (fun _ => Apart.of_passes harrow) hlost).within
            (fun _ => hpasses'.trans) (fun _ => .of_passes hpasses') id).within
            (fun _ => hpasses.trans) (fun _ => .of_passes hpasses) id
termination_by (s.length, 0)

theorem parenthesized_near {s s' : List Char} (h : Near g s s') :
    (parenthesized s).Agrees g (Passes s) (Apart s) False (parenthesized s') := by
  have hopening := bracket_near '(' h (by decide) (by decide)
  rw [parenthesized, parenthesized]
  generalize opening ['('] s = found at hopening ⊢
  generalize opening ['('] s' = found' at hopening ⊢
  cases hopening with
  | none => exact .failed
  | @some r r' hr hr' hpasses hnear =>
    have helements := elements_near hnear
    dsimp only
    generalize elements r = list at helements ⊢
    generalize elements r' = list' at helements ⊢
    cases helements with
    | apart hblocked =>
      have hopen := closing_eq_none (hblocked ')' (by decide))
      dsimp only
      rw [hopen]
      exact .failed
    | @done es x x' hx hx' hpasses' hnear =>
      have hclosing := closingBracket_near ')' hnear (by decide) (by decide)
      dsimp only
      generalize closing [')'] x = found at hclosing ⊢
      generalize closing [')'] x' = found' at hclosing ⊢
      cases hclosing with
      | none => exact .failed
      | @some y y' hy hy' hpasses'' hnear =>
        have hlist := hpasses.trans (hpasses'.trans hpasses'')
        have htail := closureTail_near hnear
        dsimp only
        generalize hread : closureTail y = tail at htail ⊢
        generalize closureTail y' = tail' at htail ⊢
        cases htail with
        | failed => exact .done hlist hnear
        | done hrest hnear => exact .done (hlist.trans hrest) hnear
        | apart hapart => exact .apart (hapart.of_passes hlist)
        | lost hends =>
          have hstuck : Stuck y' := by
            refine stuck_of_closureTail ?_ hnear
            rintro ⟨_, hfails⟩
            rw [hread] at hfails
            cases hfails
          exact .apart ⟨hends.of_passes hlist, hstuck⟩
termination_by (s.length, 0)

end

end Wiring.TypeExpr.Grammar
