import Wiring.Proofs.TypeExpr.TrailingRules

/-!
# White space at the ends of a text

A text is read without the white space of Unicode at its ends when it spells no type, and as it is when it
does. The grammar knows less white space, and it takes a specifier at the end of a text for a name only if
nothing comes after it. So there are texts that spell a type only without the white space at their ends:
they are read as unknown text, which spells a type.

* `IsTrimmable`: the white space at the ends makes no difference.
* `parse_eq_ok_iff_trim`: a text spells a type exactly if it does so without the white space at its ends,
  and that makes no difference.
* `read_trim_iff`: the texts that are read as the same type without the white space at their ends.
-/

namespace Wiring.TypeExpr

open Text Grammar

variable {t : TypeExpr} {s s' before after : List Char} {text : String} {g : Spaces}

/-- **A text stands for a type**, with white space after it at most. -/
def StandsFor (s : List Char) (t : TypeExpr) : Prop :=
  ∃ rest, (typeExpr s).Reads t rest ∧ AreGaps rest

theorem parse_eq_ok_iff :
    parse text = .ok t ↔ trimChars text.toList ≠ [] ∧ StandsFor (skipGaps text.toList) t := by
  constructor
  · intro h
    unfold parse at h
    simp only at h
    split at h
    · cases h
    · rename_i hne
      refine ⟨fun hnil => hne (List.isEmpty_iff.2 hnil), ?_⟩
      split at h
      · cases h
      · rename_i u rest hrest hread
        split at h
        · rename_i hgaps
          cases h
          exact ⟨rest, ⟨hrest, hread⟩, skipGaps_eq_nil_iff.1 (List.isEmpty_iff.1 hgaps)⟩
        · cases h
  · rintro ⟨hne, rest, hreads, hgaps⟩
    exact parse_reads hne hreads (skipGaps_of_areGaps hgaps)

/-- **White space after a text** changes what it stands for if the text ends in a specifier alone, and only
then. -/
theorem standsFor_near (h : Near g s s') : StandsFor s' t ↔ StandsFor s t ∧ ¬ EndsBare s := by
  have hagrees := typeExpr_near h
  by_cases hbare : IsBare s
  · obtain ⟨-, place, hfails⟩ := typeExpr_of_isBare h hbare
    refine ⟨?_, fun hs => absurd (.inl hbare) hs.2⟩
    rintro ⟨rest, ⟨_, hreads⟩, -⟩
    rw [hfails] at hreads
    cases hreads
  unfold StandsFor Reading.Reads
  generalize typeExpr s = reading at hagrees ⊢
  generalize typeExpr s' = reading' at hagrees ⊢
  cases hagrees with
  | failed =>
    constructor
    · rintro ⟨rest, ⟨_, ⟨⟩⟩, -⟩
    · rintro ⟨⟨rest, ⟨_, ⟨⟩⟩, -⟩, -⟩
  | lost hbare' => exact absurd hbare' hbare
  | apart hapart =>
    constructor
    · rintro ⟨rest, ⟨_, ⟨⟩⟩, hgaps⟩
      obtain ⟨c, hc, -⟩ := hapart.stuck
      rw [skipGaps_of_areGaps hgaps] at hc
      cases hc
    · exact fun hs => absurd (.inr hapart.ends.arrow) hs.2
  | @done u r r' hr hr' hpasses hnear =>
    constructor
    · rintro ⟨rest, ⟨_, ⟨⟩⟩, hgaps⟩
      have hgaps := hnear.areGaps_iff.1 hgaps
      exact ⟨⟨r, ⟨hr, rfl⟩, hgaps⟩, hpasses.not_endsBare hbare hgaps⟩
    · rintro ⟨⟨rest, ⟨_, ⟨⟩⟩, hgaps⟩, -⟩
      exact ⟨r', ⟨hr', rfl⟩, hnear.areGaps_iff.2 hgaps⟩

/-- A text that stands for a type has no white space but that between words. -/
theorem StandsFor.gaps (h : StandsFor s t) : ∀ c ∈ s, isBlank c = true → isGap c = true := by
  have hagrees := typeExpr_near (near_append .single s)
  obtain ⟨rest, ⟨_, hreads⟩, hgaps⟩ := h
  rw [hreads] at hagrees
  generalize typeExpr (s ++ Spaces.single.chars) = reading' at hagrees
  cases hagrees with
  | lost hbare => exact hbare.gaps
  | apart hapart => exact hapart.ends.gaps
  | done hpasses =>
    obtain ⟨front, rfl, hfront⟩ := hpasses.front
    exact List.forall_mem_append.2 ⟨hfront, fun c hc _ => hgaps c hc⟩

/-- **A text that spells a type has no white space but that between words**, also at its ends. -/
theorem gaps_of_parse (h : parse text = .ok t) : ∀ c ∈ text.toList, isBlank c = true → isGap c = true := by
  obtain ⟨b, hb, htext⟩ := exists_gaps text.toList
  rw [htext]
  exact List.forall_mem_append.2 ⟨fun c hc _ => hb c hc, (parse_eq_ok_iff.1 h).2.gaps⟩

/-! ## White space at both ends -/

/-- What a text spells with white space around it. -/
theorem parse_surrounded {core : String} (hcore : Begins core.toList) (hbefore : AreGaps before)
    (hafter : AreGaps after) (htext : text.toList = before ++ (core.toList ++ after)) :
    parse text = .ok t ↔ parse core = .ok t ∧ (after = [] ∨ ¬ EndsBare core.toList) := by
  have hskip : skipGaps text.toList = core.toList ++ after := by
    rw [htext, skipGaps_append hbefore, (hcore.append after).skipGaps_eq]
  obtain ⟨c, cs, hchars, hc⟩ := hcore
  have hmem : c ∈ core.toList := hchars ▸ List.mem_cons_self
  have hne : trimChars text.toList ≠ [] := by
    refine List.ne_nil_of_mem (mem_trimChars ?_ hc)
    rw [htext]
    exact List.mem_append_right _ (List.mem_append_left _ hmem)
  have hne' : trimChars core.toList ≠ [] := List.ne_nil_of_mem (mem_trimChars hmem hc)
  rw [parse_eq_ok_iff, parse_eq_ok_iff, hskip, Begins.skipGaps_eq ⟨c, cs, hchars, hc⟩]
  simp only [hne, hne', ne_eq, not_false_eq_true, true_and]
  by_cases hnil : after = []
  · simp [hnil]
  · simp only [hnil, false_or]
    exact standsFor_near (near_append ⟨after, hafter, hnil⟩ core.toList)

/-- **The white space at the ends of a text makes no difference**: it is white space between words, and if
there is some at the end, the text does not end in a specifier alone before it. -/
def IsTrimmable (text : String) : Prop :=
  ∃ before after, text.toList = before ++ ((trim text).toList ++ after) ∧ AreGaps before ∧
    AreGaps after ∧ (after = [] ∨ ¬ EndsBare (trim text).toList)

/-- **A text spells a type exactly if it does so without the white space at its ends**, and that makes no
difference. -/
theorem parse_eq_ok_iff_trim :
    parse text = .ok t ↔ parse (trim text) = .ok t ∧ IsTrimmable text := by
  have hbegins : trimChars text.toList ≠ [] → Begins (trim text).toList := by
    intro hne
    rw [trim, String.toList_ofList]
    exact trimChars_begins hne
  constructor
  · intro h
    obtain ⟨before, after, htext, hblank⟩ := exists_trimmed text.toList
    rw [← String.toList_ofList (l := trimChars text.toList), ← trim] at htext
    have hgaps : AreGaps (before ++ after) := by
      intro c hc
      refine gaps_of_parse h c ?_ (hblank c hc)
      rw [htext]
      exact (List.mem_append.1 hc).elim (List.mem_append_left _) fun hc =>
        List.mem_append_right _ (List.mem_append_right _ hc)
    obtain ⟨hbefore, hafter⟩ := List.forall_mem_append.1 hgaps
    obtain ⟨hparse, hends⟩ :=
      (parse_surrounded (hbegins (parse_eq_ok_iff.1 h).1) hbefore hafter htext).1 h
    exact ⟨hparse, before, after, htext, hbefore, hafter, hends⟩
  · rintro ⟨hparse, before, after, htext, hbefore, hafter, hends⟩
    have hne : trimChars text.toList ≠ [] := by
      have hne := (parse_eq_ok_iff.1 hparse).1
      rwa [trim, String.toList_ofList, trimChars_trimChars] at hne
    exact (parse_surrounded (hbegins hne) hbefore hafter htext).2 ⟨hparse, hends⟩

/-- A type that was read is never unknown text. -/
theorem parse_ne_unknown (u : String) : parse text ≠ .ok (.unknown u) := by
  intro h
  cases parsed_of_parse h

theorem read_of_parse (h : parse text = .ok t) : read text = t := by
  rw [read, h]

theorem read_of_forall_ne (h : ∀ t, parse text ≠ .ok t) : read text = .unknown (trim text) := by
  unfold read
  split
  · rename_i t hparse
    exact absurd hparse (h t)
  · rfl

/-- What spells no type without the white space at its ends is unknown text either way. -/
theorem read_trim_of_forall_ne (h : ∀ t, parse (trim text) ≠ .ok t) :
    read text = .unknown (trim text) ∧ read (trim text) = .unknown (trim text) := by
  have htrim := read_of_forall_ne h
  rw [trim_trim] at htrim
  exact ⟨read_of_forall_ne fun t ht => h t (parse_eq_ok_iff_trim.1 ht).1, htrim⟩

/-- What spells a type without the white space at its ends is that type, or unknown text if the white space
makes a difference. -/
theorem read_of_parse_trim (h : parse (trim text) = .ok t) :
    (IsTrimmable text ∧ read text = t) ∨ (¬ IsTrimmable text ∧ read text = .unknown (trim text)) := by
  by_cases htrimmable : IsTrimmable text
  · exact .inl ⟨htrimmable, read_of_parse (parse_eq_ok_iff_trim.2 ⟨h, htrimmable⟩)⟩
  · exact .inr ⟨htrimmable, read_of_forall_ne fun u hu => htrimmable (parse_eq_ok_iff_trim.1 hu).2⟩

/-- **Which texts are read as the same type without the white space at their ends**: those where it makes no
difference, and those that spell no type without it. All others are read as unknown text that spells a type,
and no other text is. -/
theorem read_trim_iff (text : String) :
    (∀ t, parse text = .ok t ↔ parse (trim text) = .ok t ∧ IsTrimmable text) ∧
      (read text = read (trim text) ↔ IsTrimmable text ∨ ∀ t, parse (trim text) ≠ .ok t) ∧
      ((∃ u t, read text = .unknown u ∧ parse u = .ok t) ↔ read text ≠ read (trim text)) := by
  refine ⟨fun t => parse_eq_ok_iff_trim, ?_⟩
  by_cases hspells : ∃ t, parse (trim text) = .ok t
  · obtain ⟨t, hparse⟩ := hspells
    have hne : ∀ u, t ≠ .unknown u := by
      rintro u rfl
      exact parse_ne_unknown u hparse
    rw [read_of_parse hparse]
    rcases read_of_parse_trim hparse with ⟨htrimmable, hread⟩ | ⟨htrimmable, hread⟩
    · rw [hread]
      refine ⟨iff_of_true rfl (.inl htrimmable), iff_of_false ?_ (not_not_intro rfl)⟩
      rintro ⟨u, -, rfl, -⟩
      exact hne u rfl
    · rw [hread]
      refine ⟨iff_of_false (Ne.symm (hne _)) ?_, iff_of_true ⟨_, t, rfl, hparse⟩ (Ne.symm (hne _))⟩
      rintro (htrimmable' | hnone)
      · exact htrimmable htrimmable'
      · exact hnone t hparse
  · have hnone : ∀ t, parse (trim text) ≠ .ok t := fun t ht => hspells ⟨t, ht⟩
    obtain ⟨hread, hread'⟩ := read_trim_of_forall_ne hnone
    rw [hread, hread']
    refine ⟨iff_of_true rfl (.inr hnone), iff_of_false ?_ (not_not_intro rfl)⟩
    rintro ⟨u, t, hu, hparse⟩
    cases hu
    exact hnone t hparse

/-! ## Types hidden by white space -/

/-- A name that is a specifier, too, is a type only if nothing comes after it. -/
theorem read_spaced_specifier : read "inout " = .unknown "inout" ∧ ∃ t, parse "inout" = .ok t := by
  have hattributes : (attributes "inout".toList).rest = "inout".toList := by
    obtain ⟨_, hnone⟩ := attributes_nothing (s := "inout".toList) (by decide)
    rw [hnone]
  have hbare : IsBare "inout".toList := ⟨"inout", by decide, hattributes⟩
  have hfails : ∀ t, parse "inout " ≠ .ok t := fun t ht => by
    have htext : "inout ".toList = [] ++ ("inout".toList ++ [' ']) := by decide
    have hsurrounded := parse_surrounded (t := t) ⟨'i', _, rfl, by decide⟩ (by decide) (by decide) htext
    rcases (hsurrounded.1 ht).2 with hnil | hends
    · cases hnil
    · exact hends (.inl hbare)
  obtain ⟨⟨t, hreads⟩, -⟩ := typeExpr_of_isBare (near_append .single _) hbare
  exact ⟨read_of_forall_ne hfails, t, parse_reads (by decide) hreads rfl⟩

/-- A no-break space is white space, but not between words. -/
theorem read_no_break_space :
    read "\u00a0Int" = .unknown "Int" ∧ parse "Int" = .ok (.simple "Int" []) := by
  have hfails : ∀ t, parse "\u00a0Int" ≠ .ok t := fun t ht =>
    absurd (gaps_of_parse ht '\u00a0' (by decide) (by decide)) (by decide)
  have hwhole := (readable (.simple "Int" []) (by decide) (by decide)).whole
  have hparse : parse ("" ++ "Int" ++ "") = .ok (.simple "Int" []) :=
    parse_of_isWhole hwhole (by decide) (by decide) nofun (spells_source _)
  exact ⟨read_of_forall_ne hfails, hparse⟩

/-- **White space at the ends hides types**: with it, a text is unknown, and without it, the text spells a
type. -/
theorem white_space_hides_types :
    ¬ (∀ text, read text = read (trim text)) ∧ ¬ ∀ text u t, read text = .unknown u → parse u ≠ .ok t := by
  constructor
  · intro h
    have hsame := h "\u00a0Int"
    have htrim : trim "\u00a0Int" = "Int" := by decide
    rw [htrim, read_no_break_space.1, read_of_parse read_no_break_space.2] at hsame
    cases hsame
  · intro h
    obtain ⟨hread, t, hparse⟩ := read_spaced_specifier
    exact h _ _ t hread hparse

end Wiring.TypeExpr
