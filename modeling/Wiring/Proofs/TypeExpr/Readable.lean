import Wiring.Proofs.TypeExpr.Rules
import Wiring.Proofs.TypeExpr.Spelling

/-!
# Types that are read back

How a type is read depends on where it stands: as a whole, after `some`, as a member of a composition,
below a postfix operator, before the next name. For each place it is said what reading back means there,
and a type is readable if it is read back in all of them. What may come after the type is part of it: the
grammar reads as much as it can, so a text is read up to the right place only if what comes next does not
continue it.

All of it is said of the texts that spell a type, and also of the canonical text alone, which is narrow: it
has white space only where the layout asks for it.

* `typeEnds`, `operandEnds`, `nameEnds`: the signs that stop the reading; `Ends`: one of them comes next.
* `Opens`, `Leads`: the front of a text, which says that no label and no specifier is there.
* `IsWhole`, `IsBase`, `IsFree`, `IsOperand`, `IsName`, `Readable`: what is read back.
* `further_reads`: lists are read back item by item; `parentheses_read`: lists in parentheses.
* `Readable.of_operand`, `Readable.of_base`: of the places one is enough.
-/

namespace Wiring.TypeExpr.Grammar

open Text

variable {narrow : Bool} {s rest ends g : List Char} {t u : TypeExpr} {c : Char} {w : String}

/-! ## What comes after a type -/

/-- The signs that end a type. -/
def typeEnds : List Char :=
  [',', ':', ')', ']', '>']

/-- The signs that end an operand, where the signs `ends` end a type: postfix operators as well, and those
that join it with something else. -/
def operandEnds (ends : List Char) : List Char :=
  '?' :: '!' :: '.' :: '&' :: ends

/-- The signs that end a name, where the signs `ends` end a type. -/
def nameEnds (ends : List Char) : List Char :=
  '<' :: operandEnds ends

/-- The signs that end a tuple element. -/
def elementEnds : List Char :=
  [',', ')']

theorem elementEnds_subset : elementEnds ⊆ typeEnds := by
  simp [elementEnds, typeEnds]

theorem subset_operandEnds : ends ⊆ operandEnds ends := by
  intro c hc
  simp [operandEnds, hc]

theorem operandEnds_mono {ends' : List Char} (h : ends ⊆ ends') : operandEnds ends ⊆ operandEnds ends' := by
  intro c hc
  simp only [operandEnds, List.mem_cons] at hc ⊢
  exact hc.imp_right (.imp_right (.imp_right (.imp_right (@h c))))

theorem nameEnds_mono {ends' : List Char} (h : ends ⊆ ends') : nameEnds ends ⊆ nameEnds ends' :=
  List.cons_subset_cons _ (operandEnds_mono h)

/-- None of these signs belongs to a name, a keyword or the start of a type. -/
theorem of_mem_nameEnds (h : c ∈ nameEnds typeEnds) :
    isIdentifierChar c = false ∧ (isAlphanumeric c = false ∧ c ≠ '_') ∧ isTypeStart c = false ∧
      isGap c = false := by
  simp only [nameEnds, operandEnds, typeEnds, List.mem_cons, List.not_mem_nil, or_false] at h
  rcases h with rfl | rfl | rfl | rfl | rfl | rfl | rfl | rfl | rfl | rfl <;> decide

theorem endsWord_of_nameEnds (h : Follows (nameEnds typeEnds) s) : EndsWord s :=
  endsWord_of_follows h fun _ hc => (of_mem_nameEnds hc).1

/-- **A type ends here**: one of the signs `ends` comes next, and in a narrow text it does so at once. -/
structure Ends (narrow : Bool) (ends s : List Char) : Prop where
  follows : Follows ends s
  adjoins : narrow = true → Adjoins s

theorem Ends.mono {ends' : List Char} (h : Ends narrow ends s) (hends : ends ⊆ ends') :
    Ends narrow ends' s :=
  ⟨h.follows.mono hends, h.adjoins⟩

theorem ends_of_follows (h : Follows ends s) : Ends false ends s :=
  ⟨h, by simp⟩

theorem ends_nil : Ends narrow ends [] :=
  ⟨follows_nil, fun _ => adjoins_nil⟩

/-- A sign that the canonical text has no white space before. -/
theorem ends_append_cons (hg : Fills narrow "" g) (hc : isGap c = false) (hends : c ∈ ends) :
    Ends narrow ends (g ++ c :: s) := by
  refine ⟨follows_append_cons hg.1 hc hends, ?_⟩
  intro hnarrow
  rw [hg.2 hnarrow]
  exact adjoins_cons hc

/-! ## What a type begins with -/

/-- **The text of an operand opens with a bracket or a name**, and after the name comes a sign. -/
inductive Opens (ends : List Char) : List Char → Prop
  | bracket {c : Char} {s : List Char} : c = '(' ∨ c = '[' → Opens ends (c :: s)
  | name {w : String} {s : List Char} : isIdentifier w = true → Follows (nameEnds ends) s →
    Opens ends (w.toList ++ s)

/-- The text starts like a type or a specifier. -/
def Starts (s : List Char) : Prop :=
  ∃ c cs, s = c :: cs ∧ isTypeStart c = true

/-- **The text of a type leads with something that starts a type**, and no specifier is in front. -/
structure Leads (s : List Char) : Prop where
  starts : Starts s
  free : (specifier s).Reads none s

theorem toNat_of_isTypeStart (h : isTypeStart c = true) :
    c.toNat = 40 ∨ c.toNat = 91 ∨ (65 ≤ c.toNat ∧ c.toNat ≤ 122) := by
  simp only [isTypeStart, isIdentifierStart, Bool.or_eq_true, decide_eq_true_eq] at h
  rcases h with (rfl | rfl) | hletter | rfl
  · exact .inl rfl
  · exact .inr (.inl rfl)
  · have hcase : c.isUpper = true ∨ c.isLower = true := Bool.or_eq_true_iff.1 hletter
    rcases hcase with hupper | hlower
    · have hrange : 'A'.val ≤ c.val ∧ c.val ≤ 'Z'.val := of_decide_eq_true hupper
      simp only [UInt32.le_iff_toNat_le] at hrange
      exact .inr (.inr ⟨hrange.1, Nat.le_trans hrange.2 (by decide)⟩)
    · have hrange := Bool.and_eq_true_iff.1 hlower
      simp only [decide_eq_true_eq, ge_iff_le, UInt32.le_iff_toNat_le] at hrange
      exact .inr (.inr ⟨Nat.le_trans (by decide) hrange.1, hrange.2⟩)
  · exact .inr (.inr (by decide))

/-- A character that starts a type is no white space. -/
theorem isBlank_of_isTypeStart (h : isTypeStart c = true) : isBlank c = false := by
  have hcode := toNat_of_isTypeStart h
  simp only [isBlank, blankRanges, inRanges, Bool.and_eq_false_iff, Bool.or_eq_false_iff,
    decide_eq_false_iff_not]
  omega

theorem Starts.begins (h : Starts s) : Begins s := by
  obtain ⟨c, cs, rfl, hc⟩ := h
  exact ⟨c, cs, rfl, isBlank_of_isTypeStart hc⟩

/-- No sign starts a type. -/
theorem Starts.head_ne (h : Starts s) (hc : isTypeStart c = false) : s.head? ≠ some c := by
  obtain ⟨d, cs, rfl, hd⟩ := h
  intro heq
  obtain rfl : d = c := by simpa using heq
  rw [hd] at hc
  cases hc

/-- A name starts a type. -/
theorem starts_identifier (hw : isIdentifier w = true) (s : List Char) : Starts (w.toList ++ s) := by
  obtain ⟨c, cs, hchars, hc, -⟩ := exists_of_isIdentifier hw
  exact ⟨c, cs ++ s, by rw [hchars, List.cons_append], by simp [isTypeStart, hc]⟩

/-- A bracket leads a type. -/
theorem leads_bracket (hc : c = '(' ∨ c = '[') (s : List Char) : Leads (c :: s) := by
  have hend : EndsWord (c :: s) := by
    intro d hd
    obtain rfl : c = d := by simpa using hd
    rcases hc with rfl | rfl <;> decide
  refine ⟨⟨c, s, rfl, by rcases hc with rfl | rfl <;> decide⟩, specifier_nothing ?_⟩
  rw [takeWhile_of_endsWord hend]
  decide

/-- **A name leads a type** if it is no specifier, or else if no white space follows it. -/
theorem leads_identifier (hw : isIdentifier w = true) (hfree : w ∈ specifiers → Adjoins s)
    (h : EndsWord s) : Leads (w.toList ++ s) := by
  refine ⟨starts_identifier hw s, ?_⟩
  by_cases hspecifier : w ∈ specifiers
  · exact specifier_nothing_of_adjoins (all_of_isIdentifier hw) h (hfree hspecifier)
  · refine specifier_nothing ?_
    rw [takeWhile_name (all_of_isIdentifier hw) h, String.ofList_toList]
    exact hspecifier

theorem Opens.starts (h : Opens ends s) : Starts s := by
  cases h with
  | @bracket c s hc => exact (leads_bracket hc s).starts
  | name hw _ => exact starts_identifier hw _

/-- Where no colon ends a type, an operand has no label. -/
theorem Opens.unlabelled (h : Opens elementEnds s) : elementLabel s = none := by
  cases h with
  | @bracket c s hc =>
    refine elementLabel_eq_none_of_start ?_
    intro d hd
    obtain rfl : c = d := by simpa using hd
    rcases hc with rfl | rfl <;> decide
  | name hw hs =>
    have hend := endsWord_of_nameEnds (hs.mono (nameEnds_mono elementEnds_subset))
    exact elementLabel_eq_none hw hend (hs.head_skipGaps_ne (by decide))

/-- **`some` and `any` may be names of operands**: nothing that starts a type comes after them. -/
theorem Opens.constrained_reads (h : Opens typeEnds s) {r : List Char}
    (hreads : (suffixed s).Reads t r) : (constrained s).Reads t r := by
  cases hfound : constraint s with
  | none => exact constrained_of_suffixed hfound hreads
  | some found =>
    obtain ⟨wrap, found⟩ := found
    have hrest := rest_of_constraint hfound
    refine constrained_of_fails hfound (composition_fails ?_) hreads
    intro c hc
    cases h with
    | @bracket c' s hc' =>
      -- a bracket is no word
      have hnone : constraint (c' :: s) = none := by
        refine constraint_eq_none_of_start ?_
        intro d hd
        obtain rfl : c' = d := by simpa using hd
        rcases hc' with rfl | rfl <;> decide
      rw [hnone] at hfound
      cases hfound
    | @name w s hw hs =>
      -- what the word would constrain is what comes after the name: a sign
      have hend := endsWord_of_nameEnds hs
      rw [hrest, List.dropWhile_append_of_pos (all_of_isIdentifier hw),
        dropWhile_of_endsWord hend] at hc
      exact (of_mem_nameEnds (hs c hc)).2.2.1

/-- A type that no attributes and no specifier stand before. -/
theorem Leads.typeExpr_reads (h : Leads s) {r : List Char} (hreads : (composition s).Reads t r) :
    (typeExpr s).Reads t r := by
  have hattributes := attributes_nothing (h.starts.head_ne (by decide))
  exact Grammar.typeExpr_reads hattributes h.free hreads

/-! ## The places of a type -/

/-- **The type is read as a whole**, up to a sign that ends it. -/
structure IsWhole (narrow : Bool) (t : TypeExpr) : Prop where
  reads : ∀ {s rest : List Char}, SpellsIn narrow t.pieces s → Ends narrow typeEnds rest →
    (typeExpr (s ++ rest)).Reads t rest
  begins : ∀ {s : List Char}, SpellsIn narrow t.pieces s → Begins s
  /-- No name and colon are in front that could be a label. -/
  unlabelled : ∀ {s rest : List Char}, SpellsIn narrow t.pieces s → Follows elementEnds rest →
    elementLabel (s ++ rest) = none

/-- **The type is read as a composition**, after `some` or after a specifier. -/
structure IsBase (narrow : Bool) (t : TypeExpr) : Prop where
  starts : ∀ {s rest : List Char}, SpellsIn narrow t.pieces s → Follows typeEnds rest →
    Starts (s ++ rest)
  reads : ∀ {s rest : List Char}, SpellsIn narrow t.pieces s → Ends narrow typeEnds rest →
    (composition (s ++ rest)).Reads t rest

/-- The text of the type does not begin with something that could be a specifier. -/
def IsFree (narrow : Bool) (t : TypeExpr) : Prop :=
  ∀ {s rest : List Char}, SpellsIn narrow t.pieces s → Ends narrow typeEnds rest → Leads (s ++ rest)

/-- **The type is read as an operand** of postfix operators from the texts of a layout. -/
structure IsOperand (narrow : Bool) (t : TypeExpr) (ps : List Piece) : Prop where
  reads : ∀ {s rest : List Char} {u : TypeExpr} {r : List Char}, SpellsIn narrow ps s →
    Follows (operandEnds typeEnds) rest → (memberName rest).Fails → (suffixes t rest).Reads u r →
      (suffixed (s ++ rest)).Reads u r
  opens : ∀ {ends s rest : List Char}, ends ⊆ typeEnds → SpellsIn narrow ps s →
    Follows (operandEnds ends) rest → Opens ends (s ++ rest)
  leads : ∀ {s rest : List Char}, SpellsIn narrow ps s → Follows (operandEnds typeEnds) rest →
    (t.isSpecifierName = true → Adjoins rest) → Leads (s ++ rest)

/-- **The type is read as a dotted name**, up to its further segments. -/
def IsName (narrow : Bool) (t : TypeExpr) : Prop :=
  ∀ {s rest : List Char} {u : TypeExpr} {r : List Char}, SpellsIn narrow t.pieces s →
    Follows (operandEnds typeEnds) rest → (furtherSegments t rest).Reads u r →
      (nominal (s ++ rest)).Reads u r

/-- **A type is read back** from every text that spells it, in each place where it may stand. -/
structure Readable (narrow : Bool) (t : TypeExpr) : Prop where
  whole : IsWhole narrow t
  base : t.isAttributed = false → IsBase narrow t ∧ IsFree narrow t
  /-- In parentheses, if the type needs them. -/
  operand : IsOperand narrow t (grouped (needsGrouping t) t.pieces)
  name : t.isNominal = true → IsName narrow t

theorem IsBase.begins (h : IsBase narrow t) (hs : SpellsIn narrow t.pieces s) : Begins s := by
  have hstarts : Starts (s ++ []) := h.starts hs follows_nil
  rw [List.append_nil] at hstarts
  exact hstarts.begins

/-- A base that has no label in front is read as a whole. -/
theorem IsBase.whole (h : IsBase narrow t) (hfree : IsFree narrow t)
    (unlabelled : ∀ {s rest : List Char}, SpellsIn narrow t.pieces s → Follows elementEnds rest →
      elementLabel (s ++ rest) = none) : IsWhole narrow t where
  reads hs hrest := (hfree hs hrest).typeExpr_reads (h.reads hs hrest)
  begins hs := h.begins hs
  unlabelled := unlabelled

/-- A composition has one member if nothing joins it with another one. -/
theorem composition_of_constrained (h : (constrained s).Reads t rest) (hrest : Follows typeEnds rest) :
    (composition s).Reads t rest :=
  composition_reads h (furtherMembers_nothing (separator_eq_none (hrest.head_skipGaps_ne (by decide))))

/-- There are no postfix operators where a member of a composition ends. -/
theorem suffix_eq_none_of_follows (h : Follows ('&' :: typeEnds) rest) : suffix rest = none :=
  suffix_eq_none (h.head_ne (by decide) (by decide)) (h.head_ne (by decide) (by decide))
    (h.head_ne (by decide) (by decide))

/-! ## Lists -/

section Lists

variable {β : Type} {layout : β → List Piece} {item : (s : List Char) → Reading β s}
  {further : (s : List Char) → Loose (List β) s} {before sign after : String} {bs : List β}

/-- The item is read back from the texts of its layout, up to one of the signs `ends`, which comes next
at once if `close` holds. -/
def ReadsBack (narrow close : Bool) (item : (s : List Char) → Reading β s) (ends : List Char)
    (layout : List Piece) (b : β) : Prop :=
  ∀ {s rest : List Char}, SpellsIn narrow layout s → Ends close ends rest →
    Begins s ∧ (item (s ++ rest)).Reads b rest

/-- A repetition reads items, each after a sign, as long as there are any. -/
structure Repeats (sign : Char) (item : (s : List Char) → Reading β s)
    (further : (s : List Char) → Loose (List β) s) : Prop where
  stop : ∀ {s : List Char}, separator [sign] s = none → (further s).Reads [] s
  step : ∀ {s r r' rest : List Char} {b : β} {bs : List β}, Leaves (separator [sign] s) r →
    (item r).Reads b r' → (further r').Reads bs rest → (further s).Reads (b :: bs) rest

theorem repeats_furtherTypes : Repeats ',' typeExpr furtherTypes :=
  ⟨furtherTypes_nothing, furtherTypes_reads⟩

theorem repeats_furtherMembers : Repeats '&' constrained furtherMembers :=
  ⟨furtherMembers_nothing, furtherMembers_reads⟩

theorem repeats_furtherElements : Repeats ',' element furtherElements :=
  ⟨furtherElements_nothing, furtherElements_reads⟩

/-- The layout of what comes after the first item of a list. -/
def furtherPieces (layout : β → List Piece) (before sign after : String) (bs : List β) : List Piece :=
  bs.flatMap fun b => Piece.sign before sign after ++ layout b

/-- **The further items of a list are read back** if each item is. -/
theorem further_reads {close : Bool} (hfurther : Repeats c item further) (hsign : sign.toList = [c])
    (hgap : isGap c = false) (hc : c ∉ ends) (hclose : close = true → narrow = true ∧ before = "") :
    ∀ {s rest : List Char}, (∀ b ∈ bs, ReadsBack narrow close item (c :: ends) (layout b) b) →
      SpellsIn narrow (furtherPieces layout before sign after bs) s → Ends close ends rest →
      (further (s ++ rest)).Reads bs rest ∧ Ends close (c :: ends) (s ++ rest) := by
  induction bs with
  | nil =>
    intro s rest _ hs hrest
    obtain rfl := spellsIn_nil_iff.1 hs
    exact ⟨hfurther.stop (separator_eq_none (hrest.follows.head_skipGaps_ne hc)),
      hrest.mono (List.subset_cons_self _ _)⟩
  | cons b bs ih =>
    intro s rest hitems hs hrest
    obtain ⟨hb, hbs⟩ := List.forall_mem_cons.1 hitems
    rw [furtherPieces, List.flatMap_cons, List.append_assoc] at hs
    obtain ⟨g, g', _, htext, hg, hg', hs⟩ := hs.of_sign rest
    obtain ⟨first, more, rfl, hfirst, hmore⟩ := spellsIn_append_iff.1 hs
    -- the item ends where the ones after it begin
    obtain ⟨hread, hends⟩ := ih hbs hmore hrest
    obtain ⟨hbegins, hitem⟩ := hb hfirst hends
    have hleaves : Leaves (separator [c] (g ++ ([c] ++ (g' ++ (first ++ (more ++ rest))))))
        (first ++ (more ++ rest)) :=
      separator_leaves hgap hg.1 hg'.1 (hbegins.append _).skipGaps_eq
    have hfills : Fills close "" g := by
      refine ⟨hg.1, ?_⟩
      intro h
      obtain ⟨hnarrow, rfl⟩ := hclose h
      exact hg.2 hnarrow
    rw [htext, hsign, List.append_assoc first]
    exact ⟨hfurther.step hleaves hitem hread, ends_append_cons hfills hgap List.mem_cons_self⟩

/-- A list is its first item and the further ones. -/
theorem intercalate_map_cons (b : β) (bs : List β) :
    (Piece.sign before sign after).intercalate ((b :: bs).map layout) =
      layout b ++ furtherPieces layout before sign after bs := by
  rw [List.map_cons, intercalate_cons, List.flatMap_map]
  rfl

/-- **Items between commas are read back**: the first one, and the others from where it ends. -/
theorem commaSeparated_reads {b : β} (hfurther : Repeats ',' item further) (hc : ',' ∉ ends)
    (hitems : ∀ b' ∈ b :: bs, ReadsBack narrow narrow item (',' :: ends) (layout b') b')
    (hs : SpellsIn narrow (Piece.commaSeparated ((b :: bs).map layout)) s)
    (hrest : Ends narrow ends rest) :
    Begins s ∧ ∃ r, (item (s ++ rest)).Reads b r ∧ (further r).Reads bs rest := by
  obtain ⟨hb, hbs⟩ := List.forall_mem_cons.1 hitems
  rw [Piece.commaSeparated, intercalate_map_cons] at hs
  obtain ⟨first, more, rfl, hfirst, hmore⟩ := spellsIn_append_iff.1 hs
  obtain ⟨hread, hends⟩ :=
    further_reads hfurther rfl (by decide) hc (fun h => ⟨h, rfl⟩) hbs hmore hrest
  obtain ⟨hbegins, hitem⟩ := hb hfirst hends
  rw [List.append_assoc]
  exact ⟨hbegins.append _, _, hitem, hread⟩

end Lists

/-! ## Parentheses -/

/-- The layout of a tuple element. -/
def elementLayout : Labelled TypeExpr → List Piece
  | ⟨none, t⟩ => t.pieces
  | ⟨some label, t⟩ => .word label :: Piece.sign "" ":" " " ++ t.pieces

/-- **A tuple element is read back** with its label, if it has one. -/
theorem IsWhole.element_readsBack {label : Option String} (h : IsWhole narrow t)
    (hlabel : ∀ w ∈ label, isIdentifier w = true) :
    ReadsBack narrow narrow element elementEnds (elementLayout ⟨label, t⟩) ⟨label, t⟩ := by
  intro s rest hs hrest
  have hends := hrest.mono elementEnds_subset
  cases label with
  | none =>
    exact ⟨h.begins hs, element_reads_unlabelled (h.unlabelled hs hrest.follows) (h.reads hs hends)⟩
  | some w =>
    have hw := hlabel w rfl
    obtain ⟨_, rfl, hsign⟩ := spellsIn_word_iff.1 hs
    obtain ⟨g, g', s, htext, hg, hg', hs⟩ := hsign.of_sign rest
    rw [List.append_assoc, htext]
    exact ⟨(starts_identifier hw _).begins, element_reads_labelled
      (elementLabel_reads hw hg.1 hg'.1 ((h.begins hs).append _).skipGaps_eq) (h.reads hs hends)⟩

/-- Tuple elements up to the closing parenthesis. -/
theorem elements_read {es : List (Labelled TypeExpr)}
    (h : ∀ e ∈ es, ReadsBack narrow narrow element elementEnds (elementLayout e) e)
    (hs : SpellsIn narrow (Piece.commaSeparated (es.map elementLayout)) s) (hg : Fills narrow "" g)
    (rest : List Char) :
    ∃ r, (elements (skipGaps (s ++ (g ++ ([')'] ++ rest))))).Reads es r ∧
      Leaves (closing [')'] r) rest := by
  cases es with
  | nil =>
    -- the closing parenthesis starts no element
    obtain rfl := spellsIn_nil_iff.1 hs
    have hnone : ∀ c, (')' :: rest).head? = some c → c = ')' := by simp
    have hfails : (element (')' :: rest)).Fails :=
      element_fails
        (elementLabel_eq_none_of_start fun c hc => by rw [hnone c hc]; decide)
        (typeExpr_fails (fun c hc => by rw [hnone c hc]; decide) (by simp)
          fun c hc => by rw [hnone c hc]; decide)
    have hskip : skipGaps ([] ++ (g ++ ([')'] ++ rest))) = ')' :: rest := by
      rw [List.nil_append, skipGaps_append hg.1]
      exact skipGaps_cons (by decide)
    rw [hskip]
    exact ⟨_, elements_nothing hfails, closing_leaves (g := []) (by decide) (by decide)⟩
  | cons e es =>
    have hend : Ends narrow [')'] (g ++ ([')'] ++ rest)) := ends_append_cons hg (by decide) (by decide)
    obtain ⟨hbegins, _, hfirst, hmore⟩ :=
      commaSeparated_reads repeats_furtherElements (by decide) h hs hend
    rw [(hbegins.append _).skipGaps_eq]
    exact ⟨_, elements_reads hfirst hmore, closing_leaves (by decide) hg.1⟩

/-- **A list in parentheses is read back** if each element is. -/
theorem parentheses_read {es : List (Labelled TypeExpr)}
    (h : ∀ e ∈ es, ReadsBack narrow narrow element elementEnds (elementLayout e) e)
    (hs : SpellsIn narrow (Piece.enclosed "(" ")" (Piece.commaSeparated (es.map elementLayout))) s)
    (rest : List Char) :
    (∃ s', s ++ rest = '(' :: s') ∧ ∃ r r', Leaves (opening ['('] (s ++ rest)) r ∧
      (elements r).Reads es r' ∧ Leaves (closing [')'] r') rest := by
  obtain ⟨g, s, g', htext, hg, hg', hs⟩ := hs.of_enclosed rest
  obtain ⟨r', helements, hclosing⟩ := elements_read h hs hg' rest
  have hopening : Leaves (opening ['('] (['('] ++ (g ++ (s ++ (g' ++ ([')'] ++ rest))))))
      (skipGaps (g ++ (s ++ (g' ++ ([')'] ++ rest))))) :=
    opening_leaves_skipGaps (by decide) _
  rw [skipGaps_append hg.1] at hopening
  rw [htext]
  exact ⟨⟨_, rfl⟩, _, r', hopening, helements, hclosing⟩

/-- **A group or a tuple is read as an operand** if each element is read back. -/
theorem isOperand_group {es : List (Labelled TypeExpr)}
    (h : ∀ e ∈ es, ReadsBack narrow narrow element elementEnds (elementLayout e) e) :
    IsOperand narrow (group es)
      (Piece.enclosed "(" ")" (Piece.commaSeparated (es.map elementLayout))) where
  reads := by
    intro s rest u r hs hrest _ hsuffixes
    obtain ⟨-, _, _, hopening, helements, hclosing⟩ := parentheses_read h hs rest
    -- without an effect or an arrow this is no closure
    have htail : (closureTail rest).Fails :=
      closureTail_fails (hrest.head_skipGaps_ne (by decide)) (hrest.head_skipGaps_ne (by decide))
        (hrest.head_skipGaps_ne (by decide))
    have hgroup := parenthesized_reads_group hopening helements hclosing htail
    exact suffixed_reads (primary_of_parenthesized hgroup) hsuffixes
  opens := by
    intro ends s rest _ hs _
    obtain ⟨⟨s', htext⟩, -⟩ := parentheses_read h hs rest
    rw [htext]
    exact .bracket (.inl rfl)
  leads := by
    intro s rest hs _ _
    obtain ⟨⟨s', htext⟩, -⟩ := parentheses_read h hs rest
    rw [htext]
    exact leads_bracket (.inl rfl) s'

/-! ## One place is enough -/

/-- **An operand is read as a member of a composition.** -/
theorem IsOperand.constrained_readsBack {ps : List Piece} (h : IsOperand narrow t ps) :
    ReadsBack narrow false constrained ('&' :: typeEnds) ps t := by
  intro s rest hs hrest
  have hends : '&' :: typeEnds ⊆ operandEnds typeEnds := by decide
  -- the front of the text does not depend on what comes after it
  have hbegins := (h.opens (List.Subset.refl _) hs follows_nil).starts.begins
  have hfollows := hrest.follows.mono hends
  have hopens := h.opens (List.Subset.refl _) hs hfollows
  have hmember := memberName_fails (hrest.follows.head_ne (by decide) (by decide))
  have hsuffixes := suffixes_nothing (t := t) (suffix_eq_none_of_follows hrest.follows)
  rw [List.append_nil] at hbegins
  exact ⟨hbegins, hopens.constrained_reads (h.reads hs hfollows hmember hsuffixes)⟩

/-- **A type that is read without parentheses as an operand** is read back everywhere. -/
theorem Readable.of_operand (h : IsOperand narrow t t.pieces) (hgroup : needsGrouping t = false)
    (hbare : t.isSpecifierName = true → narrow = true)
    (hname : t.isNominal = true → IsName narrow t) : Readable narrow t := by
  have hbase : IsBase narrow t := by
    refine ⟨?_, ?_⟩
    · intro s rest hs hrest
      exact (h.opens (List.Subset.refl _) hs (hrest.mono subset_operandEnds)).starts
    · intro s rest hs hrest
      have hfollows := hrest.follows.mono (List.subset_cons_self '&' typeEnds)
      have hmember := h.constrained_readsBack hs (ends_of_follows hfollows)
      exact composition_of_constrained hmember.2 hrest.follows
  have hfree : IsFree narrow t := by
    intro s rest hs hrest
    exact h.leads hs (hrest.follows.mono subset_operandEnds) fun hn => hrest.adjoins (hbare hn)
  refine ⟨hbase.whole hfree ?_, fun _ => ⟨hbase, hfree⟩, ?_, hname⟩
  · intro s rest hs hrest
    exact (h.opens elementEnds_subset hs (hrest.mono subset_operandEnds)).unlabelled
  · rw [hgroup]
    exact h

/-- A type that is read as a whole is an operand in parentheses. -/
theorem IsWhole.isOperand (h : IsWhole narrow t) (hgroup : needsGrouping t = true) :
    IsOperand narrow t (grouped (needsGrouping t) t.pieces) := by
  have helements : ∀ e ∈ [⟨none, t⟩],
      ReadsBack narrow narrow element elementEnds (elementLayout e) e :=
    List.forall_mem_singleton.2 (h.element_readsBack (by simp))
  have hoperand := isOperand_group helements
  rw [List.map_singleton, Piece.commaSeparated, List.intercalate_singleton] at hoperand
  rw [hgroup]
  exact hoperand

/-- **A type that is read as a whole and as a base**, and needs parentheses elsewhere, is read back
everywhere. -/
theorem Readable.of_base (h : IsBase narrow t) (hfree : IsFree narrow t)
    (hgroup : needsGrouping t = true) (hname : t.isNominal = false)
    (unlabelled : ∀ {s rest : List Char}, SpellsIn narrow t.pieces s → Follows elementEnds rest →
      elementLabel (s ++ rest) = none) : Readable narrow t :=
  have hwhole := h.whole hfree unlabelled
  ⟨hwhole, fun _ => ⟨h, hfree⟩, hwhole.isOperand hgroup, by simp [hname]⟩

end Wiring.TypeExpr.Grammar
