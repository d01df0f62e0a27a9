import Wiring.Proofs.Text.Trailing
import Wiring.Proofs.TypeExpr.Parsed
import Wiring.Proofs.TypeExpr.Roundtrip

/-!
# White space after a type

A rule makes of a text and of the same text with white space after it the same, but for one thing: a
specifier at the very end of the text is a name, and with white space after it, it is a specifier, after
which no type comes any more. That happens where a specifier may stand, so at the start of the text and
after an arrow; in brackets it does not matter, as the closing bracket is missing either way.

* `EndsBare`: the texts that end in such a specifier.
* `Passes`: what a rule has gone past.
* `EndsInArrow`, `Stuck`, `Apart`: how the outcomes of a rule on both texts may differ.
* `attributes_near`, `specifier_near`, `constraint_near` and others: the rules for words and signs.
* `typeExpr_of_isBare`: a specifier alone, without white space after it and with it.
-/

namespace Wiring.TypeExpr.Grammar

open Text

variable {s s' r r' x : List Char} {g : Spaces} {c : Char} {t : TypeExpr}

/-! ## Specifiers at the end of a text -/

/-- **A specifier alone**, with attributes before it at most. -/
def IsBare (s : List Char) : Prop :=
  ∃ w ∈ specifiers, (attributes s).rest = w.toList

/-- **An arrow with a specifier alone after it**, up to the end of the text. -/
def IsBareArrow (s : List Char) : Prop :=
  ∃ x, s = '-' :: '>' :: x ∧ IsBare (skipGaps x)

/-- **The text ends in a specifier that stands alone**: it is nothing else, or an arrow comes before. -/
def EndsBare (s : List Char) : Prop :=
  IsBare s ∨ ∃ arrow, IsBareArrow arrow ∧ arrow <:+ s

/-! ## What rules go past -/

/-- Whether rules go past a character, other than in an arrow: it is no white space but that between
words. -/
def isPlain (c : Char) : Bool :=
  c ≠ '-' && (!isBlank c || isGap c)

/-- White space that rules go past is white space between words. -/
theorem isGap_of_isPlain (h : isPlain c = true) (hblank : isBlank c = true) : isGap c = true := by
  simp only [isPlain, hblank, Bool.and_eq_true] at h
  exact h.2

/-- **A rule has gone from `s` to `r`**: it has met no white space but that between words, and no arrow with
a specifier alone after it. -/
structure Passes (s r : List Char) : Prop where
  front : ∃ front, s = front ++ r ∧ ∀ c ∈ front, isBlank c = true → isGap c = true
  keeps : ∀ arrow, IsBareArrow arrow → arrow <:+ s → arrow <:+ r

theorem Passes.refl (s : List Char) : Passes s s :=
  ⟨⟨[], rfl, nofun⟩, fun _ _ h => h⟩

theorem Passes.trans (h : Passes s r) (h' : Passes r x) : Passes s x := by
  obtain ⟨front, rfl, hfront⟩ := h.front
  obtain ⟨front', rfl, hfront'⟩ := h'.front
  exact ⟨⟨front ++ front', (List.append_assoc ..).symm, List.forall_mem_append.2 ⟨hfront, hfront'⟩⟩,
    fun arrow harrow hs => h'.keeps arrow harrow (h.keeps arrow harrow hs)⟩

theorem passes_append {front : List Char} (h : ∀ c ∈ front, isPlain c = true) (r : List Char) :
    Passes (front ++ r) r := by
  refine ⟨⟨front, rfl, fun c hc => isGap_of_isPlain (h c hc)⟩, ?_⟩
  rintro arrow ⟨x, rfl, -⟩ hs
  induction front with
  | nil => exact hs
  | cons c front ih =>
    obtain ⟨hc, hfront⟩ := List.forall_mem_cons.1 h
    rcases List.suffix_cons_iff.1 hs with heq | hs
    · obtain rfl : '-' = c := (List.cons.inj heq).1
      cases hc
    · exact ih hfront hs

theorem isPlain_of_isGap (h : isGap c = true) : isPlain c = true := by
  have hc : c ≠ '-' := by
    rintro rfl
    cases h
  simp [isPlain, h, hc]

theorem isPlain_of_isTypeStart (h : isTypeStart c = true) : isPlain c = true := by
  have hdash : c ≠ '-' := by
    rintro rfl
    cases h
  simp [isPlain, hdash, isBlank_of_isTypeStart h]

theorem isPlain_of_isDigit (h : c.isDigit = true) : isPlain c = true := by
  have hcode : 48 ≤ c.toNat ∧ c.toNat ≤ 57 := by
    have hrange := Bool.and_eq_true_iff.1 h
    simp only [decide_eq_true_eq, ge_iff_le, UInt32.le_iff_toNat_le] at hrange
    exact hrange
  have hdash : c ≠ '-' := by
    rintro rfl
    cases h
  have hblank : isBlank c = false := by
    simp only [isBlank, blankRanges, inRanges, Bool.and_eq_false_iff, Bool.or_eq_false_iff,
      decide_eq_false_iff_not]
    omega
  simp [isPlain, hdash, hblank]

theorem isPlain_of_isIdentifierChar (h : isIdentifierChar c = true) : isPlain c = true := by
  simp only [isIdentifierChar, Bool.or_eq_true, decide_eq_true_eq] at h
  rcases h with halphanum | rfl
  · have hcase : c.isAlpha = true ∨ c.isDigit = true := Bool.or_eq_true_iff.1 halphanum
    rcases hcase with halpha | hdigit
    · exact isPlain_of_isTypeStart (by simp [isTypeStart, isIdentifierStart, halpha])
    · exact isPlain_of_isDigit hdigit
  · decide

theorem isGap_of_isIdentifierChar (h : isIdentifierChar c = true) : isGap c = false := by
  refine Bool.eq_false_iff.2 fun hgap => ?_
  rw [isIdentifierChar_of_isGap hgap] at h
  cases h

/-- A sign with the white space after it. -/
theorem passes_opening {word : List Char} (hword : ∀ c ∈ word, isPlain c = true)
    (h : ∃ x, s = word ++ x ∧ r = skipGaps x) : Passes s r := by
  obtain ⟨x, rfl, rfl⟩ := h
  obtain ⟨b, hb, hx⟩ := exists_gaps x
  have hfront : ∀ c ∈ word ++ b, isPlain c = true :=
    List.forall_mem_append.2 ⟨hword, fun c hc => isPlain_of_isGap (hb c hc)⟩
  have hpasses := passes_append hfront (skipGaps x)
  rwa [List.append_assoc, ← hx] at hpasses

theorem passes_gaps {b : List Char} (hb : AreGaps b) (h : Passes s r) : Passes (b ++ s) r :=
  (passes_append (fun c hc => isPlain_of_isGap (hb c hc)) s).trans h

theorem passes_cons (hc : isPlain c = true) (h : Passes s r) : Passes (c :: s) r :=
  (passes_append (List.forall_mem_singleton.2 hc) s).trans h

theorem passes_skipGaps (s : List Char) : Passes s (skipGaps s) :=
  passes_opening (List.forall_mem_nil _) ⟨s, rfl, rfl⟩

/-- Where white space alone is left, the text does not end in a specifier that stands alone, unless it is
nothing else. -/
theorem Passes.not_endsBare (h : Passes s r) (hbare : ¬ IsBare s) (hgaps : AreGaps r) : ¬ EndsBare s := by
  rintro (hbare' | ⟨arrow, harrow, hsuffix⟩)
  · exact hbare hbare'
  · -- the arrow would be in the rest
    have hsuffix := h.keeps arrow harrow hsuffix
    obtain ⟨x, rfl, -⟩ := harrow
    exact absurd (hgaps '-' (hsuffix.mem List.mem_cons_self)) (by decide)

/-! ## Where an outcome differs -/

/-- **The text ends in an arrow with a specifier alone after it**, and it has no white space but that between
words. -/
structure EndsInArrow (s : List Char) : Prop where
  arrow : ∃ arrow, IsBareArrow arrow ∧ arrow <:+ s
  gaps : ∀ c ∈ s, isBlank c = true → isGap c = true

theorem EndsInArrow.of_passes (h : Passes s r) (hr : EndsInArrow r) : EndsInArrow s := by
  obtain ⟨front, rfl, hfront⟩ := h.front
  obtain ⟨⟨arrow, harrow, hsuffix⟩, hgaps⟩ := hr
  exact ⟨⟨arrow, harrow, List.suffix_append_of_suffix hsuffix⟩,
    List.forall_mem_append.2 ⟨hfront, hgaps⟩⟩

/-- **What may come after the parentheses of a closure comes next**: an effect or an arrow. -/
def Stuck (s : List Char) : Prop :=
  ∃ c, (skipGaps s).head? = some c ∧ c ∈ ['-', 'a', 't']

/-- **None of the characters `cs` comes next.** -/
def Blocked (cs s : List Char) : Prop :=
  ∀ c ∈ cs, (skipGaps s).head? ≠ some c

/-- The closing brackets. -/
def closingBrackets : List Char := [')', ']', '>']

theorem Stuck.blocked (h : Stuck s) : Blocked (',' :: '&' :: ':' :: closingBrackets) s := by
  have hother : ∀ d ∈ ['-', 'a', 't'], d ∉ ',' :: '&' :: ':' :: closingBrackets := by
    simp [closingBrackets]
  obtain ⟨d, hd, hmem⟩ := h
  intro c hc
  rw [hd]
  rintro ⟨⟩
  exact hother d hmem hc

theorem Stuck.head?_ne (h : Stuck s) (hc : isGap c = false) (hmem : c ∉ ['-', 'a', 't']) :
    s.head? ≠ some c := by
  obtain ⟨d, hd, hd'⟩ := h
  intro hhead
  obtain ⟨s, rfl⟩ := List.head?_eq_some_iff.1 hhead
  rw [skipGaps_cons hc] at hd
  exact hmem (Option.some.inj hd ▸ hd')

theorem Blocked.mono {cs cs' : List Char} (h : Blocked cs s) (hsub : cs' ⊆ cs) : Blocked cs' s :=
  fun c hc => h c (hsub hc)

theorem blocked_of_head {cs : List Char} (h : s.head? = some c) (hgap : isGap c = false) (hc : c ∉ cs) :
    Blocked cs s := by
  obtain ⟨s, rfl⟩ := List.head?_eq_some_iff.1 h
  intro d hd
  rw [skipGaps_cons hgap]
  rintro ⟨⟩
  exact hc hd

/-- Behind a sign there is no closing bracket. -/
theorem blocked_of_separator {sign : Char} {cs : List Char} (h : separator [sign] s ≠ none)
    (hsign : sign ∉ cs) : Blocked cs s := by
  have hhead : (skipGaps s).head? = some sign := by
    by_contra hne
    exact h (separator_eq_none hne)
  intro c hc
  rw [hhead]
  rintro ⟨⟩
  exact hsign hc

/-- **The outcome on the first text leaves nothing, and the one on the second text is stuck.** -/
structure Apart (s r' : List Char) : Prop where
  ends : EndsInArrow s
  stuck : Stuck r'

theorem Apart.of_passes (h : Passes s r) (hr : Apart r r') : Apart s r' :=
  ⟨hr.ends.of_passes h, hr.stuck⟩

/-! ## Words -/

/-- The outcome of a rule is never anything else. -/
def Never (_ : List Char) : Prop := False

theorem identifier_near (h : Near g s s') :
    (identifier s).Agrees g (Passes s) Never False (identifier s') := by
  cases s with
  | nil =>
    have hfails : (identifier s').Fails := by
      refine identifier_fails fun c hc => ?_
      rcases h with rfl | ⟨-, rfl⟩
      · have hgap : isGap c = true := g.areGaps c (List.mem_of_mem_head? hc)
        cases hstart : isIdentifierStart c with
        | false => rfl
        | true =>
          have hchar := isIdentifierChar_of_start hstart
          rw [isIdentifierChar_of_isGap hgap] at hchar
          cases hchar
      · cases hc
    obtain ⟨_, hfails⟩ := hfails
    rw [hfails]
    exact .failed
  | cons c s =>
    obtain ⟨s', rfl, hnear⟩ := Near.append (t := [c]) h
    rw [identifier, List.singleton_append, identifier]
    split
    · rename_i hstart
      obtain ⟨htake, hdrop⟩ := hnear.takeWhile fun _ => isIdentifierChar_of_isGap
      rw [run, run, htake]
      refine .done ?_ hdrop
      have hfront : ∀ d ∈ c :: s.takeWhile isIdentifierChar, isPlain d = true :=
        List.forall_mem_cons.2 ⟨isPlain_of_isIdentifierChar (isIdentifierChar_of_start hstart),
          fun d hd => isPlain_of_isIdentifierChar (List.all_eq_true.1 List.all_takeWhile d hd)⟩
      have hpasses := passes_append hfront (s.dropWhile isIdentifierChar)
      rwa [List.cons_append, List.takeWhile_append_dropWhile] at hpasses
    · exact .failed

theorem keyword_near {word : List Char} (h : Near g s s') (hword : IsSolid word)
    (hne : word ≠ []) : Found g (fun r => s = word ++ r) (keyword word s) (keyword word s') := by
  have hfound := shorterAfter_near h hword hne
  unfold keyword
  generalize shorterAfter word s = found at hfound
  generalize shorterAfter word s' = found' at hfound
  cases hfound with
  | none => exact .none
  | @some r r' _ _ hr hnear =>
    have hends : ∀ p : Char → Bool, (∀ c, isGap c = true → p c = false) →
        r'.head?.any p = r.head?.any p := by
      intro p hp
      cases r with
      | nil =>
        rcases hnear with rfl | ⟨-, rfl⟩
        · obtain ⟨c, cs, hcs⟩ := List.exists_cons_of_ne_nil g.ne_nil
          simp [hcs, hp c (g.areGaps c (hcs ▸ List.mem_cons_self))]
        · rfl
      | cons c r =>
        rw [hnear.eq_append (List.cons_ne_nil _ _)]
        rfl
    have hsame := hends (fun c => isAlphanumeric c || c = '_') fun c hc => by
      simp [endsKeyword_of_isGap hc]
    rw [Option.filter_some, Option.filter_some]
    simp only [hsame]
    split
    · exact .some hr hnear
    · exact .none

theorem attributeName_near (h : Near g s s') :
    (attributeName s).Agrees g (Passes s) Never False (attributeName s') := by
  by_cases hat : s.head? = some '@'
  · obtain ⟨s, rfl⟩ := List.head?_eq_some_iff.1 hat
    obtain ⟨s', rfl, hnear⟩ := Near.append (t := ['@']) h
    have hname : ((identifier s).afterChar (c := '@')).Agrees g (Passes ('@' :: s)) Never False
        ((identifier s').afterChar (c := '@')) :=
      (identifier_near hnear).within (fun _ => passes_cons (by decide)) (fun _ => id) id
    exact hname
  · have hfails : ∀ {x : List Char}, x.head? ≠ some '@' → attributeName x = .failed x := by
      intro x hx
      unfold attributeName
      split
      · simp at hx
      · rfl
    rw [hfails hat, hfails fun hat' => hat ((h.head?_iff (by decide)).1 hat')]
    exact .failed

theorem attributes_near {s s' : List Char} (h : Near g s s') :
    (attributes s).Agrees g (Passes s) Never (attributes s') := by
  have hname := attributeName_near h
  rw [attributes, attributes]
  generalize attributeName s = name at hname
  generalize attributeName s' = name' at hname
  cases hname with
  | failed => exact .done (Passes.refl s) h
  | apart hnever => exact hnever.elim
  | lost hnever => exact hnever.elim
  | @done a r r' hr hr' hpasses hnear =>
    have := length_skipGaps_le r
    have hmore := (attributes_near hnear.skipGaps).map (a :: ·)
    exact (hmore.within (fun _ => (passes_skipGaps r).trans) (fun _ => id)).within
      (fun _ => hpasses.trans) (fun _ => id)
termination_by s.length

/-- **A word with white space after it**: either both texts have it, or none has, or it is the first text. -/
theorem spacedName_near {word : List Char} (h : Near g s s')
    (hword : ∀ c ∈ word, isIdentifierChar c = true) (hne : word ≠ []) :
    Found g (Passes s) (spacedWord word s) (spacedWord word s') ∨
      s = word ∧ spacedWord word s = none ∧ Leaves (spacedWord word s') [] := by
  have hsolid : IsSolid word := fun c hc => isGap_of_isIdentifierChar (hword c hc)
  refine (spacedWord_near h hsolid hne).imp_left fun hfound => hfound.mono fun _ => ?_
  exact passes_opening fun c hc => isPlain_of_isIdentifierChar (hword c hc)

/-- A specifier is found in both texts or in none, if it is not the whole first text. -/
theorem specifier_near (h : Near g s s') (hs : ∀ w ∈ specifiers, s ≠ w.toList) :
    (specifier s).Agrees g (Passes s) Never (specifier s') := by
  have hfound : ∀ w ∈ specifiers,
      Found g (Passes s) (spacedWord w.toList s) (spacedWord w.toList s') := by
    intro w hw
    obtain ⟨hchars, hne⟩ := isIdentifierChar_of_specifier hw
    exact (spacedName_near h hchars hne).resolve_right fun hsw => hs w hw hsw.1
  have hfirst := foundAs_findSome hfound
  unfold specifier
  generalize (specifiers.findSome? fun w => (spacedWord w.toList s).map (w, ·)) = first at hfirst
  generalize (specifiers.findSome? fun w => (spacedWord w.toList s').map (w, ·)) = first' at hfirst
  cases hfirst with
  | none => exact .done (Passes.refl s) h
  | some hr hnear => exact .done hr hnear

/-- `some` or `any` before something: either both texts have it, or none has, or nothing comes after it in
the second one. -/
theorem constraint_near (h : Near g s s') :
    FoundAs g (Passes s) (constraint s) (constraint s') ∨
      constraint s = none ∧ ∃ wrap hr, constraint s' = some (wrap, ⟨[], hr⟩) := by
  have hany := spacedName_near h isIdentifierChar_any (by decide)
  rcases spacedName_near h isIdentifierChar_some (by decide) with hsome | ⟨rfl, -, hr, hs'⟩
  · unfold constraint
    generalize spacedWord "some".toList s = found at hsome
    generalize spacedWord "some".toList s' = found' at hsome
    cases hsome with
    | some hr hnear => exact .inl (.some hr hnear)
    | none =>
      rcases hany with hany | ⟨-, hs, hr, hs'⟩
      · left
        generalize spacedWord "any".toList s = found at hany
        generalize spacedWord "any".toList s' = found' at hany
        cases hany with
        | none => exact .none
        | some hr hnear => exact .some hr hnear
      · right
        rw [hs, hs']
        exact ⟨rfl, _, hr, rfl⟩
  · right
    refine ⟨by rfl, .someOf, hr, ?_⟩
    rw [constraint, hs']

theorem suffix_near (h : Near g s s') : FoundAs g (Passes s) (suffix s) (suffix s') := by
  by_cases hquestion : s.head? = some '?'
  · obtain ⟨s, rfl⟩ := List.head?_eq_some_iff.1 hquestion
    obtain ⟨s', rfl, hnear⟩ := Near.append (t := ['?']) h
    exact .some (passes_cons (by decide) (Passes.refl s)) hnear
  by_cases hexclamation : s.head? = some '!'
  · obtain ⟨s, rfl⟩ := List.head?_eq_some_iff.1 hexclamation
    obtain ⟨s', rfl, hnear⟩ := Near.append (t := ['!']) h
    exact .some (passes_cons (by decide) (Passes.refl s)) hnear
  by_cases hpoint : s.head? = some '.'
  · obtain ⟨s, rfl⟩ := List.head?_eq_some_iff.1 hpoint
    obtain ⟨s', rfl, hnear⟩ := Near.append (t := ['.']) h
    have hpasses : ∀ {word x : List Char}, (∀ c ∈ word, isPlain c = true) → s = word ++ x →
        Passes ('.' :: s) x := by
      rintro word x hword rfl
      exact passes_cons (by decide) (passes_append hword x)
    have htype : Found g (fun r => s = "Type".toList ++ r) _ (keyword _ s') :=
      keyword_near hnear (by decide) (by decide)
    have hprotocol : Found g (fun r => s = "Protocol".toList ++ r) _ (keyword _ s') :=
      keyword_near hnear (by decide) (by decide)
    simp only [suffix, List.singleton_append]
    generalize keyword "Type".toList s = found at htype
    generalize keyword "Type".toList s' = found' at htype
    generalize keyword "Protocol".toList s = other at hprotocol
    generalize keyword "Protocol".toList s' = other' at hprotocol
    cases htype with
    | some hr hnear => exact .some (hpasses (List.all_eq_true.1 (by decide)) hr) hnear
    | none =>
      cases hprotocol with
      | none => exact .none
      | some hr hnear => exact .some (hpasses (List.all_eq_true.1 (by decide)) hr) hnear
  have hhead : ∀ c, isGap c = false → s.head? ≠ some c → s'.head? ≠ some c := fun c hc hs hs' =>
    hs ((h.head?_iff hc).1 hs')
  rw [suffix_eq_none hquestion hexclamation hpoint, suffix_eq_none (hhead '?' (by decide) hquestion)
    (hhead '!' (by decide) hexclamation) (hhead '.' (by decide) hpoint)]
  exact .none

theorem suffixes_near {s s' : List Char} (t : TypeExpr) (h : Near g s s') :
    (suffixes t s).Agrees g (Passes s) Never (suffixes t s') := by
  have hsuffix := suffix_near h
  rw [suffixes, suffixes]
  generalize suffix s = found at hsuffix
  generalize suffix s' = found' at hsuffix
  cases hsuffix with
  | none => exact .done (Passes.refl s) h
  | @some wrap r r' hr hr' hpasses hnear =>
    exact (suffixes_near (wrap t) hnear).within (fun _ => hpasses.trans) (fun _ => id)
termination_by s.length

theorem memberName_near (h : Near g s s') :
    (memberName s).Agrees g (Passes s) Never False (memberName s') := by
  by_cases hpoint : s.head? = some '.'
  · obtain ⟨s, rfl⟩ := List.head?_eq_some_iff.1 hpoint
    obtain ⟨s', rfl, hnear⟩ := Near.append (t := ['.']) h
    have hname := identifier_near hnear
    simp only [memberName, List.singleton_append]
    generalize identifier s = name at hname
    generalize identifier s' = name' at hname
    cases hname with
    | failed => exact .failed
    | apart hnever => exact hnever.elim
    | lost hnever => exact hnever.elim
    | done hpasses hnear =>
      dsimp only
      split
      · exact .failed
      · exact .done (passes_cons (by decide) hpasses) hnear
  · obtain ⟨_, hs⟩ := memberName_fails hpoint
    obtain ⟨_, hs'⟩ := memberName_fails fun hpoint' => hpoint ((h.head?_iff (by decide)).1 hpoint')
    rw [hs, hs']
    exact .failed

theorem effect_near (word : List Char) (h : Near g s s') (hword : ∀ c ∈ word, isIdentifierChar c = true)
    (hne : word ≠ []) : (effect word s).Agrees g (Passes s) Never (effect word s') := by
  have hsolid : IsSolid word := fun c hc => isGap_of_isIdentifierChar (hword c hc)
  have hfound := keyword_near h.skipGaps hsolid hne
  unfold effect
  generalize keyword word (skipGaps s) = found at hfound
  generalize keyword word (skipGaps s') = found' at hfound
  cases hfound with
  | none => exact .done (Passes.refl s) h
  | @some r _ _ _ hr hnear =>
    have hpasses : Passes (skipGaps s) r := by
      rw [hr]
      exact passes_append (fun c hc => isPlain_of_isIdentifierChar (hword c hc)) r
    exact .done ((passes_skipGaps s).trans hpasses) hnear

/-- A sign with the white space around it, as what it leaves. -/
theorem sign_near (sign : Char) (h : Near g s s') (hsign : isGap sign = false)
    (hplain : isPlain sign = true) :
    Found g (Passes s) (separator [sign] s) (separator [sign] s') := by
  refine (separator_near h (isSolid_singleton hsign) (List.cons_ne_nil _ _)).mono ?_
  rintro x ⟨b, y, hb, rfl, hx⟩
  exact passes_gaps hb (passes_opening (List.forall_mem_singleton.2 hplain) ⟨y, rfl, hx⟩)

/-- An arrow with the white space around it. -/
theorem arrow_near (h : Near g s s') :
    Found g (fun r => ∃ b x, AreGaps b ∧ s = b ++ ('-' :: '>' :: x) ∧ r = skipGaps x)
      (separator ['-', '>'] s) (separator ['-', '>'] s') := by
  have hsolid : IsSolid ['-', '>'] := by decide
  exact separator_near h hsolid (List.cons_ne_nil _ _)

theorem elementLabel_near (h : Near g s s') :
    FoundAs g (Passes s) (elementLabel s) (elementLabel s') := by
  have hname := identifier_near h
  unfold elementLabel
  generalize identifier s = name at hname
  generalize identifier s' = name' at hname
  cases hname with
  | failed => exact .none
  | apart hnever => exact hnever.elim
  | lost hnever => exact hnever.elim
  | @done label r r' hr hr' hpasses hnear =>
    have hcolon := sign_near ':' hnear (by decide) (by decide)
    dsimp only
    generalize separator [':'] r = found at hcolon
    generalize separator [':'] r' = found' at hcolon
    cases hcolon with
    | none => exact .none
    | some hrest hnear => exact .some (hpasses.trans hrest) hnear

/-! ## Specifiers and labels -/

/-- **A specifier alone is a name**, and with white space after it, it is a specifier. -/
theorem typeExpr_of_isBare (h : Near g s s') (hs : IsBare s) :
    (∃ t, (typeExpr s).Reads t []) ∧ (typeExpr s').Fails := by
  obtain ⟨w, hw, hrest⟩ := hs
  obtain ⟨hchars, hne⟩ := isIdentifierChar_of_specifier hw
  have hattributes := attributes_near h
  generalize has : attributes s = outcome at hattributes hrest
  generalize has' : attributes s' = outcome' at hattributes
  cases hattributes with
  | apart hnever => exact hnever.elim
  | @done as r r' hr hr' _ hnear =>
    obtain rfl : r = w.toList := hrest
    obtain rfl := hnear.eq_append hne
    have hname : (specifier (w.toList ++ [])).Reads none (w.toList ++ []) :=
      specifier_nothing_of_adjoins hchars (by simp [EndsWord]) adjoins_nil
    have hcomposition : (composition (w.toList ++ [])).Reads (.simple w []) [] :=
      composition_reads_name (isIdentifier_of_specifier hw) (ne_of_mem_of_not_mem hw (by decide))
        (ne_of_mem_of_not_mem hw (by decide)) nofun nofun (memberName_fails nofun)
        (suffix_eq_none nofun nofun nofun) (separator_eq_none nofun)
    have hspecifier : (specifier (w.toList ++ (g.chars ++ []))).Reads (some w) [] :=
      specifier_reads hw g.areGaps g.ne_nil rfl
    obtain ⟨_, hfails⟩ : (composition []).Fails := composition_fails nofun
    rw [List.append_nil] at hname hcomposition hspecifier
    refine ⟨⟨_, typeExpr_reads ⟨hr, has⟩ hname hcomposition⟩, ?_⟩
    obtain ⟨_, hspecifier⟩ := hspecifier
    rw [typeExpr, has']
    dsimp only
    rw [hspecifier]
    dsimp only
    rw [hfails]
    exact ⟨_, rfl⟩

/-- A specifier is the first name, or there is none. -/
theorem specifier_cases (s : List Char) : (specifier s).Reads none s ∨
    ∃ w, (specifier s).Reads (some w) (skipGaps (s.dropWhile isIdentifierChar)) := by
  by_cases hnone : ∀ w ∈ specifiers, spacedWord w.toList s = none
  · exact .inl (specifier_nothing_of_forall hnone)
  · right
    cases hfound : specifiers.findSome? fun w => (spacedWord w.toList s).map (w, ·) with
    | none =>
      refine absurd (fun w hw => ?_) hnone
      have hw := List.findSome?_eq_none_iff.1 hfound w hw
      simpa using hw
    | some found =>
      obtain ⟨w, hw, hmap⟩ := List.exists_of_findSome?_eq_some hfound
      obtain ⟨⟨rest, hlt⟩, hrest, rfl⟩ := Option.map_eq_some_iff.1 hmap
      obtain ⟨hchars, hne⟩ := isIdentifierChar_of_specifier hw
      obtain rfl : rest = _ := (name_of_spacedWord hchars hne hrest).2
      refine ⟨w, Nat.le_of_lt hlt, ?_⟩
      unfold specifier
      simp only [hfound]
      rfl

/-- A name that was read is at the front of the text, and it ends there. -/
theorem of_identifier_reads {name : String} (h : (identifier s).Reads name r) :
    s = name.toList ++ r ∧ EndsWord r := by
  obtain ⟨hr, h⟩ := h
  cases s with
  | nil => cases h
  | cons c s =>
    rw [identifier] at h
    split at h
    · cases h
      rw [String.toList_ofList, List.cons_append, List.takeWhile_append_dropWhile]
      refine ⟨rfl, fun d hd => ?_⟩
      have hnot := List.head?_dropWhile_not isIdentifierChar s
      rw [hd] at hnot
      exact hnot
    · cases h

/-- A label is a name, and its colon comes next. -/
theorem of_elementLabel {label : String} {found : Shorter s} (h : elementLabel s = some (label, found)) :
    isIdentifier label = true ∧
      ∃ rest, s = label.toList ++ rest ∧ EndsWord rest ∧ (skipGaps rest).head? = some ':' := by
  refine ⟨elementLabel_value h, ?_⟩
  unfold elementLabel at h
  split at h
  · rename_i name rest hrest hname
    obtain ⟨colon, hcolon, hpair⟩ := Option.map_eq_some_iff.1 h
    obtain ⟨rfl, -⟩ := Prod.mk.inj hpair
    obtain ⟨hs, hend⟩ := of_identifier_reads ⟨hrest, hname⟩
    refine ⟨rest, hs, hend, ?_⟩
    by_contra hhead
    rw [separator_eq_none hhead] at hcolon
    cases hcolon
  · cases h

/-- **A label is read as a type** up to its colon, if it is read as a type at all. -/
theorem typeExpr_of_elementLabel {label : String} {found : Shorter s}
    (h : elementLabel s = some (label, found)) :
    (typeExpr s).Fails ∨ ∃ t rest, (typeExpr s).Reads t rest ∧ (skipGaps rest).head? = some ':' := by
  obtain ⟨hlabel, rest, rfl, hend, hcolon⟩ := of_elementLabel h
  obtain ⟨c, cs, hchars, hstart, hall⟩ := exists_of_isIdentifier hlabel
  have hne : ∀ d, isGap d = false → d ≠ ':' → rest.head? ≠ some d := by
    intro d hgap hd hhead
    obtain ⟨rest, rfl⟩ := List.head?_eq_some_iff.1 hhead
    rw [skipGaps_cons hgap] at hcolon
    exact hd (Option.some.inj hcolon)
  have hdrop : (label.toList ++ rest).dropWhile isIdentifierChar = rest := by
    rw [List.dropWhile_append_of_pos (all_of_isIdentifier hlabel), dropWhile_of_endsWord hend]
  have hattributes : (attributes (label.toList ++ rest)).Reads [] (label.toList ++ rest) := by
    refine attributes_nothing ?_
    rw [hchars, List.cons_append]
    rintro ⟨⟩
    exact absurd hstart (by decide)
  have hfails : (composition (skipGaps rest)).Fails := by
    refine composition_fails fun c hc => ?_
    rw [hcolon] at hc
    cases hc
    decide
  rcases specifier_cases (label.toList ++ rest) with hspecifier | ⟨w, hspecifier⟩
  · right
    have hsuffixed : (suffixed (label.toList ++ rest)).Reads (.simple label []) rest :=
      suffixed_reads_name hlabel hend (hne '<' (by decide) (by decide))
        (memberName_fails (hne '.' (by decide) (by decide)))
        (suffix_eq_none (hne '?' (by decide) (by decide)) (hne '!' (by decide) (by decide))
          (hne '.' (by decide) (by decide)))
    have hconstrained : (constrained (label.toList ++ rest)).Reads (.simple label []) rest := by
      cases hconstraint : constraint (label.toList ++ rest) with
      | none => exact constrained_of_suffixed hconstraint hsuffixed
      | some found =>
        obtain ⟨wrap, found⟩ := found
        refine constrained_of_fails hconstraint ?_ hsuffixed
        rwa [rest_of_constraint hconstraint, hdrop]
    have hmembers : (furtherMembers rest).Reads [] rest :=
      furtherMembers_nothing (separator_eq_none (by rw [hcolon]; decide))
    exact ⟨_, rest, typeExpr_reads hattributes hspecifier (composition_reads hconstrained hmembers),
      hcolon⟩
  · left
    rw [hdrop] at hspecifier
    obtain ⟨_, hattributes⟩ := hattributes
    obtain ⟨_, hspecifier⟩ := hspecifier
    obtain ⟨_, hfails⟩ := hfails
    rw [typeExpr, hattributes]
    dsimp only
    rw [hspecifier]
    dsimp only
    rw [hfails]
    exact ⟨_, rfl⟩

end Wiring.TypeExpr.Grammar
