import Wiring.Proofs.Text.Reading

/-!
# White space after a text

A rule is given two texts, of which the second one has white space after the first. As long as something is
left, the two rests differ by the same white space; where nothing is left of the first text, the white space
may have been skipped in the second one.

* `Spaces`, `Near`: the white space, and two texts that differ by it.
* `Near.of_append`: a word is at the front of both texts, or of none.
* `Found`: a sign is found in both texts, or in none; `opening_near`, `closing_near`, `separator_near`.
* `spacedWord_near`: a word with white space after it is found in both, unless it is the whole first text.
* `Reading.Agrees`, `Loose.Agrees`: the outcomes of one rule on both texts.
* `exists_trimmed`, `trimChars_eq_nil_iff`, `trim_trim`: the white space that is taken away at the ends of a
  text.
-/

namespace Wiring.Text

variable {s s' r r' t word : List Char} {c : Char}

/-- White space between the words of a type, at least one character. -/
structure Spaces where
  chars : List Char
  areGaps : AreGaps chars
  ne_nil : chars ≠ []

/-- A single space. -/
def Spaces.single : Spaces :=
  ⟨[' '], by decide, by decide⟩

/-- **The second text has the white space `g` after the first one**, or both are empty. -/
def Near (g : Spaces) (s s' : List Char) : Prop :=
  s' = s ++ g.chars ∨ s = [] ∧ s' = []

variable {g : Spaces}

theorem near_append (g : Spaces) (s : List Char) : Near g s (s ++ g.chars) :=
  .inl rfl

theorem near_nil (g : Spaces) : Near g [] [] :=
  .inr ⟨rfl, rfl⟩

theorem Near.eq_append (h : Near g s s') (hne : s ≠ []) : s' = s ++ g.chars :=
  h.resolve_right fun hnil => hne hnil.1

/-- What is at the front of the first text is at the front of the second one, too. -/
theorem Near.append (h : Near g (t ++ r) s') : ∃ r', s' = t ++ r' ∧ Near g r r' := by
  rcases h with rfl | ⟨hnil, rfl⟩
  · exact ⟨r ++ g.chars, List.append_assoc .., .inl rfl⟩
  · obtain ⟨rfl, rfl⟩ := List.append_eq_nil_iff.1 hnil
    exact ⟨[], rfl, near_nil g⟩

/-- **A word without white space** in it. -/
def IsSolid (word : List Char) : Prop :=
  ∀ c ∈ word, isGap c = false

instance (word : List Char) : Decidable (IsSolid word) :=
  decidable_of_iff (word.all (fun c => !isGap c) = true) (by simp [IsSolid])

theorem isSolid_singleton (hc : isGap c = false) : IsSolid [c] :=
  List.forall_mem_singleton.2 hc

/-- **A word at the front of the second text** is at the front of the first one, as it has no white
space. -/
theorem Near.of_append (h : Near g s (word ++ r')) (hword : IsSolid word) (hne : word ≠ []) :
    ∃ r, s = word ++ r ∧ Near g r r' := by
  rcases h with h | ⟨-, hnil⟩
  · rcases List.append_eq_append_iff.1 h with ⟨a, rfl, hr⟩ | ⟨a, rfl, hg⟩
    · exact ⟨a, rfl, .inl hr⟩
    · -- what the word would have of the white space is empty
      have ha : a = [] := by
        refine List.eq_nil_iff_forall_not_mem.2 fun c hc => ?_
        have hgap : isGap c = true := g.areGaps c (hg ▸ List.mem_append_left _ hc)
        rw [hword c (List.mem_append_right _ hc)] at hgap
        cases hgap
      subst ha
      exact ⟨[], by simp, .inl (by simpa using hg.symm)⟩
  · exact absurd (List.append_eq_nil_iff.1 hnil).1 hne

theorem Near.head?_iff (h : Near g s s') (hc : isGap c = false) :
    s'.head? = some c ↔ s.head? = some c := by
  constructor
  · intro hhead
    obtain ⟨r', rfl⟩ := List.head?_eq_some_iff.1 hhead
    obtain ⟨r, rfl, -⟩ := Near.of_append (show Near g s ([c] ++ r') from h) (isSolid_singleton hc) (by simp)
    rfl
  · intro hhead
    obtain ⟨r, rfl⟩ := List.head?_eq_some_iff.1 hhead
    obtain ⟨r', rfl, -⟩ := Near.append (t := [c]) h
    rfl

/-- A text is the white space at its front and the rest. -/
theorem exists_gaps (s : List Char) : ∃ b, AreGaps b ∧ s = b ++ skipGaps s :=
  ⟨s.takeWhile isGap, fun _ hc => List.all_eq_true.1 List.all_takeWhile _ hc,
    List.takeWhile_append_dropWhile.symm⟩

theorem skipGaps_eq_nil_iff : skipGaps s = [] ↔ AreGaps s := by
  constructor
  · intro hnil
    obtain ⟨b, hb, hs⟩ := exists_gaps s
    rw [hnil, List.append_nil] at hs
    exact hs ▸ hb
  · exact skipGaps_of_areGaps

theorem skipGaps_skipGaps (s : List Char) : skipGaps (skipGaps s) = skipGaps s := by
  obtain ⟨b, hb, hs⟩ := exists_gaps s
  calc skipGaps (skipGaps s) = skipGaps (b ++ skipGaps s) := (skipGaps_append hb _).symm
    _ = skipGaps s := by rw [← hs]

theorem Near.skipGaps (h : Near g s s') : Near g (skipGaps s) (skipGaps s') := by
  rcases h with rfl | ⟨rfl, rfl⟩
  · rw [Text.skipGaps, Text.skipGaps, List.dropWhile_append]
    split
    · rename_i hnil
      rw [List.isEmpty_iff.1 hnil]
      exact .inr ⟨rfl, skipGaps_of_areGaps g.areGaps⟩
    · exact near_append g _
  · exact near_nil g

theorem Near.areGaps_iff (h : Near g s s') : AreGaps s' ↔ AreGaps s := by
  rcases h with rfl | ⟨rfl, rfl⟩
  · exact ⟨fun hs => fun c hc => hs c (List.mem_append_left _ hc), fun hs => hs.append g.areGaps⟩
  · exact Iff.rfl

/-- The front of a text that is no white space ends where the other one's ends. -/
theorem Near.takeWhile {p : Char → Bool} (h : Near g s s') (hp : ∀ c, isGap c = true → p c = false) :
    s'.takeWhile p = s.takeWhile p ∧ Near g (s.dropWhile p) (s'.dropWhile p) := by
  rcases h with rfl | ⟨rfl, rfl⟩
  · obtain ⟨c, cs, hcs⟩ := List.exists_cons_of_ne_nil g.ne_nil
    have hc : p c = false := hp c (g.areGaps c (hcs ▸ List.mem_cons_self))
    have htake : g.chars.takeWhile p = [] := by rw [hcs, List.takeWhile_cons_of_neg (by simp [hc])]
    have hdrop : g.chars.dropWhile p = g.chars := by rw [hcs, List.dropWhile_cons_of_neg (by simp [hc])]
    have hfront : (s ++ g.chars).takeWhile p = s.takeWhile p := by
      rw [List.takeWhile_append, htake, List.append_nil]
      split
      · rename_i hall
        exact ((List.takeWhile_prefix p).eq_of_length hall).symm
      · rfl
    refine ⟨hfront, .inl ?_⟩
    rw [List.dropWhile_append, hdrop]
    split
    · rename_i hnil
      rw [List.isEmpty_iff.1 hnil, List.nil_append]
    · rfl
  · exact ⟨rfl, near_nil g⟩

/-! ## Signs and words -/

/-- **A sign is found in both texts**, and leaves `r` of the first one, **or in none.** -/
inductive Found (g : Spaces) (R : List Char → Prop) : Option (Shorter s) → Option (Shorter s') → Prop
  | none : Found g R Option.none Option.none
  | some {r r' : List Char} {h : r.length < s.length} {h' : r'.length < s'.length} :
    R r → Near g r r' → Found g R (Option.some ⟨r, h⟩) (Option.some ⟨r', h'⟩)

theorem Found.map {α β : List Char} {R Q : List Char → Prop} {found : Option (Shorter s)}
    {found' : Option (Shorter s')} {f : Shorter s → Shorter α} {f' : Shorter s' → Shorter β}
    (h : Found g R found found') (hf : ∀ x x', R x.1 → Near g x.1 x'.1 →
      Q (f x).1 ∧ Near g (f x).1 (f' x').1) : Found g Q (found.map f) (found'.map f') := by
  cases h with
  | none => exact .none
  | some hr hnear =>
    obtain ⟨hq, hnear⟩ := hf ⟨_, _⟩ ⟨_, _⟩ hr hnear
    exact .some hq hnear

theorem Found.mono {R Q : List Char → Prop} {found : Option (Shorter s)} {found' : Option (Shorter s')}
    (h : Found g R found found') (hR : ∀ x, R x → Q x) : Found g Q found found' := by
  cases h with
  | none => exact .none
  | some hr hnear => exact .some (hR _ hr) hnear

theorem shorterAfter_eq_some {found : Shorter s} (h : shorterAfter word s = some found) :
    s = word ++ found.1 := by
  unfold shorterAfter at h
  split at h
  · rename_i rest hrest
    split at h
    · cases h
    · cases h
      exact afterWord_eq_some_iff.1 hrest
  · cases h

section Word

variable (h : Near g s s') (hword : IsSolid word) (hne : word ≠ [])
include h hword hne

theorem shorterAfter_near :
    Found g (fun r => s = word ++ r) (shorterAfter word s) (shorterAfter word s') := by
  cases hs : shorterAfter word s with
  | some found =>
    have hfront := shorterAfter_eq_some hs
    obtain ⟨r', rfl, hnear⟩ := Near.append (hfront ▸ h)
    obtain ⟨_, hs'⟩ := shorterAfter_leaves hne r'
    rw [hs']
    exact .some hfront hnear
  | none =>
    have hs' : shorterAfter word s' = none := by
      refine Option.eq_none_iff_forall_ne_some.2 fun found hfound => ?_
      obtain ⟨r, rfl, -⟩ := Near.of_append (shorterAfter_eq_some hfound ▸ h) hword hne
      obtain ⟨_, hleaves⟩ := shorterAfter_leaves hne r
      rw [hleaves] at hs
      cases hs
    rw [hs']
    exact .none

theorem opening_near :
    Found g (fun r => ∃ t, s = word ++ t ∧ r = skipGaps t) (opening word s) (opening word s') :=
  (shorterAfter_near h hword hne).map fun x _ hr hnear => ⟨⟨x.1, hr, rfl⟩, hnear.skipGaps⟩

theorem closing_near :
    Found g (fun r => ∃ b, AreGaps b ∧ s = b ++ (word ++ r)) (closing word s) (closing word s') := by
  obtain ⟨b, hb, hs⟩ := exists_gaps s
  exact (shorterAfter_near h.skipGaps hword hne).map fun x _ hr hnear => ⟨⟨b, hb, hr ▸ hs⟩, hnear⟩

theorem separator_near :
    Found g (fun r => ∃ b t, AreGaps b ∧ s = b ++ (word ++ t) ∧ r = skipGaps t) (separator word s)
      (separator word s') := by
  obtain ⟨b, hb, hs⟩ := exists_gaps s
  refine (opening_near h.skipGaps hword hne).map fun x _ hr hnear => ?_
  obtain ⟨t, ht, hskip⟩ := hr
  exact ⟨⟨b, t, hb, ht ▸ hs, hskip⟩, hnear⟩

omit h hword in
/-- The white space after a word is skipped to its end. -/
theorem spacedWord_leaves_skipGaps (hgap : t.head?.any isGap = true) :
    Leaves (spacedWord word (word ++ t)) (skipGaps t) := by
  cases t with
  | nil => cases hgap
  | cons c t =>
    have hc : isGap c = true := by simpa using hgap
    obtain ⟨b, hb, ht⟩ := exists_gaps t
    have hgaps : AreGaps (c :: b) := List.forall_mem_cons.2 ⟨hc, hb⟩
    have hskip : skipGaps (c :: t) = skipGaps t := by
      rw [skipGaps, List.dropWhile_cons_of_pos hc, ← skipGaps]
    have hleaves := spacedWord_leaves hne hgaps (List.cons_ne_nil _ _) (skipGaps_skipGaps t)
    rwa [List.cons_append, ← ht, ← hskip] at hleaves

/-- **A word with white space after it** is found in both texts or in none; only a word that is the whole
first text has white space after it in the second one alone. -/
theorem spacedWord_near :
    Found g (fun r => ∃ t, s = word ++ t ∧ r = skipGaps t) (spacedWord word s) (spacedWord word s') ∨
      s = word ∧ spacedWord word s = none ∧ Leaves (spacedWord word s') [] := by
  cases hs : spacedWord word s with
  | some found =>
    obtain ⟨t, hfront, hfound, c, hc, hgap⟩ := spacedWord_eq_some hne hs
    obtain ⟨t', rfl, hnear⟩ := Near.append (hfront ▸ h)
    have hhead : t'.head?.any isGap = true := by
      have ht : t ≠ [] := by
        rintro rfl
        cases hc
      rw [hnear.eq_append ht, List.head?_append, hc]
      exact hgap
    obtain ⟨_, hs'⟩ := spacedWord_leaves_skipGaps hne hhead
    rw [hs']
    obtain ⟨r, hr⟩ := found
    obtain rfl : r = skipGaps t := hfound
    exact .inl (.some ⟨t, hfront, rfl⟩ hnear.skipGaps)
  | none =>
    cases hs' : spacedWord word s' with
    | none => exact .inl .none
    | some found =>
      right
      obtain ⟨t', rfl, hfound, c, hc, hgap⟩ := spacedWord_eq_some hne hs'
      obtain ⟨t, rfl, hnear⟩ := h.of_append hword hne
      cases t with
      | cons d t =>
        -- what follows the word in the second text does so in the first one
        obtain rfl : d = c := by
          rw [hnear.eq_append (List.cons_ne_nil _ _)] at hc
          simpa using hc
        obtain ⟨_, hleaves⟩ := spacedWord_leaves_skipGaps (t := d :: t) hne hgap
        rw [hleaves] at hs
        cases hs
      | nil =>
        have hskip : skipGaps t' = [] :=
          skipGaps_of_areGaps (hnear.areGaps_iff.2 (List.forall_mem_nil _))
        exact ⟨List.append_nil word, rfl, leaves_some (hfound.trans hskip)⟩

end Word

/-! ## Outcomes on both texts -/

variable {α β : Type} {R P Q S : List Char → Prop} {L : Prop}

/-- **The same thing is found in both texts**, and leaves `r` of the first one, **or nothing in either.** -/
inductive FoundAs (g : Spaces) (R : List Char → Prop) :
    Option (β × Shorter s) → Option (β × Shorter s') → Prop
  | none : FoundAs g R Option.none Option.none
  | some {b : β} {r r' : List Char} {h : r.length < s.length} {h' : r'.length < s'.length} :
    R r → Near g r r' → FoundAs g R (Option.some (b, ⟨r, h⟩)) (Option.some (b, ⟨r', h'⟩))

/-- The first of several words that is found is the same in both texts. -/
theorem foundAs_findSome {words : List β} {found : β → Option (Shorter s)}
    {found' : β → Option (Shorter s')} (h : ∀ w ∈ words, Found g R (found w) (found' w)) :
    FoundAs g R (words.findSome? fun w => (found w).map (w, ·))
      (words.findSome? fun w => (found' w).map (w, ·)) := by
  induction words with
  | nil => exact .none
  | cons w words ih =>
    obtain ⟨hw, hwords⟩ := List.forall_mem_cons.1 h
    rw [List.findSome?_cons, List.findSome?_cons]
    generalize found w = first at hw
    generalize found' w = first' at hw
    cases hw with
    | none => exact ih hwords
    | some hr hnear => exact .some hr hnear

/-- **A rule has the same outcome on both texts**, and leaves `r` of the first one. Or it leaves nothing of
the first one; of the second one it leaves what `P` says, or it reads nothing there, which takes `L`. -/
inductive Reading.Agrees (g : Spaces) (R P : List Char → Prop) (L : Prop) :
    Reading α s → Reading α s' → Prop
  | done {a : α} {r r' : List Char} {h : r.length < s.length} {h' : r'.length < s'.length} :
    R r → Near g r r' → Agrees g R P L (.done a r h) (.done a r' h')
  | failed {place place' : List Char} : Agrees g R P L (.failed place) (.failed place')
  | apart {a a' : α} {r' : List Char} {h : ([] : List Char).length < s.length}
    {h' : r'.length < s'.length} : P r' → Agrees g R P L (.done a [] h) (.done a' r' h')
  | lost {a : α} {place : List Char} {h : ([] : List Char).length < s.length} :
    L → Agrees g R P L (.done a [] h) (.failed place)

/-- **An option or a repetition has the same outcome on both texts**, or it leaves nothing of the first one
and of the second one what `P` says. -/
inductive Loose.Agrees (g : Spaces) (R P : List Char → Prop) : Loose α s → Loose α s' → Prop
  | done {a : α} {r r' : List Char} {h : r.length ≤ s.length} {h' : r'.length ≤ s'.length} :
    R r → Near g r r' → Agrees g R P ⟨a, r, h⟩ ⟨a, r', h'⟩
  | apart {a a' : α} {r' : List Char} {h : ([] : List Char).length ≤ s.length}
    {h' : r'.length ≤ s'.length} : P r' → Agrees g R P ⟨a, [], h⟩ ⟨a', r', h'⟩

theorem Reading.Agrees.map {reading : Reading α s} {reading' : Reading α s'}
    (h : reading.Agrees g R P L reading') (f : α → β) :
    (reading.map f).Agrees g R P L (reading'.map f) := by
  cases h with
  | done hr hnear => exact .done hr hnear
  | failed => exact .failed
  | apart hp => exact .apart hp
  | lost hl => exact .lost hl

theorem Reading.Agrees.mono {M : Prop} {reading : Reading α s} {reading' : Reading α s'}
    (h : reading.Agrees g R P L reading') (hP : ∀ x, P x → S x) (hL : L → M) :
    reading.Agrees g R S M reading' := by
  cases h with
  | done hr hnear => exact .done hr hnear
  | failed => exact .failed
  | apart hp => exact .apart (hP _ hp)
  | lost hl => exact .lost (hL hl)

theorem Loose.Agrees.map {outcome : Loose α s} {outcome' : Loose α s'} (h : outcome.Agrees g R P outcome')
    (f : α → β) : (outcome.map f).Agrees g R P (outcome'.map f) := by
  cases h with
  | done hr hnear => exact .done hr hnear
  | apart hp => exact .apart hp

section Within

variable (hR : ∀ x, R x → Q x) (hP : ∀ x, P x → S x)
include hR hP

/-- The outcomes on rests of two texts are outcomes on the texts. -/
theorem Reading.Agrees.within {M : Prop} {reading : Reading α r} {reading' : Reading α r'}
    {hr : r.length ≤ s.length} {hr' : r'.length ≤ s'.length} (h : reading.Agrees g R P L reading')
    (hL : L → M) : (reading.within hr).Agrees g Q S M (reading'.within hr') := by
  cases h with
  | done hr hnear => exact .done (hR _ hr) hnear
  | failed => exact .failed
  | apart hp => exact .apart (hP _ hp)
  | lost hl => exact .lost (hL hl)

theorem Loose.Agrees.within {outcome : Loose α r} {outcome' : Loose α r'}
    {hr : r.length ≤ s.length} {hr' : r'.length ≤ s'.length} (h : outcome.Agrees g R P outcome') :
    (outcome.within hr).Agrees g Q S (outcome'.within hr') := by
  cases h with
  | done hr hnear => exact .done (hR _ hr) hnear
  | apart hp => exact .apart (hP _ hp)

theorem Loose.Agrees.after {outcome : Loose α r} {outcome' : Loose α r'} {hr : r.length < s.length}
    {hr' : r'.length < s'.length} (h : outcome.Agrees g R P outcome') :
    (outcome.after hr).Agrees g Q S L (outcome'.after hr') := by
  cases h with
  | done hr hnear => exact .done (hR _ hr) hnear
  | apart hp => exact .apart (hP _ hp)

end Within

/-! ## White space that is taken away -/

theorem takeWhile_append_trimStart (s : List Char) : s.takeWhile isBlank ++ trimStart s = s :=
  List.takeWhile_append_dropWhile

theorem trimStart_begins (h : trimStart s ≠ []) : Begins (trimStart s) := by
  obtain ⟨c, cs, hcs⟩ := List.exists_cons_of_ne_nil h
  have hc := List.head?_dropWhile_not isBlank s
  rw [trimStart] at hcs
  rw [hcs] at hc
  exact ⟨c, cs, hcs, hc⟩

theorem Begins.trimStart_eq (h : Begins s) : trimStart s = s := by
  obtain ⟨c, cs, rfl, hc⟩ := h
  exact List.dropWhile_cons_of_neg (by simp [hc])

theorem trimStart_trimStart (s : List Char) : trimStart (trimStart s) = trimStart s := by
  by_cases hnil : trimStart s = []
  · rw [hnil]
    rfl
  · exact (trimStart_begins hnil).trimStart_eq

/-- **A text is the text without the white space at its ends**, and that white space. -/
theorem exists_trimmed (s : List Char) : ∃ before after, s = before ++ (trimChars s ++ after) ∧
    ∀ c ∈ before ++ after, isBlank c = true := by
  refine ⟨s.takeWhile isBlank, ((trimStart s).reverse.takeWhile isBlank).reverse, ?_, ?_⟩
  · rw [trimChars, ← List.reverse_append, takeWhile_append_trimStart, List.reverse_reverse,
      takeWhile_append_trimStart]
  · have hblank : ∀ cs : List Char, ∀ c ∈ cs.takeWhile isBlank, isBlank c = true :=
      fun cs c hc => List.all_eq_true.1 List.all_takeWhile c hc
    exact List.forall_mem_append.2 ⟨hblank s, fun c hc => hblank _ c (List.mem_reverse.1 hc)⟩

/-- What is left of a text begins with something. -/
theorem trimChars_begins (h : trimChars s ≠ []) : Begins (trimChars s) := by
  have hfront : trimChars s <+: trimStart s := by
    rw [← List.reverse_suffix, trimChars, List.reverse_reverse]
    exact List.dropWhile_suffix isBlank
  obtain ⟨c, cs, hcs⟩ := List.exists_cons_of_ne_nil h
  obtain ⟨rest, hrest⟩ := hfront
  have hne : trimStart s ≠ [] := by
    rw [← hrest, hcs]
    exact List.cons_ne_nil _ _
  obtain ⟨d, ds, hds, hd⟩ := trimStart_begins hne
  rw [hds, hcs, List.cons_append] at hrest
  obtain rfl : c = d := (List.cons.inj hrest).1
  exact ⟨c, cs, hcs, hd⟩

/-- Nothing is left of a text that is all white space, and of no other. -/
theorem trimChars_eq_nil_iff : trimChars s = [] ↔ ∀ c ∈ s, isBlank c = true := by
  constructor
  · intro hnil
    obtain ⟨before, after, hs, hblank⟩ := exists_trimmed s
    rw [hs, hnil, List.nil_append]
    exact hblank
  · intro hblank
    refine List.eq_nil_iff_forall_not_mem.2 fun c hc => ?_
    obtain ⟨d, ds, htrim, hd⟩ := trimChars_begins (List.ne_nil_of_mem hc)
    obtain ⟨before, after, hs, -⟩ := exists_trimmed s
    have hmem : d ∈ s := by
      rw [hs, htrim]
      exact List.mem_append_right _ List.mem_cons_self
    rw [hblank d hmem] at hd
    cases hd

theorem trimChars_trimChars (s : List Char) : trimChars (trimChars s) = trimChars s := by
  by_cases hnil : trimChars s = []
  · rw [hnil]
    rfl
  · calc trimChars (trimChars s) = (trimStart (trimChars s).reverse).reverse := by
          rw [trimChars, (trimChars_begins hnil).trimStart_eq]
      _ = trimChars s := by
          rw [trimChars, List.reverse_reverse, trimStart_trimStart]

theorem trim_trim (text : String) : trim (trim text) = trim text := by
  rw [trim, trim, String.toList_ofList, trimChars_trimChars]

end Wiring.Text
