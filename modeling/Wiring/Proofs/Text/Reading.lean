import Wiring.Text.Reading

/-!
# What a rule reads

A rule's outcome carries the proof that something was read. Here it is said without that proof: which
value a rule reads, and which rest it leaves.

* `Reading.Reads`, `Reading.Fails`, `Loose.Reads`, `Leaves`: the outcomes.
* `Follows`: what comes next after white space; a rule that ends stays within its text by it.
* `opening_leaves`, `closing_leaves`, `separator_leaves`: signs and the white space around them.
* `utf8Length_append`, `utf8Length_eq`: lengths in bytes.
-/

namespace Wiring.Text

variable {α β : Type} {s t rest word : List Char} {c : Char}

/-! ## Outcomes -/

/-- The rule has read `a`, and `rest` is left. -/
def Reading.Reads (reading : Reading α s) (a : α) (rest : List Char) : Prop :=
  ∃ h, reading = .done a rest h

/-- The rule has read nothing. -/
def Reading.Fails (reading : Reading α s) : Prop :=
  ∃ place, reading = .failed place

/-- The option or the repetition has read `a`, and `rest` is left. -/
def Loose.Reads (outcome : Loose α s) (a : α) (rest : List Char) : Prop :=
  ∃ h, outcome = ⟨a, rest, h⟩

/-- The sign is there, and `rest` is left. -/
def Leaves (found : Option (Shorter s)) (rest : List Char) : Prop :=
  ∃ h, found = some ⟨rest, h⟩

/-! ## What is read, whatever is left -/

/-- Whatever the rule reads is as `P` says. -/
def Reading.Yields (P : α → Prop) : Reading α s → Prop
  | .done a _ _ => P a
  | .failed _ => True

namespace Reading

variable {P Q : α → Prop} {reading : Reading α s}

theorem Yields.mono (h : reading.Yields P) (himp : ∀ a, P a → Q a) : reading.Yields Q := by
  cases reading with
  | done a => exact himp a h
  | failed => exact trivial

theorem yields_map {f : α → β} {P : β → Prop} :
    (reading.map f).Yields P ↔ reading.Yields fun a => P (f a) := by
  cases reading <;> rfl

theorem yields_within {h : s.length ≤ t.length} : (reading.within h).Yields P ↔ reading.Yields P := by
  cases reading <;> rfl

theorem yields_after {h : s.length < t.length} : (reading.after h).Yields P ↔ reading.Yields P :=
  yields_within

theorem yields_afterChar {c : Char} : (reading.afterChar (c := c)).Yields P ↔ reading.Yields P :=
  yields_within

theorem Yields.orElse {default : α} (h : reading.Yields P) (hdefault : P default) :
    P (reading.orElse default).value := by
  cases reading with
  | done => exact h
  | failed => exact hdefault

end Reading

/-! ## White space -/

/-- Nothing but white space. -/
def AreGaps (g : List Char) : Prop :=
  ∀ c ∈ g, isGap c = true

instance (g : List Char) : Decidable (AreGaps g) :=
  decidable_of_iff (g.all isGap = true) List.all_eq_true

theorem AreGaps.append {g g' : List Char} (h : AreGaps g) (h' : AreGaps g') : AreGaps (g ++ g') :=
  List.forall_mem_append.2 ⟨h, h'⟩

/-- White space at the front is skipped. -/
theorem skipGaps_append {g : List Char} (h : AreGaps g) (s : List Char) :
    skipGaps (g ++ s) = skipGaps s :=
  List.dropWhile_append_of_pos h

theorem skipGaps_of_areGaps {g : List Char} (h : AreGaps g) : skipGaps g = [] := by
  rw [← List.append_nil g, skipGaps_append h]
  rfl

theorem skipGaps_cons (h : isGap c = false) : skipGaps (c :: s) = c :: s := by
  rw [skipGaps, List.dropWhile_cons_of_neg (by simp [h])]

/-- **A text begins with something**: no white space, not even in the sense of Unicode. -/
def Begins (s : List Char) : Prop :=
  ∃ c cs, s = c :: cs ∧ isBlank c = false

theorem isGap_eq_false_of_isBlank (h : isBlank c = false) : isGap c = false := by
  refine Bool.eq_false_iff.2 fun hgap => ?_
  rw [isBlank_of_isGap hgap] at h
  cases h

theorem Begins.append (h : Begins s) (rest : List Char) : Begins (s ++ rest) := by
  obtain ⟨c, cs, rfl, hc⟩ := h
  exact ⟨c, cs ++ rest, rfl, hc⟩

theorem Begins.skipGaps_eq (h : Begins s) : skipGaps s = s := by
  obtain ⟨c, cs, rfl, hc⟩ := h
  exact skipGaps_cons (isGap_eq_false_of_isBlank hc)

/-- What is no white space is kept at the front. -/
theorem mem_trimStart (h : c ∈ s) (hc : isBlank c = false) : c ∈ trimStart s := by
  rw [← List.takeWhile_append_dropWhile (p := isBlank) (l := s), List.mem_append] at h
  rcases h with hfront | hrest
  · rw [List.all_eq_true.1 List.all_takeWhile c hfront] at hc
    cases hc
  · exact hrest

/-- What is no white space is kept. -/
theorem mem_trimChars (h : c ∈ s) (hc : isBlank c = false) : c ∈ trimChars s :=
  List.mem_reverse.2 (mem_trimStart (List.mem_reverse.2 (mem_trimStart h hc)) hc)

/-- **After white space, one of the characters `ends` comes next**, or the text ends. -/
def Follows (ends s : List Char) : Prop :=
  ∀ c, (skipGaps s).head? = some c → c ∈ ends

variable {ends : List Char}

theorem Follows.mono {ends' : List Char} (h : Follows ends s) (hends : ends ⊆ ends') :
    Follows ends' s :=
  fun c hc => hends (h c hc)

theorem follows_append_iff {g : List Char} (h : AreGaps g) :
    Follows ends (g ++ s) ↔ Follows ends s := by
  rw [Follows, skipGaps_append h, Follows]

theorem follows_of_areGaps {g : List Char} (h : AreGaps g) : Follows ends g := by
  rw [Follows, skipGaps_of_areGaps h]
  simp

theorem follows_nil : Follows ends [] :=
  follows_of_areGaps (List.forall_mem_nil _)

/-- A sign that is no white space comes next itself. -/
theorem follows_cons (hc : isGap c = false) (hends : c ∈ ends) : Follows ends (c :: s) := by
  rw [Follows, skipGaps_cons hc]
  simpa using hends

/-- A sign comes next after white space. -/
theorem follows_append_cons {g : List Char} (hg : AreGaps g) (hc : isGap c = false) (hends : c ∈ ends) :
    Follows ends (g ++ c :: s) :=
  (follows_append_iff hg).2 (follows_cons hc hends)

/-- The first character is white space or one of `ends`. -/
theorem Follows.head (h : Follows ends s) (hc : s.head? = some c) : isGap c = true ∨ c ∈ ends := by
  obtain ⟨cs, rfl⟩ := List.head?_eq_some_iff.1 hc
  by_cases hgap : isGap c = true
  · exact .inl hgap
  · exact .inr (h c (by rw [skipGaps_cons (by simpa using hgap)]; rfl))

theorem Follows.head_ne (h : Follows ends s) (hc : c ∉ ends) (hgap : isGap c = false) :
    s.head? ≠ some c := by
  intro hhead
  rcases h.head hhead with hgap' | hends
  · rw [hgap] at hgap'
    cases hgap'
  · exact hc hends

theorem Follows.head_skipGaps_ne (h : Follows ends s) (hc : c ∉ ends) :
    (skipGaps s).head? ≠ some c :=
  fun hhead => hc (h c hhead)

/-- **No white space comes next.** -/
def Adjoins (s : List Char) : Prop :=
  ∀ c, s.head? = some c → isGap c = false

theorem adjoins_nil : Adjoins [] :=
  nofun

theorem adjoins_cons (hc : isGap c = false) : Adjoins (c :: s) := by
  intro d hd
  obtain rfl : c = d := by simpa using hd
  exact hc

/-! ## Words and signs -/

theorem afterWord_append (word rest : List Char) : afterWord word (word ++ rest) = some rest :=
  afterWord_eq_some_iff.2 rfl

/-- A word that is there. -/
theorem shorterAfter_leaves (hword : word ≠ []) (rest : List Char) :
    Leaves (shorterAfter word (word ++ rest)) rest := by
  unfold shorterAfter
  split
  · rename_i found hfound
    rw [afterWord_append] at hfound
    cases hfound
    rw [dif_neg hword]
    exact ⟨_, rfl⟩
  · rename_i hnone
    rw [afterWord_append] at hnone
    cases hnone

/-- A word is not there if its first character is not. -/
theorem shorterAfter_eq_none (h : s.head? ≠ some c) : shorterAfter (c :: word) s = none := by
  unfold shorterAfter
  split
  · rename_i found hfound
    rw [afterWord_eq_some_iff] at hfound
    simp [hfound] at h
  · rfl

theorem leaves_some {found : Shorter s} (h : found.1 = rest) : Leaves (some found) rest := by
  subst h
  exact ⟨found.2, rfl⟩

theorem opening_leaves_skipGaps (hword : word ≠ []) (rest : List Char) :
    Leaves (opening word (word ++ rest)) (skipGaps rest) := by
  obtain ⟨h, hleaves⟩ := shorterAfter_leaves hword rest
  rw [opening, hleaves]
  exact leaves_some rfl

/-- A sign that is there, and the white space after it. -/
theorem opening_leaves {g : List Char} (hword : word ≠ []) (hg : AreGaps g)
    (hrest : skipGaps rest = rest) : Leaves (opening word (word ++ (g ++ rest))) rest := by
  have hleaves := opening_leaves_skipGaps hword (g ++ rest)
  rwa [skipGaps_append hg, hrest] at hleaves

theorem opening_eq_none (h : s.head? ≠ some c) : opening (c :: word) s = none := by
  rw [opening, shorterAfter_eq_none h]
  rfl

/-- A sign that is there after white space. -/
theorem closing_leaves {g : List Char} (hc : isGap c = false) (hg : AreGaps g) :
    Leaves (closing (c :: word) (g ++ (c :: word ++ rest))) rest := by
  have hleaves : Leaves (shorterAfter (c :: word) (skipGaps (g ++ (c :: word ++ rest)))) rest := by
    rw [skipGaps_append hg, List.cons_append, skipGaps_cons hc]
    exact shorterAfter_leaves (List.cons_ne_nil _ _) rest
  obtain ⟨_, hleaves⟩ := hleaves
  rw [closing, hleaves]
  exact leaves_some rfl

/-- A sign that is there with white space around it. -/
theorem separator_leaves {g g' : List Char} (hc : isGap c = false) (hg : AreGaps g) (hg' : AreGaps g')
    (hrest : skipGaps rest = rest) :
    Leaves (separator (c :: word) (g ++ (c :: word ++ (g' ++ rest)))) rest := by
  have hleaves : Leaves (opening (c :: word) (skipGaps (g ++ (c :: word ++ (g' ++ rest))))) rest := by
    rw [skipGaps_append hg, List.cons_append, skipGaps_cons hc]
    exact opening_leaves (List.cons_ne_nil _ _) hg' hrest
  obtain ⟨_, hleaves⟩ := hleaves
  rw [separator, hleaves]
  exact leaves_some rfl

theorem separator_eq_none (h : (skipGaps s).head? ≠ some c) : separator (c :: word) s = none := by
  rw [separator, opening_eq_none h]
  rfl

/-- A word that is there, and the white space after it, of which there is some. -/
theorem spacedWord_leaves (hword : word ≠ []) {g : List Char} (hg : AreGaps g) (hne : g ≠ [])
    (hrest : skipGaps rest = rest) : Leaves (spacedWord word (word ++ (g ++ rest))) rest := by
  obtain ⟨h, hleaves⟩ := opening_leaves hword hg hrest
  -- the check looks at the first character after the word
  have hgap : ((afterWord word (word ++ (g ++ rest))).bind List.head?).any isGap = true := by
    obtain ⟨c, g, rfl⟩ := List.exists_cons_of_ne_nil hne
    rw [afterWord_append]
    simpa using hg c List.mem_cons_self
  rw [spacedWord, hleaves, Option.filter_some, hgap]
  exact leaves_some rfl

/-- **What a word with white space after it leaves.** -/
theorem spacedWord_eq_some {found : Shorter s} (hword : word ≠ []) (h : spacedWord word s = some found) :
    ∃ tail, s = word ++ tail ∧ found.1 = skipGaps tail ∧ ∃ c, tail.head? = some c ∧ isGap c = true := by
  obtain ⟨hopening, hgap⟩ := Option.filter_eq_some_iff.1 h
  cases hafter : afterWord word s with
  | none =>
    rw [hafter] at hgap
    cases hgap
  | some tail =>
    rw [hafter, Option.bind_some] at hgap
    obtain rfl := afterWord_eq_some_iff.1 hafter
    obtain ⟨_, hleaves⟩ := opening_leaves_skipGaps hword tail
    rw [hleaves] at hopening
    cases hopening
    exact ⟨tail, rfl, rfl, by simpa [Option.any_eq_true] using hgap⟩

/-! ## Lengths in bytes -/

theorem utf8Length_append (s t : List Char) : utf8Length (s ++ t) = utf8Length s + utf8Length t := by
  induction s with
  | nil => exact (Nat.zero_add _).symm
  | cons c s ih => rw [List.cons_append, utf8Length, utf8Length, ih, Nat.add_assoc]

theorem utf8Length_eq (s : List Char) : utf8Length s = (String.ofList s).utf8ByteSize := by
  induction s with
  | nil => rfl
  | cons c s ih =>
    have hcons : String.ofList (c :: s) = String.singleton c ++ String.ofList s := String.ofList_cons
    rw [utf8Length, ih, hcons, String.utf8ByteSize_append, String.utf8ByteSize_singleton]

end Wiring.Text
