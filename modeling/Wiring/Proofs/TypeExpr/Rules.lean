import Wiring.Proofs.Text.Reading
import Wiring.Proofs.TypeExpr.Canonical

/-!
# The rules of the grammar, one by one

For each rule it is said what it reads, given what the rules that it calls read, and what makes it fail.
From here on no rule is opened any more.

* `identifier_reads`: names; `EndsWord`: where a name ends.
* `attributes_cons`, `specifier_reads`, `constraint_some`, `constraint_any`: what stands before a type.
* `typeExpr_reads` … `parenthesized_reads_group`: the rules for types.
* `composition_fails`, `typeExpr_fails`: what starts no type.
-/

namespace Wiring.TypeExpr.Grammar

open Text

variable {s r r' rest g : List Char} {t u : TypeExpr} {c : Char} {w name : String}

/-! ## Names -/

/-- **A name ends here**: no letter, digit or underscore of ASCII comes next. -/
def EndsWord (s : List Char) : Prop :=
  ∀ c, s.head? = some c → isIdentifierChar c = false

theorem isIdentifierChar_of_start (h : isIdentifierStart c = true) : isIdentifierChar c = true := by
  simp only [isIdentifierStart, isIdentifierChar, Char.isAlphanum, Bool.or_eq_true] at h ⊢
  exact h.imp_left .inl

theorem exists_of_isIdentifier (h : isIdentifier w = true) :
    ∃ c cs, w.toList = c :: cs ∧ isIdentifierStart c = true ∧ ∀ c' ∈ cs, isIdentifierChar c' = true := by
  unfold isIdentifier at h
  split at h
  · cases h
  · rename_i c cs hw
    simp only [Bool.and_eq_true, List.all_eq_true] at h
    exact ⟨c, cs, hw, h⟩

theorem all_of_isIdentifier (h : isIdentifier w = true) : ∀ c ∈ w.toList, isIdentifierChar c = true := by
  obtain ⟨c, cs, hw, hc, hcs⟩ := exists_of_isIdentifier h
  rw [hw]
  exact List.forall_mem_cons.2 ⟨isIdentifierChar_of_start hc, hcs⟩

/-- White space ends a name. -/
theorem isIdentifierChar_of_isGap (h : isGap c = true) : isIdentifierChar c = false := by
  simp only [isGap, Bool.or_eq_true, decide_eq_true_eq] at h
  rcases h with ((rfl | rfl) | rfl) | rfl <;> decide

theorem dropWhile_of_endsWord (h : EndsWord s) : s.dropWhile isIdentifierChar = s := by
  cases s with
  | nil => rfl
  | cons c cs => exact List.dropWhile_cons_of_neg (by simp [h c rfl])

theorem takeWhile_of_endsWord (h : EndsWord s) : s.takeWhile isIdentifierChar = [] := by
  cases s with
  | nil => rfl
  | cons c cs => exact List.takeWhile_cons_of_neg (by simp [h c rfl])

/-- The name at the front of a text. -/
theorem takeWhile_name {cs : List Char} (hcs : ∀ c ∈ cs, isIdentifierChar c = true)
    (h : EndsWord s) : (cs ++ s).takeWhile isIdentifierChar = cs := by
  rw [List.takeWhile_append_of_pos hcs, takeWhile_of_endsWord h, List.append_nil]

/-- **A name is read to its end.** -/
theorem identifier_reads (hw : isIdentifier w = true) (h : EndsWord rest) :
    (identifier (w.toList ++ rest)).Reads w rest := by
  obtain ⟨c, cs, hwc, hc, hcs⟩ := exists_of_isIdentifier hw
  have hname : String.ofList (c :: cs) = w := by rw [← hwc, String.ofList_toList]
  have hrun : (run isIdentifierChar c (cs ++ rest)).Reads w rest := by
    refine ⟨by rw [List.length_cons, List.length_append]; omega, ?_⟩
    simp only [run, takeWhile_name hcs h, List.dropWhile_append_of_pos hcs, dropWhile_of_endsWord h,
      hname]
  rw [hwc, List.cons_append, identifier, if_pos hc]
  exact hrun

theorem identifier_fails (h : ∀ c, s.head? = some c → isIdentifierStart c = false) :
    (identifier s).Fails := by
  cases s with
  | nil => exact ⟨_, rfl⟩
  | cons c cs =>
    rw [identifier, if_neg (by simp [h c rfl])]
    exact ⟨_, rfl⟩

/-! ## Words -/

/-- **A keyword ends here**: no letter, digit or underscore of any script comes next. -/
def EndsKeyword (s : List Char) : Prop :=
  ∀ c, s.head? = some c → isAlphanumeric c = false ∧ c ≠ '_'

/-- White space ends a keyword. -/
theorem endsKeyword_of_isGap (h : isGap c = true) : isAlphanumeric c = false ∧ c ≠ '_' := by
  simp only [isGap, Bool.or_eq_true, decide_eq_true_eq] at h
  rcases h with ((rfl | rfl) | rfl) | rfl <;> decide

theorem keyword_leaves {word : List Char} (hword : word ≠ []) (h : EndsKeyword rest) :
    Leaves (keyword word (word ++ rest)) rest := by
  obtain ⟨hshorter, hleaves⟩ := shorterAfter_leaves hword rest
  refine ⟨hshorter, ?_⟩
  rw [keyword, hleaves, Option.filter_some]
  cases hhead : rest.head? with
  | none => simp
  | some c => simp [h c hhead]

theorem keyword_eq_none {word : List Char} (h : s.head? ≠ some c) : keyword (c :: word) s = none := by
  rw [keyword, shorterAfter_eq_none h]
  rfl

/-- **A word with white space after it is the name at the front.** -/
theorem name_of_spacedWord {word : List Char} {found : Shorter s}
    (hword : ∀ c ∈ word, isIdentifierChar c = true) (hne : word ≠ [])
    (h : spacedWord word s = some found) :
    s.takeWhile isIdentifierChar = word ∧ found.1 = skipGaps (s.dropWhile isIdentifierChar) := by
  obtain ⟨tail, rfl, hfound, c, hc, hgap⟩ := spacedWord_eq_some hne h
  have hend : EndsWord tail := by
    intro d hd
    rw [hc, Option.some.injEq] at hd
    exact hd ▸ isIdentifierChar_of_isGap hgap
  refine ⟨takeWhile_name hword hend, ?_⟩
  rw [List.dropWhile_append_of_pos hword, dropWhile_of_endsWord hend, hfound]

/-- Another name is not taken for the word. -/
theorem spacedWord_eq_none {word : List Char} (hword : ∀ c ∈ word, isIdentifierChar c = true)
    (hne : word ≠ []) (h : s.takeWhile isIdentifierChar ≠ word) : spacedWord word s = none :=
  Option.eq_none_iff_forall_ne_some.2 fun _ hfound => h (name_of_spacedWord hword hne hfound).1

/-! ## What stands before a type -/

/-- A text without an attribute at the front. -/
theorem attributes_nothing (h : s.head? ≠ some '@') : (attributes s).Reads [] s := by
  have hname : attributeName s = .failed s := by
    unfold attributeName
    split
    · simp at h
    · rfl
  rw [attributes]
  simp only [hname]
  exact ⟨_, rfl⟩

/-- An attribute and the white space after it. -/
theorem attributes_cons {a : String} {as : List String} (ha : isIdentifier a = true) (hend : EndsWord r)
    (h : (attributes (skipGaps r)).Reads as rest) :
    (attributes ('@' :: (a.toList ++ r))).Reads (a :: as) rest := by
  obtain ⟨_, hname⟩ := identifier_reads ha hend
  obtain ⟨_, h⟩ := h
  rw [attributes]
  simp only [attributeName, hname, Reading.afterChar, Reading.within, h]
  exact ⟨_, rfl⟩

/-- The specifiers are names. -/
theorem isIdentifierChar_of_specifier {word : String} (h : word ∈ specifiers) :
    (∀ c ∈ word.toList, isIdentifierChar c = true) ∧ word.toList ≠ [] := by
  have hall : ∀ word ∈ specifiers, word.toList.all isIdentifierChar = true ∧ word.toList ≠ [] := by
    decide
  exact ⟨List.all_eq_true.1 (hall word h).1, (hall word h).2⟩

/-- White space ends a name. -/
theorem endsWord_append (hg : AreGaps g) (hne : g ≠ []) (rest : List Char) : EndsWord (g ++ rest) := by
  obtain ⟨c, g, rfl⟩ := List.exists_cons_of_ne_nil hne
  intro d hd
  obtain rfl : c = d := by simpa using hd
  exact isIdentifierChar_of_isGap (hg c List.mem_cons_self)

/-- A specifier is found only where it is the name at the front. -/
theorem spacedWord_specifier_eq_none {word : String} (hword : word ∈ specifiers)
    (h : s.takeWhile isIdentifierChar ≠ word.toList) : spacedWord word.toList s = none :=
  have hchars := isIdentifierChar_of_specifier hword
  spacedWord_eq_none hchars.1 hchars.2 h

/-- A text with no specifier and white space at the front. -/
theorem specifier_nothing_of_forall (h : ∀ word ∈ specifiers, spacedWord word.toList s = none) :
    (specifier s).Reads none s := by
  have hfound : (specifiers.findSome? fun word =>
      (spacedWord word.toList s).map fun rest => (word, rest)) = none := by
    rw [List.findSome?_eq_none_iff]
    intro word hword
    rw [h word hword]
    rfl
  unfold specifier
  simp only [hfound]
  exact ⟨_, rfl⟩

/-- A text whose first name is no specifier. -/
theorem specifier_nothing (h : String.ofList (s.takeWhile isIdentifierChar) ∉ specifiers) :
    (specifier s).Reads none s := by
  refine specifier_nothing_of_forall ?_
  intro word hword
  refine spacedWord_specifier_eq_none hword ?_
  intro hfront
  rw [hfront, String.ofList_toList] at h
  exact h hword

/-- **A name that no white space follows is no specifier**, whatever its letters are. -/
theorem specifier_nothing_of_adjoins {name : List Char} (hname : ∀ c ∈ name, isIdentifierChar c = true)
    (hend : EndsWord s) (hadjoins : Adjoins s) : (specifier (name ++ s)).Reads none (name ++ s) := by
  refine specifier_nothing_of_forall ?_
  intro word hword
  obtain ⟨hchars, hne⟩ := isIdentifierChar_of_specifier hword
  refine Option.eq_none_iff_forall_ne_some.2 ?_
  intro found hfound
  have hfront := (name_of_spacedWord hchars hne hfound).1
  rw [takeWhile_name hname hend] at hfront
  -- what follows the word follows the name
  obtain ⟨tail, htext, -, c, hc, hgap⟩ := spacedWord_eq_some hne hfound
  rw [hfront, List.append_cancel_left_eq] at htext
  rw [← htext] at hc
  rw [hadjoins c hc] at hgap
  cases hgap

/-- A specifier and the white space after it. -/
theorem specifier_reads (hw : w ∈ specifiers) (hg : AreGaps g) (hne : g ≠ [])
    (hrest : skipGaps rest = rest) :
    (specifier (w.toList ++ (g ++ rest))).Reads (some w) rest := by
  obtain ⟨hchars, hnonempty⟩ := isIdentifierChar_of_specifier hw
  obtain ⟨hshorter, hleaves⟩ := spacedWord_leaves hnonempty hg hne hrest
  have hfound : (specifiers.findSome? fun word =>
      (spacedWord word.toList (w.toList ++ (g ++ rest))).map fun rest => (word, rest)) =
        some (w, ⟨rest, hshorter⟩) := by
    cases hresult : specifiers.findSome? fun word =>
        (spacedWord word.toList (w.toList ++ (g ++ rest))).map fun rest => (word, rest) with
    | none =>
      have hnone := List.findSome?_eq_none_iff.1 hresult w hw
      rw [hleaves] at hnone
      cases hnone
    | some found =>
      obtain ⟨word, hword, hmap⟩ := List.exists_of_findSome?_eq_some hresult
      by_cases hsame : w.toList = word.toList
      · obtain rfl := String.toList_inj.1 hsame
        rw [hleaves] at hmap
        exact hmap.symm
      · -- another specifier is not found there
        have hfront := takeWhile_name hchars (endsWord_append hg hne rest)
        rw [spacedWord_specifier_eq_none hword fun h => hsame (hfront.symm.trans h)] at hmap
        cases hmap
  unfold specifier
  simp only [hfound]
  exact ⟨_, rfl⟩

/-! ## Constraints -/

theorem isIdentifierChar_some : ∀ c ∈ "some".toList, isIdentifierChar c = true :=
  List.all_eq_true.1 (by decide)

theorem isIdentifierChar_any : ∀ c ∈ "any".toList, isIdentifierChar c = true :=
  List.all_eq_true.1 (by decide)

/-- A text whose first name is neither `some` nor `any`. -/
theorem constraint_eq_none (hsome : s.takeWhile isIdentifierChar ≠ "some".toList)
    (hany : s.takeWhile isIdentifierChar ≠ "any".toList) : constraint s = none := by
  rw [constraint, spacedWord_eq_none isIdentifierChar_some (by decide) hsome]
  simp only
  rw [spacedWord_eq_none isIdentifierChar_any (by decide) hany]
  rfl

theorem constraint_some (hg : AreGaps g) (hne : g ≠ []) (hrest : skipGaps rest = rest) :
    ∃ h, constraint ("some".toList ++ (g ++ rest)) = some (.someOf, ⟨rest, h⟩) := by
  have hleaves : Leaves (spacedWord "some".toList ("some".toList ++ (g ++ rest))) rest :=
    spacedWord_leaves (by decide) hg hne hrest
  obtain ⟨h, hleaves⟩ := hleaves
  refine ⟨h, ?_⟩
  rw [constraint, hleaves]

theorem constraint_any (hg : AreGaps g) (hne : g ≠ []) (hrest : skipGaps rest = rest) :
    ∃ h, constraint ("any".toList ++ (g ++ rest)) = some (.anyOf, ⟨rest, h⟩) := by
  have hleaves : Leaves (spacedWord "any".toList ("any".toList ++ (g ++ rest))) rest :=
    spacedWord_leaves (by decide) hg hne hrest
  have hfront : ("any".toList ++ (g ++ rest)).takeWhile isIdentifierChar = "any".toList :=
    takeWhile_name isIdentifierChar_any (endsWord_append hg hne rest)
  obtain ⟨h, hleaves⟩ := hleaves
  refine ⟨h, ?_⟩
  -- `some` is tried first
  rw [constraint, spacedWord_eq_none isIdentifierChar_some (by decide) (by rw [hfront]; decide)]
  simp only
  rw [hleaves]
  rfl

/-- Where a constraint starts: after the first name. -/
theorem rest_of_constraint {wrap : TypeExpr → TypeExpr} {found : Shorter s}
    (h : constraint s = some (wrap, found)) :
    found.1 = skipGaps (s.dropWhile isIdentifierChar) := by
  unfold constraint at h
  split at h
  · rename_i rest hrest
    cases h
    exact (name_of_spacedWord isIdentifierChar_some (by decide) hrest).2
  · obtain ⟨rest, hrest, hfound⟩ := Option.map_eq_some_iff.1 h
    cases hfound
    exact (name_of_spacedWord isIdentifierChar_any (by decide) hrest).2

/-! ## What stands after a type -/

/-- There is no postfix operator. -/
theorem suffix_eq_none (hquestion : s.head? ≠ some '?') (hexclamation : s.head? ≠ some '!')
    (hpoint : s.head? ≠ some '.') : suffix s = none := by
  unfold suffix
  split <;> simp_all

theorem suffixes_nothing (h : suffix s = none) : (suffixes t s).Reads t s := by
  rw [suffixes, h]
  exact ⟨_, rfl⟩

/-- A postfix operator, and those after it. -/
theorem suffixes_reads {wrap : TypeExpr → TypeExpr} (hsuffix : ∃ h, suffix s = some (wrap, ⟨r, h⟩))
    (h : (suffixes (wrap t) r).Reads u rest) : (suffixes t s).Reads u rest := by
  obtain ⟨_, hsuffix⟩ := hsuffix
  obtain ⟨_, h⟩ := h
  rw [suffixes, hsuffix]
  simp only [h]
  exact ⟨_, rfl⟩

theorem suffix_question (s : List Char) : ∃ h, suffix ('?' :: s) = some (.optional, ⟨s, h⟩) :=
  ⟨_, rfl⟩

theorem suffix_exclamation (s : List Char) : ∃ h, suffix ('!' :: s) = some (.forced, ⟨s, h⟩) :=
  ⟨_, rfl⟩

theorem suffix_type (hrest : EndsKeyword rest) :
    ∃ h, suffix ('.' :: ("Type".toList ++ rest)) = some ((.metatype · true), ⟨rest, h⟩) := by
  have hleaves : Leaves (keyword "Type".toList ("Type".toList ++ rest)) rest :=
    keyword_leaves (by decide) hrest
  obtain ⟨_, hleaves⟩ := hleaves
  refine ⟨by simp only [List.length_cons, List.length_append]; omega, ?_⟩
  simp only [suffix, hleaves]
  rfl

theorem suffix_protocol (hrest : EndsKeyword rest) :
    ∃ h, suffix ('.' :: ("Protocol".toList ++ rest)) = some ((.metatype · false), ⟨rest, h⟩) := by
  -- `Type` is tried first
  have hnone : keyword ('T' :: "ype".toList) ("Protocol".toList ++ rest) = none :=
    keyword_eq_none (by simp)
  have hleaves : Leaves (keyword "Protocol".toList ("Protocol".toList ++ rest)) rest :=
    keyword_leaves (by decide) hrest
  obtain ⟨_, hleaves⟩ := hleaves
  refine ⟨by simp only [List.length_cons, List.length_append]; omega, ?_⟩
  have htype : keyword "Type".toList ("Protocol".toList ++ rest) = none := hnone
  simp only [suffix, htype, hleaves]
  rfl

/-- A member name is left to the rule for names, but for the words of metatypes. -/
theorem memberName_reads (hname : isIdentifier name = true) (htype : name ≠ "Type")
    (hprotocol : name ≠ "Protocol") (hend : EndsWord rest) :
    (memberName ('.' :: (name.toList ++ rest))).Reads name rest := by
  obtain ⟨_, hreads⟩ := identifier_reads hname hend
  simp only [memberName, hreads, htype, hprotocol, decide_false, Bool.or_self, Bool.false_eq_true,
    if_false]
  exact ⟨_, rfl⟩

theorem memberName_fails (h : s.head? ≠ some '.') : (memberName s).Fails := by
  unfold memberName
  split
  · simp at h
  · exact ⟨_, rfl⟩

/-- The words of metatypes are no member names. -/
theorem memberName_metatype_fails (hw : w = "Type" ∨ w = "Protocol") (hend : EndsWord rest) :
    (memberName ('.' :: (w.toList ++ rest))).Fails := by
  have hname : isIdentifier w = true := by
    rcases hw with rfl | rfl <;> decide
  obtain ⟨_, hreads⟩ := identifier_reads hname hend
  simp only [memberName, hreads]
  rw [if_pos (by simpa using hw)]
  exact ⟨_, rfl⟩

/-! ## Labels and effects -/

/-- An element without a name and a colon at the front has no label. -/
theorem elementLabel_eq_none (hname : isIdentifier name = true) (hend : EndsWord rest)
    (hcolon : (skipGaps rest).head? ≠ some ':') : elementLabel (name.toList ++ rest) = none := by
  obtain ⟨_, hreads⟩ := identifier_reads hname hend
  simp only [elementLabel, hreads, separator_eq_none hcolon]
  rfl

theorem elementLabel_eq_none_of_start (h : ∀ c, s.head? = some c → isIdentifierStart c = false) :
    elementLabel s = none := by
  obtain ⟨_, hfails⟩ := identifier_fails h
  simp only [elementLabel, hfails]

/-- A name ends where only signs and white space can come next. -/
theorem endsWord_of_follows {ends : List Char} (h : Follows ends s)
    (hends : ∀ c ∈ ends, isIdentifierChar c = false) : EndsWord s := by
  intro c hc
  rcases h.head hc with hgap | hend
  · exact isIdentifierChar_of_isGap hgap
  · exact hends c hend

/-- A label, its colon and the white space around it. -/
theorem elementLabel_reads (hname : isIdentifier name = true) (hg : AreGaps g) {g' : List Char}
    (hg' : AreGaps g') (hrest : skipGaps rest = rest) :
    ∃ h, elementLabel (name.toList ++ (g ++ ([':'] ++ (g' ++ rest)))) = some (name, ⟨rest, h⟩) := by
  have hcolon : Follows [':'] (g ++ ([':'] ++ (g' ++ rest))) :=
    follows_append_cons hg (by decide) (by decide)
  have hend := endsWord_of_follows hcolon (List.forall_mem_singleton.2 (by decide))
  obtain ⟨_, hreads⟩ := identifier_reads hname hend
  have hleaves : Leaves (separator [':'] (g ++ ([':'] ++ (g' ++ rest)))) rest :=
    separator_leaves (by decide) hg hg' hrest
  obtain ⟨_, hleaves⟩ := hleaves
  refine ⟨by simp only [List.length_append, List.length_cons]; omega, ?_⟩
  simp only [elementLabel, hreads, hleaves]
  rfl

/-- An effect and the white space before it. -/
theorem effect_reads {word : List Char} (hword : word ≠ []) (h : skipGaps s = word ++ rest)
    (hend : EndsKeyword rest) : (effect word s).Reads true rest := by
  have hleaves : Leaves (keyword word (skipGaps s)) rest := by
    rw [h]
    exact keyword_leaves hword hend
  obtain ⟨_, hleaves⟩ := hleaves
  simp only [effect, hleaves]
  exact ⟨_, rfl⟩

theorem effect_nothing {word : List Char} (h : (skipGaps s).head? ≠ some c) :
    (effect (c :: word) s).Reads false s := by
  simp only [effect, keyword_eq_none h]
  exact ⟨_, rfl⟩

/-! ## Types -/

theorem typeExpr_reads {as : List String} {spec : Option String} (has : (attributes s).Reads as r)
    (hspec : (specifier r).Reads spec r') (h : (composition r').Reads t rest) :
    (typeExpr s).Reads (decorated as spec t) rest := by
  obtain ⟨_, has⟩ := has
  obtain ⟨_, hspec⟩ := hspec
  obtain ⟨_, h⟩ := h
  rw [typeExpr, has]
  simp only
  rw [hspec]
  simp only
  rw [h]
  exact ⟨_, rfl⟩

theorem composition_reads {more : List TypeExpr} (h : (constrained s).Reads t r)
    (hmore : (furtherMembers r).Reads more rest) :
    (composition s).Reads (composed t more) rest := by
  obtain ⟨_, h⟩ := h
  obtain ⟨_, hmore⟩ := hmore
  rw [composition, h]
  simp only
  rw [hmore]
  exact ⟨_, rfl⟩

theorem furtherMembers_nothing (h : separator ['&'] s = none) : (furtherMembers s).Reads [] s := by
  rw [furtherMembers, h]
  exact ⟨_, rfl⟩

theorem furtherMembers_reads {more : List TypeExpr} (hsign : Leaves (separator ['&'] s) r)
    (h : (constrained r).Reads t r') (hmore : (furtherMembers r').Reads more rest) :
    (furtherMembers s).Reads (t :: more) rest := by
  obtain ⟨_, hsign⟩ := hsign
  obtain ⟨_, h⟩ := h
  obtain ⟨_, hmore⟩ := hmore
  rw [furtherMembers, hsign]
  simp only
  rw [h]
  simp only
  rw [hmore]
  exact ⟨_, rfl⟩

theorem constrained_of_suffixed (hnone : constraint s = none) (h : (suffixed s).Reads t rest) :
    (constrained s).Reads t rest := by
  rw [constrained, hnone]
  exact h

/-- Before something that is no type, `some` and `any` are names. -/
theorem constrained_of_fails {wrap : TypeExpr → TypeExpr} {found : Shorter s}
    (hfound : constraint s = some (wrap, found)) (hfails : (composition found.1).Fails)
    (h : (suffixed s).Reads t rest) : (constrained s).Reads t rest := by
  obtain ⟨place, hfails⟩ := hfails
  obtain ⟨r, hr⟩ := found
  rw [constrained, hfound]
  simp only at hfails ⊢
  rw [hfails]
  exact h

theorem constrained_reads {wrap : TypeExpr → TypeExpr}
    (hfound : ∃ h, constraint s = some (wrap, ⟨r, h⟩)) (h : (composition r).Reads t rest) :
    (constrained s).Reads (wrap t) rest := by
  obtain ⟨_, hfound⟩ := hfound
  obtain ⟨_, h⟩ := h
  rw [constrained, hfound]
  simp only
  rw [h]
  exact ⟨_, rfl⟩

theorem suffixed_reads (h : (primary s).Reads t r) (hsuffixes : (suffixes t r).Reads u rest) :
    (suffixed s).Reads u rest := by
  obtain ⟨_, h⟩ := h
  obtain ⟨_, hsuffixes⟩ := hsuffixes
  rw [suffixed, h]
  simp only
  rw [hsuffixes]
  exact ⟨_, rfl⟩

theorem primary_of_parenthesized (h : (parenthesized s).Reads t rest) : (primary s).Reads t rest := by
  obtain ⟨_, h⟩ := h
  rw [primary, h]
  exact ⟨_, rfl⟩

theorem parenthesized_fails (h : s.head? ≠ some '(') : (parenthesized s).Fails := by
  rw [parenthesized, opening_eq_none h]
  exact ⟨_, rfl⟩

theorem primary_of_collection (hhead : s.head? ≠ some '(') (h : (collection s).Reads t rest) :
    (primary s).Reads t rest := by
  obtain ⟨_, hfails⟩ := parenthesized_fails hhead
  obtain ⟨_, h⟩ := h
  rw [primary, hfails]
  simp only
  rw [h]
  exact ⟨_, rfl⟩

theorem collection_fails (h : s.head? ≠ some '[') : (collection s).Fails := by
  rw [collection, opening_eq_none h]
  exact ⟨_, rfl⟩

theorem primary_eq_nominal (hround : s.head? ≠ some '(') (hsquare : s.head? ≠ some '[') :
    primary s = nominal s := by
  obtain ⟨_, hparenthesized⟩ := parenthesized_fails hround
  obtain ⟨_, hcollection⟩ := collection_fails hsquare
  rw [primary, hparenthesized]
  simp only
  rw [hcollection]

/-! ## Dotted names -/

theorem nominal_reads {gs : List TypeExpr} (hname : (identifier s).Reads name r)
    (hgenerics : (optionalGenerics r).Reads gs r')
    (h : (furtherSegments (.simple name gs) r').Reads t rest) : (nominal s).Reads t rest := by
  obtain ⟨_, hname⟩ := hname
  obtain ⟨_, hgenerics⟩ := hgenerics
  obtain ⟨_, h⟩ := h
  rw [nominal, hname]
  simp only
  rw [hgenerics]
  simp only
  rw [h]
  exact ⟨_, rfl⟩

theorem nominal_fails (h : (identifier s).Fails) : (nominal s).Fails := by
  obtain ⟨_, h⟩ := h
  rw [nominal, h]
  exact ⟨_, rfl⟩

theorem furtherSegments_nothing (h : (memberName s).Fails) : (furtherSegments t s).Reads t s := by
  obtain ⟨_, h⟩ := h
  rw [furtherSegments, h]
  exact ⟨_, rfl⟩

theorem furtherSegments_reads {gs : List TypeExpr} (hname : (memberName s).Reads name r)
    (hgenerics : (optionalGenerics r).Reads gs r')
    (h : (furtherSegments (.nested name t gs) r').Reads u rest) :
    (furtherSegments t s).Reads u rest := by
  obtain ⟨_, hname⟩ := hname
  obtain ⟨_, hgenerics⟩ := hgenerics
  obtain ⟨_, h⟩ := h
  rw [furtherSegments, hname]
  simp only
  rw [hgenerics]
  simp only
  rw [h]
  exact ⟨_, rfl⟩

theorem optionalGenerics_nothing (h : s.head? ≠ some '<') : (optionalGenerics s).Reads [] s := by
  rw [optionalGenerics, genericArguments, opening_eq_none h]
  exact ⟨_, rfl⟩

theorem optionalGenerics_reads {more : List TypeExpr} {r'' : List Char}
    (hopening : Leaves (opening ['<'] s) r) (h : (typeExpr r).Reads t r')
    (hmore : (furtherTypes r').Reads more r'') (hclosing : Leaves (closing ['>'] r'') rest) :
    (optionalGenerics s).Reads (t :: more) rest := by
  obtain ⟨_, hopening⟩ := hopening
  obtain ⟨_, h⟩ := h
  obtain ⟨_, hmore⟩ := hmore
  obtain ⟨_, hclosing⟩ := hclosing
  rw [optionalGenerics, genericArguments, hopening]
  simp only
  rw [h]
  simp only
  rw [hmore]
  simp only
  rw [hclosing]
  exact ⟨_, rfl⟩

theorem furtherTypes_nothing (h : separator [','] s = none) : (furtherTypes s).Reads [] s := by
  rw [furtherTypes, h]
  exact ⟨_, rfl⟩

theorem furtherTypes_reads {more : List TypeExpr} (hsign : Leaves (separator [','] s) r)
    (h : (typeExpr r).Reads t r') (hmore : (furtherTypes r').Reads more rest) :
    (furtherTypes s).Reads (t :: more) rest := by
  obtain ⟨_, hsign⟩ := hsign
  obtain ⟨_, h⟩ := h
  obtain ⟨_, hmore⟩ := hmore
  rw [furtherTypes, hsign]
  simp only
  rw [h]
  simp only
  rw [hmore]
  exact ⟨_, rfl⟩

/-! ## Brackets -/

theorem dictionaryValue_nothing (h : separator [':'] s = none) : (dictionaryValue s).Reads none s := by
  rw [dictionaryValue, h]
  exact ⟨_, rfl⟩

theorem dictionaryValue_reads (hsign : Leaves (separator [':'] s) r) (h : (typeExpr r).Reads t rest) :
    (dictionaryValue s).Reads (some t) rest := by
  obtain ⟨_, hsign⟩ := hsign
  obtain ⟨_, h⟩ := h
  rw [dictionaryValue, hsign]
  simp only
  rw [h]
  exact ⟨_, rfl⟩

theorem collection_reads {value : Option TypeExpr} {r'' : List Char}
    (hopening : Leaves (opening ['['] s) r) (h : (typeExpr r).Reads t r')
    (hvalue : (dictionaryValue r').Reads value r'') (hclosing : Leaves (closing [']'] r'') rest) :
    (collection s).Reads (value.elim (.array t) (.dictionary t)) rest := by
  obtain ⟨_, hopening⟩ := hopening
  obtain ⟨_, h⟩ := h
  obtain ⟨_, hvalue⟩ := hvalue
  obtain ⟨_, hclosing⟩ := hclosing
  rw [collection, hopening]
  simp only
  rw [h]
  simp only
  rw [hvalue]
  simp only
  rw [hclosing]
  exact ⟨_, rfl⟩

/-! ## Parentheses -/

variable {es : List (Labelled TypeExpr)} {e : Labelled TypeExpr} {isAsync canThrow : Bool}

theorem element_reads_unlabelled (hnone : elementLabel s = none) (h : (typeExpr s).Reads t rest) :
    (element s).Reads ⟨none, t⟩ rest := by
  obtain ⟨_, h⟩ := h
  rw [element, hnone]
  simp only
  rw [h]
  exact ⟨_, rfl⟩

theorem element_reads_labelled (hlabel : ∃ h, elementLabel s = some (name, ⟨r, h⟩))
    (h : (typeExpr r).Reads t rest) : (element s).Reads ⟨some name, t⟩ rest := by
  obtain ⟨_, hlabel⟩ := hlabel
  obtain ⟨_, h⟩ := h
  rw [element, hlabel]
  simp only
  rw [h]
  exact ⟨_, rfl⟩

theorem element_fails (hnone : elementLabel s = none) (h : (typeExpr s).Fails) :
    (element s).Fails := by
  obtain ⟨_, h⟩ := h
  rw [element, hnone]
  simp only
  rw [h]
  exact ⟨_, rfl⟩

theorem elements_nothing (h : (element s).Fails) : (elements s).Reads [] s := by
  obtain ⟨_, h⟩ := h
  rw [elements, h]
  exact ⟨_, rfl⟩

theorem elements_reads (h : (element s).Reads e r) (hmore : (furtherElements r).Reads es rest) :
    (elements s).Reads (e :: es) rest := by
  obtain ⟨_, h⟩ := h
  obtain ⟨_, hmore⟩ := hmore
  rw [elements, h]
  simp only
  rw [hmore]
  exact ⟨_, rfl⟩

theorem furtherElements_nothing (h : separator [','] s = none) : (furtherElements s).Reads [] s := by
  rw [furtherElements, h]
  exact ⟨_, rfl⟩

theorem furtherElements_reads (hsign : Leaves (separator [','] s) r) (h : (element r).Reads e r')
    (hmore : (furtherElements r').Reads es rest) : (furtherElements s).Reads (e :: es) rest := by
  obtain ⟨_, hsign⟩ := hsign
  obtain ⟨_, h⟩ := h
  obtain ⟨_, hmore⟩ := hmore
  rw [furtherElements, hsign]
  simp only
  rw [h]
  simp only
  rw [hmore]
  exact ⟨_, rfl⟩

theorem closureTail_reads {r'' : List Char} (hasync : (effect "async".toList s).Reads isAsync r)
    (hthrows : (effect "throws".toList r).Reads canThrow r')
    (harrow : Leaves (separator ['-', '>'] r') r'') (h : (typeExpr r'').Reads t rest) :
    (closureTail s).Reads (isAsync, canThrow, t) rest := by
  obtain ⟨_, hasync⟩ := hasync
  obtain ⟨_, hthrows⟩ := hthrows
  obtain ⟨_, harrow⟩ := harrow
  obtain ⟨_, h⟩ := h
  rw [closureTail, hasync]
  simp only
  rw [hthrows]
  simp only
  rw [harrow]
  simp only
  rw [h]
  exact ⟨_, rfl⟩

/-- Nothing makes a closure of a list in parentheses if there is neither an effect nor an arrow. -/
theorem closureTail_fails (hasync : (skipGaps s).head? ≠ some 'a')
    (hthrows : (skipGaps s).head? ≠ some 't') (harrow : (skipGaps s).head? ≠ some '-') :
    (closureTail s).Fails := by
  have heffects : (effect "async".toList s).Reads false s ∧ (effect "throws".toList s).Reads false s :=
    ⟨effect_nothing (c := 'a') hasync, effect_nothing (c := 't') hthrows⟩
  obtain ⟨⟨_, hasync⟩, ⟨_, hthrows⟩⟩ := heffects
  rw [closureTail, hasync]
  simp only
  rw [hthrows]
  simp only
  rw [separator_eq_none harrow]
  exact ⟨_, rfl⟩

theorem parenthesized_reads_closure {r'' : List Char} (hopening : Leaves (opening ['('] s) r)
    (helements : (elements r).Reads es r') (hclosing : Leaves (closing [')'] r') r'')
    (htail : (closureTail r'').Reads (isAsync, canThrow, t) rest) :
    (parenthesized s).Reads (.closure (es.map (·.value)) isAsync canThrow t) rest := by
  obtain ⟨_, hopening⟩ := hopening
  obtain ⟨_, helements⟩ := helements
  obtain ⟨_, hclosing⟩ := hclosing
  obtain ⟨_, htail⟩ := htail
  rw [parenthesized, hopening]
  simp only
  rw [helements]
  simp only
  rw [hclosing]
  simp only
  rw [htail]
  exact ⟨_, rfl⟩

theorem parenthesized_reads_group (hopening : Leaves (opening ['('] s) r)
    (helements : (elements r).Reads es r') (hclosing : Leaves (closing [')'] r') rest)
    (htail : (closureTail rest).Fails) : (parenthesized s).Reads (group es) rest := by
  obtain ⟨_, hopening⟩ := hopening
  obtain ⟨_, helements⟩ := helements
  obtain ⟨_, hclosing⟩ := hclosing
  obtain ⟨_, htail⟩ := htail
  rw [parenthesized, hopening]
  simp only
  rw [helements]
  simp only
  rw [hclosing]
  simp only
  rw [htail]
  exact ⟨_, rfl⟩

/-! ## What starts no type -/

/-- **A character that a type starts with**, if nothing stands before the type. -/
def isTypeStart (c : Char) : Bool :=
  c = '(' || c = '[' || isIdentifierStart c

theorem isIdentifierStart_of_not_typeStart (h : ∀ c, s.head? = some c → isTypeStart c = false) :
    ∀ c, s.head? = some c → isIdentifierStart c = false := by
  intro c hc
  have hstart := h c hc
  simp only [isTypeStart, Bool.or_eq_false_iff] at hstart
  exact hstart.2

/-- `some` and `any` start with letters. -/
theorem constraint_eq_none_of_start (h : ∀ c, s.head? = some c → isIdentifierStart c = false) :
    constraint s = none := by
  have hfront : ∀ c word, isIdentifierStart c = true → s.takeWhile isIdentifierChar ≠ c :: word := by
    intro c word hc hword
    have hhead : s.head? = some c := by
      cases s with
      | nil => cases hword
      | cons d cs =>
        rw [List.takeWhile_cons] at hword
        split at hword <;> cases hword
        rfl
    rw [h c hhead] at hc
    cases hc
  exact constraint_eq_none (hfront 's' _ (by decide)) (hfront 'a' _ (by decide))

/-- What starts no type is no composition. -/
theorem composition_fails (h : ∀ c, s.head? = some c → isTypeStart c = false) :
    (composition s).Fails := by
  have hstart := isIdentifierStart_of_not_typeStart h
  have hround : s.head? ≠ some '(' := fun hhead => absurd (h _ hhead) (by decide)
  have hsquare : s.head? ≠ some '[' := fun hhead => absurd (h _ hhead) (by decide)
  obtain ⟨_, hnominal⟩ := nominal_fails (identifier_fails hstart)
  rw [composition, constrained, constraint_eq_none_of_start hstart]
  simp only
  rw [suffixed, primary_eq_nominal hround hsquare, hnominal]
  exact ⟨_, rfl⟩

/-- What starts no type, and no attribute or specifier either, is no type. -/
theorem typeExpr_fails (hend : EndsWord s) (hat : s.head? ≠ some '@')
    (h : ∀ c, s.head? = some c → isTypeStart c = false) : (typeExpr s).Fails := by
  obtain ⟨_, hattributes⟩ := attributes_nothing hat
  obtain ⟨_, hspecifier⟩ : (specifier s).Reads none s :=
    specifier_nothing (by rw [takeWhile_of_endsWord hend]; decide)
  obtain ⟨_, hcomposition⟩ := composition_fails h
  rw [typeExpr, hattributes]
  simp only
  rw [hspecifier]
  simp only
  rw [hcomposition]
  exact ⟨_, rfl⟩

end Wiring.TypeExpr.Grammar
