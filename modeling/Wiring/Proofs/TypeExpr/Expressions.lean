import Wiring.Proofs.Text.Signs
import Wiring.Proofs.TypeExpr.Trailing

/-!
# The grammar of types as parsing expressions

The rules of the grammar once more, as data: each has a body, made of the words and signs of types and of
other rules. The functions that read types do what the bodies say, alternative by alternative, and give up at
the same places; here that is shown for the rules that call no other one.

* `Rule`, `Rule.body`: the rules and their bodies.
* `Rule.ending`: how the function for a rule ends.
* `identifier_runs`, `attributeName_runs`, `specifier_runs`, `keyword_finds`, `suffixes_runs`,
  `memberName_runs`, `elementLabel_finds`: words, and what stands before and after types.
-/

namespace Wiring.TypeExpr.Grammar

open Text Text.Expression

/-- **The rules of the grammar.** -/
inductive Rule where
  | typeExpr
  | attributeName
  | composition
  | constrained
  | suffixed
  | primary
  | nominal
  | genericArguments
  | collection
  | element
  | closureTail
  | parenthesized
deriving DecidableEq

namespace Rule

/-- A name: letters, digits and underscores of ASCII, of which the first is no digit. -/
def name : Expression Rule :=
  .seq (.alt (characters Char.isAlpha) (.word ['_']))
    (.many (.alt (characters Char.isAlphanum) (.word ['_'])))

/-- A word that no letter, digit or underscore of any script follows. -/
def wholeWord (w : List Char) : Expression Rule :=
  .seq (.word w) (.absent (.one fun c => isAlphanumeric c || c = '_'))

/-- An ownership specifier with white space after it. -/
def ownership : Expression Rule :=
  .seq (anyWord (specifiers.map String.toList)) spaces

/-- A postfix operator. -/
def operator : Expression Rule :=
  .alt (.word ['?']) <| .alt (.word ['!']) <|
    .alt (.seq (.word ['.']) (wholeWord "Type".toList)) (.seq (.word ['.']) (wholeWord "Protocol".toList))

/-- A name that a member type may have. -/
def isMember (front : List Char) : Bool :=
  !(String.ofList front = "Type" || String.ofList front = "Protocol")

/-- A segment of a dotted name after its point. -/
def segment : Expression Rule :=
  .seq (.seq (.word ['.']) (.check isMember name)) (.opt (.rule genericArguments))

/-- A word of a closure's signature, or not. -/
def effectWord (w : List Char) : Expression Rule :=
  .opt (.seq gaps (wholeWord w))

/-- **The bodies of the rules.** -/
def body : Rule → Expression Rule
  | typeExpr =>
    .seq (.many (.seq (.rule attributeName) gaps)) (.seq (.opt ownership) (.rule composition))
  | attributeName => .seq (.word ['@']) name
  | composition => listOf ['&'] (.rule constrained)
  | constrained =>
    .alt (.seq (spaced "some".toList) (.rule composition)) <|
      .alt (.seq (spaced "any".toList) (.rule composition)) (.rule suffixed)
  | suffixed => .seq (.rule primary) (.many operator)
  | primary => .alt (.rule parenthesized) (.alt (.rule collection) (.rule nominal))
  | nominal => .seq name (.seq (.opt (.rule genericArguments)) (.many segment))
  | genericArguments => between ['<'] ['>'] (listOf [','] (.rule typeExpr))
  | collection =>
    between ['['] [']'] (.seq (.rule typeExpr) (.opt (.seq (sign [':']) (.rule typeExpr))))
  | element => .alt (.seq (.seq name (sign [':'])) (.rule typeExpr)) (.rule typeExpr)
  | closureTail =>
    .seq (effectWord "async".toList) <| .seq (effectWord "throws".toList) <|
      .seq (sign ['-', '>']) (.rule typeExpr)
  | parenthesized =>
    .seq (between ['('] [')'] (.opt (listOf [','] (.rule element)))) (.opt (.rule closureTail))

/-- **How the function for a rule ends** on a text. -/
def ending : Rule → List Char → Ending
  | typeExpr, s => (Grammar.typeExpr s).ending
  | attributeName, s => (Grammar.attributeName s).ending
  | composition, s => (Grammar.composition s).ending
  | constrained, s => (Grammar.constrained s).ending
  | suffixed, s => (Grammar.suffixed s).ending
  | primary, s => (Grammar.primary s).ending
  | nominal, s => (Grammar.nominal s).ending
  | genericArguments, s => (Grammar.genericArguments s).ending
  | collection, s => (Grammar.collection s).ending
  | element, s => (Grammar.element s).ending
  | closureTail, s => (Grammar.closureTail s).ending
  | parenthesized, s => (Grammar.parenthesized s).ending

end Rule

open Rule (body)

variable {s : List Char}

/-! ## Names -/

theorem isIdentifierChar_of_isAlphanum (h : c.isAlphanum = true) : isIdentifierChar c = true := by
  simp [isIdentifierChar, h]

/-- The rest of a name: letters and digits in one go, underscores one by one. -/
theorem nameTail_runs (s : List Char) :
    Runs body (.many (.alt (characters Char.isAlphanum) (.word ['_']))) s
      (.done (s.dropWhile isIdentifierChar)) := by
  cases s with
  | nil => exact .many_end (.alt_second (characters_fail (by simp)) (char_fails (by simp)))
  | cons c s =>
    by_cases hletter : c.isAlphanum = true
    · have hle := length_dropWhile_le Char.isAlphanum s
      have htail := nameTail_runs (s.dropWhile Char.isAlphanum)
      rw [dropWhile_dropWhile fun _ => isIdentifierChar_of_isAlphanum] at htail
      rw [List.dropWhile_cons_of_pos (isIdentifierChar_of_isAlphanum hletter)]
      exact .many_more (.alt_first (characters_run hletter s)) (Nat.lt_succ_of_le hle) htail
    have hnone : Runs body (characters Char.isAlphanum) (c :: s) (.failed (c :: s)) := by
      refine characters_fail ?_
      rintro d ⟨⟩
      simpa using hletter
    by_cases hunderscore : c = '_'
    · subst hunderscore
      rw [List.dropWhile_cons_of_pos (by decide)]
      exact .many_more (.alt_second hnone (.word rfl)) (Nat.lt_succ_self _) (nameTail_runs s)
    · rw [List.dropWhile_cons_of_neg (by simp [isIdentifierChar, hletter, hunderscore])]
      exact .many_end (.alt_second hnone (char_fails (by simpa using hunderscore)))
termination_by s.length

/-- A name. -/
theorem identifier_runs (s : List Char) : Runs body Rule.name s (identifier s).ending := by
  unfold identifier
  split
  · rename_i c s
    have htail := nameTail_runs (s.dropWhile Char.isAlpha)
    rw [dropWhile_dropWhile fun c hc => isIdentifierChar_of_isAlphanum (by simp [Char.isAlphanum, hc])]
      at htail
    by_cases hletter : c.isAlpha = true
    · rw [if_pos (by simp [isIdentifierStart, hletter])]
      exact .seq (.alt_first (characters_run hletter s)) htail
    have hnone : Runs body (characters Char.isAlpha) (c :: s) (.failed (c :: s)) := by
      refine characters_fail ?_
      rintro d ⟨⟩
      simpa using hletter
    by_cases hunderscore : c = '_'
    · subst hunderscore
      exact .seq (.alt_second hnone (.word rfl)) (nameTail_runs s)
    · rw [if_neg (by simp [isIdentifierStart, hletter, hunderscore])]
      exact .seq_fails (.alt_second hnone (char_fails (by simpa using hunderscore)))
  · exact .seq_fails (.alt_second (characters_fail (by simp)) (char_fails (by simp)))

/-! ## What stands before a type -/

theorem attributeName_runs (s : List Char) : Runs body (.rule .attributeName) s (attributeName s).ending := by
  refine .rule ?_
  unfold attributeName
  split
  · rename_i r
    rw [Reading.ending_afterChar]
    exact .seq (.word rfl) (identifier_runs r)
  · rename_i hother
    exact .seq_fails (.word_fails fun rest hs => hother rest hs)

theorem attributes_runs (s : List Char) :
    Runs body (.many (.seq (.rule .attributeName) gaps)) s (attributes s).ending := by
  have hname := attributeName_runs s
  rw [attributes]
  split
  · rename_i place heq
    rw [heq] at hname
    exact .many_end (.seq_fails hname)
  · rename_i a r h heq
    rw [heq] at hname
    have hle := length_skipGaps_le r
    have hmore := attributes_runs (skipGaps r)
    rw [Loose.ending_later, Loose.ending_within, Loose.ending_map]
    exact .many_more (.seq hname (gaps_runs r)) (Nat.lt_of_le_of_lt hle h) hmore
termination_by s.length

/-- No specifier is the front of another one. -/
theorem specifier_unique {w w' : List Char} (hw : w ∈ specifiers.map String.toList)
    (hw' : w' ∈ specifiers.map String.toList) (hs : w <+: s) (hs' : w' <+: s) : w' = w := by
  have hapart : ∀ w ∈ specifiers.map String.toList, ∀ w' ∈ specifiers.map String.toList,
      w <+: w' → w' = w := by decide
  rcases List.prefix_or_prefix_of_prefix hs hs' with hfront | hfront
  · exact hapart w hw w' hw' hfront
  · exact (hapart w' hw' w hw hfront).symm

theorem specifier_runs (s : List Char) : Runs body (.opt Rule.ownership) s (specifier s).ending := by
  unfold specifier
  dsimp only
  split
  · rename_i word found heq
    obtain ⟨w, hw, hmap⟩ := List.exists_of_findSome?_eq_some heq
    obtain ⟨found, hfound, ⟨⟩⟩ := Option.map_eq_some_iff.1 hmap
    obtain ⟨tail, rfl, hrest, c, hc, hgap⟩ := spacedWord_eq_some (isIdentifierChar_of_specifier hw).2 hfound
    have hmem : word.toList ∈ specifiers.map String.toList := List.mem_map_of_mem hw
    have hspaces : Runs body spaces tail (.done found.1) := by
      rw [hrest]
      exact spaces_run (by rw [hc]; exact hgap)
    refine .opt (.seq (anyWord_runs hmem rfl fun w' hw' => ?_) hspaces)
    exact specifier_unique hmem hw' (List.prefix_append _ _)
  · rename_i hnone
    by_cases hword : ∃ w ∈ specifiers.map String.toList, w <+: s
    · -- a specifier is there, but what follows it is no white space
      obtain ⟨w, hmem, tail, rfl⟩ := hword
      refine .opt_nothing (.seq (anyWord_runs hmem rfl fun w' hw' => ?_) (spaces_fail fun hgap => ?_))
      · exact specifier_unique hmem hw' (List.prefix_append _ _)
      · obtain ⟨word, hword, rfl⟩ := List.mem_map.1 hmem
        obtain ⟨_, hleaves⟩ := spacedWord_leaves_skipGaps (isIdentifierChar_of_specifier hword).2 hgap
        have hnone := List.findSome?_eq_none_iff.1 hnone word hword
        rw [hleaves] at hnone
        cases hnone
    · exact .opt_nothing (.seq_fails (anyWord_fails fun w hw hs => hword ⟨w, hw, hs⟩))

/-- **`some`, `any` or neither**: if one of them is there with white space after it, the other one is not. -/
theorem constraint_runs (s : List Char) :
    match constraint s with
    | none => (∃ place, Runs body (spaced "some".toList) s (.failed place)) ∧
        ∃ place, Runs body (spaced "any".toList) s (.failed place)
    | some (_, found) =>
      (Runs body (spaced "some".toList) s (.done found.1) ∧
        ∃ place, Runs body (spaced "any".toList) s (.failed place)) ∨
      (∃ place, Runs body (spaced "some".toList) s (.failed place)) ∧
        Runs body (spaced "any".toList) s (.done found.1) := by
  obtain ⟨p, hsome⟩ : ∃ place, Finds body (spaced "some".toList) place (spacedWord "some".toList s) :=
    spaced_finds (by decide) s
  obtain ⟨q, hany⟩ : ∃ place, Finds body (spaced "any".toList) place (spacedWord "any".toList s) :=
    spaced_finds (by decide) s
  unfold constraint
  cases hfound : spacedWord "some".toList s with
  | some found =>
    rw [hfound] at hsome
    obtain ⟨tail, rfl, -⟩ := spacedWord_eq_some (by decide) hfound
    refine .inl ⟨hsome, _, .seq_fails (.word_fails fun rest hrest => ?_)⟩
    have hhead : some 's' = some 'a' := congrArg List.head? hrest
    cases hhead
  | none =>
    rw [hfound] at hsome
    cases hfound' : spacedWord "any".toList s with
    | some found =>
      rw [hfound'] at hany
      exact .inr ⟨⟨p, hsome⟩, hany⟩
    | none =>
      rw [hfound'] at hany
      exact ⟨⟨p, hsome⟩, q, hany⟩

/-! ## What stands after a type -/

theorem keyword_finds {word : List Char} (hne : word ≠ []) (s : List Char) :
    ∃ place, Finds body (Rule.wholeWord word) place (keyword word s) := by
  have hword : Finds body (.word word) s (shorterAfter word s) := word_finds hne s
  unfold keyword
  cases hfound : shorterAfter word s with
  | none =>
    rw [hfound] at hword
    exact ⟨s, .seq_fails hword⟩
  | some found =>
    rw [hfound] at hword
    rw [Option.filter_some]
    cases hnext : found.1.head?.any fun c => isAlphanumeric c || c = '_' with
    | false =>
      refine ⟨[], .seq hword (.absent (.one_fails fun c hc => ?_))⟩
      rw [hc] at hnext
      exact hnext
    | true =>
      obtain ⟨c, hc, hchar⟩ := (Option.any_eq_true _ _).1 hnext
      obtain ⟨rest, hrest⟩ := List.head?_eq_some_iff.1 hc
      have hone : Runs body (.one fun c => isAlphanumeric c || c = '_') found.1 (.done rest) := by
        rw [hrest]
        exact .one hchar
      exact ⟨_, .seq hword (.absent_fails hone)⟩

theorem suffix_finds (s : List Char) :
    ∃ place, Finds body Rule.operator place ((suffix s).map (·.2)) := by
  unfold suffix
  split
  · exact ⟨[], .alt_first (.word rfl)⟩
  · exact ⟨[], .alt_second (char_fails (by simp)) (.alt_first (.word rfl))⟩
  · rename_i r
    obtain ⟨_, htype⟩ : ∃ place, Finds body (Rule.wholeWord "Type".toList) place
      (keyword "Type".toList r) := keyword_finds (by decide) r
    obtain ⟨place, hprotocol⟩ : ∃ place, Finds body (Rule.wholeWord "Protocol".toList) place
      (keyword "Protocol".toList r) := keyword_finds (by decide) r
    -- the other operators do not begin with a point
    have hpoint : ∀ {e : Expression Rule} {x : Ending}, Runs body e ('.' :: r) x →
        Runs body (.alt (.word ['?']) (.alt (.word ['!']) e)) ('.' :: r) x :=
      fun h => .alt_second (char_fails (by simp)) (.alt_second (char_fails (by simp)) h)
    cases hfound : keyword "Type".toList r with
    | some found =>
      rw [hfound] at htype
      exact ⟨[], hpoint (.alt_first (.seq (.word rfl) htype))⟩
    | none =>
      rw [hfound] at htype
      dsimp only
      rw [Option.map_map]
      exact ⟨place, hprotocol.map
        (fun _ h => hpoint (.alt_second (.seq (.word rfl) htype) (.seq (.word rfl) h)))
        fun h => hpoint (.alt_second (.seq (.word rfl) htype) (.seq (.word rfl) h))⟩
  · rename_i hquestion hexclamation hpoint
    have hfails : ∀ c, (∀ r, s ≠ c :: r) → Runs body (.word [c]) s (.failed s) :=
      fun c hc => .word_fails hc
    exact ⟨_, .alt_second (hfails '?' hquestion) (.alt_second (hfails '!' hexclamation)
      (.alt_second (.seq_fails (hfails '.' hpoint)) (.seq_fails (hfails '.' hpoint))))⟩

theorem suffixes_runs (t : TypeExpr) (s : List Char) :
    Runs body (.many Rule.operator) s (suffixes t s).ending := by
  obtain ⟨place, hsuffix⟩ := suffix_finds s
  rw [suffixes]
  split
  · rename_i heq
    rw [heq] at hsuffix
    exact .many_end hsuffix
  · rename_i wrap r h heq
    rw [heq] at hsuffix
    exact .many_more hsuffix h (suffixes_runs (wrap t) r)
termination_by s.length

/-- **The name of a member type** after its point; the words for metatypes are refused. -/
theorem memberName_runs (s : List Char) :
    Runs body (.seq (.word ['.']) (.check Rule.isMember Rule.name)) s (memberName s).ending := by
  unfold memberName
  split
  · rename_i r
    have hname := identifier_runs r
    split
    · rename_i name rest h heq
      rw [heq] at hname
      obtain ⟨hfront, -⟩ := of_identifier_reads ⟨h, heq⟩
      split
      · rename_i hmetatype
        refine .seq (.word rfl) (.check_refuses hname hfront ?_)
        rw [Rule.isMember, String.ofList_toList, hmetatype]
        rfl
      · rename_i hother
        rw [Reading.ending_afterChar]
        refine .seq (.word rfl) (.check hname hfront ?_)
        rw [Rule.isMember, String.ofList_toList, Bool.eq_false_iff.2 hother]
        rfl
    · rename_i place heq
      rw [heq] at hname
      exact .seq (.word rfl) (.check_fails hname)
  · rename_i hother
    exact .seq_fails (.word_fails fun rest hs => hother rest hs)

theorem effect_runs {word : List Char} (hne : word ≠ []) (s : List Char) :
    Runs body (Rule.effectWord word) s (effect word s).ending := by
  obtain ⟨place, hword⟩ := keyword_finds hne (skipGaps s)
  unfold effect
  split
  · rename_i found heq
    rw [heq] at hword
    exact .opt (.seq (gaps_runs s) hword)
  · rename_i heq
    rw [heq] at hword
    exact .opt_nothing (.seq (gaps_runs s) hword)

/-- The label of a tuple element and its colon. -/
theorem elementLabel_finds (s : List Char) :
    ∃ place, Finds body (.seq Rule.name (sign [':'])) place ((elementLabel s).map (·.2)) := by
  have hname := identifier_runs s
  unfold elementLabel
  split
  · rename_i label r h heq
    rw [heq] at hname
    have hcolon : Finds body (sign [':']) (skipGaps r) (separator [':'] r) :=
      separator_finds (List.cons_ne_nil _ _) r
    refine ⟨skipGaps r, ?_⟩
    rw [Option.map_map]
    exact hcolon.map (fun _ => .seq hname) (.seq hname)
  · rename_i place heq
    rw [heq] at hname
    exact ⟨place, .seq_fails hname⟩

end Wiring.TypeExpr.Grammar
