import Wiring.Proofs.TypeExpr.Expressions

/-!
# The functions read what the bodies say

By induction on the text and, on one text, from the tighter rules to the looser ones: the function for each
rule ends as the body of the rule does. A function always ends, and a body comes to one end at most, so the
rules of the grammar end on every text, and the functions say how.

* `typeExpr_runs` … `parenthesized_runs`: one rule after the other.
* `rule_runs_iff`: the end of a rule is the end of its function.
-/

namespace Wiring.TypeExpr.Grammar

open Text Text.Expression

open Rule (body)

mutual

theorem typeExpr_runs (s : List Char) : Runs body (.rule .typeExpr) s (typeExpr s).ending := by
  have hattributes := attributes_runs s
  rw [typeExpr]
  split
  rename_i as r h heq
  have hspecifier := specifier_runs r
  split
  rename_i spec r' h' heq'
  rw [heq] at hattributes
  rw [heq'] at hspecifier
  simp only [Reading.ending_within, Reading.ending_map]
  exact .rule (.seq hattributes (.seq hspecifier (composition_runs r')))
termination_by (s.length, 5)
decreasing_by simp [Prod.lex_def]; omega

theorem composition_runs (s : List Char) : Runs body (.rule .composition) s (composition s).ending := by
  have hfirst := constrained_runs s
  rw [composition]
  split
  · rename_i place heq
    rw [heq] at hfirst
    exact .rule (.seq_fails hfirst)
  · rename_i t r h heq
    rw [heq] at hfirst
    exact .rule (.seq hfirst (furtherMembers_runs r))
termination_by (s.length, 4)

theorem furtherMembers_runs (s : List Char) :
    Runs body (.many (.seq (sign ['&']) (.rule .constrained))) s (furtherMembers s).ending := by
  have hsign : Finds body (sign ['&']) (skipGaps s) (separator ['&'] s) :=
    separator_finds (List.cons_ne_nil _ _) s
  rw [furtherMembers]
  split
  · rename_i heq
    rw [heq] at hsign
    exact .many_end (.seq_fails hsign)
  · rename_i r h heq
    rw [heq] at hsign
    have hmember := constrained_runs r
    split
    · rename_i place heq'
      rw [heq'] at hmember
      exact .many_end (.seq hsign hmember)
    · rename_i t r' h' heq'
      rw [heq'] at hmember
      exact .many_more (.seq hsign hmember) (Nat.lt_trans h' h) (furtherMembers_runs r')
termination_by (s.length, 0)

theorem constrained_runs (s : List Char) : Runs body (.rule .constrained) s (constrained s).ending := by
  have hconstraint := constraint_runs s
  have hsuffixed := suffixed_runs s
  rw [constrained]
  split
  · rename_i heq
    rw [heq] at hconstraint
    obtain ⟨⟨_, hsome⟩, _, hany⟩ := hconstraint
    exact .rule (.alt_second (.seq_fails hsome) (.alt_second (.seq_fails hany) hsuffixed))
  · rename_i wrap r h heq
    rw [heq] at hconstraint
    have hbase := composition_runs r
    split
    · rename_i t rest h' heq'
      rw [heq'] at hbase
      rcases hconstraint with ⟨hsome, -⟩ | ⟨⟨_, hsome⟩, hany⟩
      · exact .rule (.alt_first (.seq hsome hbase))
      · exact .rule (.alt_second (.seq_fails hsome) (.alt_first (.seq hany hbase)))
    · rename_i place heq'
      rw [heq'] at hbase
      rcases hconstraint with ⟨hsome, _, hany⟩ | ⟨⟨_, hsome⟩, hany⟩
      · exact .rule (.alt_second (.seq hsome hbase) (.alt_second (.seq_fails hany) hsuffixed))
      · exact .rule (.alt_second (.seq_fails hsome) (.alt_second (.seq hany hbase) hsuffixed))
termination_by (s.length, 3)

theorem suffixed_runs (s : List Char) : Runs body (.rule .suffixed) s (suffixed s).ending := by
  have hprimary := primary_runs s
  rw [suffixed]
  split
  · rename_i place heq
    rw [heq] at hprimary
    exact .rule (.seq_fails hprimary)
  · rename_i t r h heq
    rw [heq] at hprimary
    exact .rule (.seq hprimary (suffixes_runs t r))
termination_by (s.length, 2)

theorem primary_runs (s : List Char) : Runs body (.rule .primary) s (primary s).ending := by
  have hparenthesized := parenthesized_runs s
  have hcollection := collection_runs s
  rw [primary]
  split
  · rename_i t rest h heq
    rw [heq] at hparenthesized
    exact .rule (.alt_first hparenthesized)
  · rename_i place heq
    rw [heq] at hparenthesized
    split
    · rename_i t rest h heq'
      rw [heq'] at hcollection
      exact .rule (.alt_second hparenthesized (.alt_first hcollection))
    · rename_i place' heq'
      rw [heq'] at hcollection
      exact .rule (.alt_second hparenthesized (.alt_second hcollection (nominal_runs s)))
termination_by (s.length, 1)

theorem nominal_runs (s : List Char) : Runs body (.rule .nominal) s (nominal s).ending := by
  have hname := identifier_runs s
  rw [nominal]
  split
  · rename_i place heq
    rw [heq] at hname
    exact .rule (.seq_fails hname)
  · rename_i name r h heq
    rw [heq] at hname
    have hgenerics := optionalGenerics_runs r
    split
    rename_i gs r' h' heq'
    rw [heq'] at hgenerics
    exact .rule (.seq hname (.seq hgenerics (furtherSegments_runs (.simple name gs) r')))
termination_by (s.length, 0)

theorem furtherSegments_runs (t : TypeExpr) (s : List Char) :
    Runs body (.many Rule.segment) s (furtherSegments t s).ending := by
  have hname := memberName_runs s
  rw [furtherSegments]
  split
  · rename_i place heq
    rw [heq] at hname
    exact .many_end (.seq_fails hname)
  · rename_i name r h heq
    rw [heq] at hname
    have hgenerics := optionalGenerics_runs r
    split
    rename_i gs r' h' heq'
    rw [heq'] at hgenerics
    exact .many_more (.seq hname hgenerics) (Nat.lt_of_le_of_lt h' h)
      (furtherSegments_runs (.nested name t gs) r')
termination_by (s.length, 0)

theorem optionalGenerics_runs (s : List Char) :
    Runs body (.opt (.rule .genericArguments)) s (optionalGenerics s).ending := by
  rw [optionalGenerics]
  exact runs_opt [] (genericArguments_runs s)
termination_by (s.length, 1)

theorem genericArguments_runs (s : List Char) :
    Runs body (.rule .genericArguments) s (genericArguments s).ending := by
  have hopening : Finds body (.seq (.word ['<']) gaps) s (opening ['<'] s) :=
    opening_finds (List.cons_ne_nil _ _) s
  rw [genericArguments]
  split
  · rename_i heq
    rw [heq] at hopening
    exact .rule (.seq_fails hopening)
  · rename_i r h heq
    rw [heq] at hopening
    have hfirst := typeExpr_runs r
    split
    · rename_i place heq'
      rw [heq'] at hfirst
      exact .rule (.seq hopening (.seq_fails (.seq_fails hfirst)))
    · rename_i t r' h' heq'
      rw [heq'] at hfirst
      have hmore := furtherTypes_runs r'
      split
      rename_i more r'' h'' heq''
      rw [heq''] at hmore
      have hclosing : Finds body (.seq gaps (.word ['>'])) (skipGaps r'') (closing ['>'] r'') :=
        closing_finds (List.cons_ne_nil _ _) r''
      split <;> rename_i hend <;> rw [hend] at hclosing <;>
        exact .rule (.seq hopening (.seq (.seq hfirst hmore) hclosing))
termination_by (s.length, 0)

theorem furtherTypes_runs (s : List Char) :
    Runs body (.many (.seq (sign [',']) (.rule .typeExpr))) s (furtherTypes s).ending := by
  have hsign : Finds body (sign [',']) (skipGaps s) (separator [','] s) :=
    separator_finds (List.cons_ne_nil _ _) s
  rw [furtherTypes]
  split
  · rename_i heq
    rw [heq] at hsign
    exact .many_end (.seq_fails hsign)
  · rename_i r h heq
    rw [heq] at hsign
    have htype := typeExpr_runs r
    split
    · rename_i place heq'
      rw [heq'] at htype
      exact .many_end (.seq hsign htype)
    · rename_i t r' h' heq'
      rw [heq'] at htype
      exact .many_more (.seq hsign htype) (Nat.lt_trans h' h) (furtherTypes_runs r')
termination_by (s.length, 0)

theorem collection_runs (s : List Char) : Runs body (.rule .collection) s (collection s).ending := by
  have hopening : Finds body (.seq (.word ['[']) gaps) s (opening ['['] s) :=
    opening_finds (List.cons_ne_nil _ _) s
  rw [collection]
  split
  · rename_i heq
    rw [heq] at hopening
    exact .rule (.seq_fails hopening)
  · rename_i r h heq
    rw [heq] at hopening
    have hfirst := typeExpr_runs r
    split
    · rename_i place heq'
      rw [heq'] at hfirst
      exact .rule (.seq hopening (.seq_fails (.seq_fails hfirst)))
    · rename_i t r' h' heq'
      rw [heq'] at hfirst
      have hvalue := dictionaryValue_runs r'
      split
      rename_i value r'' h'' heq''
      rw [heq''] at hvalue
      have hclosing : Finds body (.seq gaps (.word [']'])) (skipGaps r'') (closing [']'] r'') :=
        closing_finds (List.cons_ne_nil _ _) r''
      split <;> rename_i hend <;> rw [hend] at hclosing <;>
        exact .rule (.seq hopening (.seq (.seq hfirst hvalue) hclosing))
termination_by (s.length, 0)

theorem dictionaryValue_runs (s : List Char) :
    Runs body (.opt (.seq (sign [':']) (.rule .typeExpr))) s (dictionaryValue s).ending := by
  have hsign : Finds body (sign [':']) (skipGaps s) (separator [':'] s) :=
    separator_finds (List.cons_ne_nil _ _) s
  rw [dictionaryValue]
  split
  · rename_i heq
    rw [heq] at hsign
    exact .opt_nothing (.seq_fails hsign)
  · rename_i r h heq
    rw [heq] at hsign
    refine runs_opt none ?_
    rw [Reading.ending_after, Reading.ending_map]
    exact .seq hsign (typeExpr_runs r)
termination_by (s.length, 0)

theorem element_runs (s : List Char) : Runs body (.rule .element) s (element s).ending := by
  obtain ⟨_, hlabel⟩ := elementLabel_finds s
  have hwhole := typeExpr_runs s
  rw [element]
  split
  · rename_i heq
    rw [heq] at hlabel
    rw [Reading.ending_map]
    exact .rule (.alt_second (.seq_fails hlabel) hwhole)
  · rename_i label r h heq
    rw [heq] at hlabel
    have htype := typeExpr_runs r
    split
    · rename_i t rest h' heq'
      rw [heq'] at htype
      exact .rule (.alt_first (.seq hlabel htype))
    · rename_i place heq'
      rw [heq'] at htype
      rw [Reading.ending_map]
      exact .rule (.alt_second (.seq hlabel htype) hwhole)
termination_by (s.length, 6)

theorem elements_runs (s : List Char) :
    Runs body (.opt (listOf [','] (.rule .element))) s (elements s).ending := by
  have hfirst := element_runs s
  rw [elements]
  split
  · rename_i place heq
    rw [heq] at hfirst
    exact .opt_nothing (.seq_fails hfirst)
  · rename_i e r h heq
    rw [heq] at hfirst
    exact .opt (.seq hfirst (furtherElements_runs r))
termination_by (s.length, 7)

theorem furtherElements_runs (s : List Char) :
    Runs body (.many (.seq (sign [',']) (.rule .element))) s (furtherElements s).ending := by
  have hsign : Finds body (sign [',']) (skipGaps s) (separator [','] s) :=
    separator_finds (List.cons_ne_nil _ _) s
  rw [furtherElements]
  split
  · rename_i heq
    rw [heq] at hsign
    exact .many_end (.seq_fails hsign)
  · rename_i r h heq
    rw [heq] at hsign
    have helement := element_runs r
    split
    · rename_i place heq'
      rw [heq'] at helement
      exact .many_end (.seq hsign helement)
    · rename_i e r' h' heq'
      rw [heq'] at helement
      exact .many_more (.seq hsign helement) (Nat.lt_trans h' h) (furtherElements_runs r')
termination_by (s.length, 0)

theorem closureTail_runs (s : List Char) : Runs body (.rule .closureTail) s (closureTail s).ending := by
  have hasync : Runs body (Rule.effectWord _) s (effect "async".toList s).ending :=
    effect_runs (by decide) s
  rw [closureTail]
  split
  rename_i isAsync r h heq
  rw [heq] at hasync
  have hthrows : Runs body (Rule.effectWord _) r (effect "throws".toList r).ending :=
    effect_runs (by decide) r
  split
  rename_i canThrow r' h' heq'
  rw [heq'] at hthrows
  have harrow : Finds body (sign ['-', '>']) (skipGaps r') (separator ['-', '>'] r') :=
    separator_finds (List.cons_ne_nil _ _) r'
  split
  · rename_i heq''
    rw [heq''] at harrow
    exact .rule (.seq hasync (.seq hthrows (.seq_fails harrow)))
  · rename_i r'' h'' heq''
    rw [heq''] at harrow
    simp only [Reading.ending_within, Reading.ending_after, Reading.ending_map]
    exact .rule (.seq hasync (.seq hthrows (.seq harrow (typeExpr_runs r''))))
termination_by (s.length, 0)
decreasing_by simp [Prod.lex_def]; omega

theorem parenthesized_runs (s : List Char) :
    Runs body (.rule .parenthesized) s (parenthesized s).ending := by
  have hopening : Finds body (.seq (.word ['(']) gaps) s (opening ['('] s) :=
    opening_finds (List.cons_ne_nil _ _) s
  rw [parenthesized]
  split
  · rename_i heq
    rw [heq] at hopening
    exact .rule (.seq_fails (.seq_fails hopening))
  · rename_i r h heq
    rw [heq] at hopening
    have helements := elements_runs r
    split
    rename_i es r' h' heq'
    rw [heq'] at helements
    have hclosing : Finds body (.seq gaps (.word [')'])) (skipGaps r') (closing [')'] r') :=
      closing_finds (List.cons_ne_nil _ _) r'
    split
    · rename_i heq''
      rw [heq''] at hclosing
      exact .rule (.seq_fails (.seq hopening (.seq helements hclosing)))
    · rename_i r'' h'' heq''
      rw [heq''] at hclosing
      have htail := closureTail_runs r''
      split
      · rename_i isAsync canThrow t rest hrest htailEq
        rw [htailEq] at htail
        exact .rule (.seq (.seq hopening (.seq helements hclosing)) (.opt htail))
      · rename_i place htailEq
        rw [htailEq] at htail
        exact .rule (.seq (.seq hopening (.seq helements hclosing)) (.opt_nothing htail))
termination_by (s.length, 0)

end

/-- **The end of a rule is the end of its function**: the rule comes to an end on every text, to one only, and
the function says to which. -/
theorem rule_runs_iff {rule : Rule} {s : List Char} {x : Ending} :
    Runs body (.rule rule) s x ↔ rule.ending s = x := by
  have hruns : Runs body (.rule rule) s (rule.ending s) := by
    cases rule with
    | typeExpr => exact typeExpr_runs s
    | attributeName => exact attributeName_runs s
    | composition => exact composition_runs s
    | constrained => exact constrained_runs s
    | suffixed => exact suffixed_runs s
    | primary => exact primary_runs s
    | nominal => exact nominal_runs s
    | genericArguments => exact genericArguments_runs s
    | collection => exact collection_runs s
    | element => exact element_runs s
    | closureTail => exact closureTail_runs s
    | parenthesized => exact parenthesized_runs s
  constructor
  · exact hruns.unique
  · rintro rfl
    exact hruns

end Wiring.TypeExpr.Grammar
