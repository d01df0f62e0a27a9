import Wiring.Proofs.TypeExpr.Adequate

/-!
# The grammar makes progress, and its failures point at the text

Every rule of the grammar comes to an end on every text. A rule that succeeds has read something, so no
repetition goes round without reading, and a rule that fails points at a rest of its text. What that means
for a whole text: it is empty only if there is nothing but white space, and where it is no type, the offset
is that of a character or of the end.

* `body_consumes`, `items_consume`: the rules read something, and so do the items of repetitions.
* `wholeText`, `wholeText_runs`: a text from end to end.
* `Stops`, `parse_stops`: what reading a whole text comes to; `parse_eq_empty_iff`, `parse_eq_unexpected_iff`.
* `grammar_progresses`: progress of the rules, and the places of their failures and of those of whole texts.
-/

namespace Wiring.TypeExpr

open Text Text.Expression Grammar

open Grammar.Rule (body)

variable {s place : List Char} {text : String}

/-! ## What reads something -/

theorem body_consumes (rule : Rule) : (body rule).consumes = true := by
  cases rule <;> rfl

/-- **What is repeated reads something.** -/
theorem items_consume (rule : Rule) : ∀ item ∈ (body rule).items, item.consumes = true := by
  have hall : (body rule).items.all consumes = true := by cases rule <;> rfl
  exact List.all_eq_true.1 hall

/-! ## Whole texts -/

/-- A type with white space around it, and nothing after that. -/
def wholeText : Expression Rule :=
  .seq gaps (.seq (.rule .typeExpr) (.seq gaps (.absent (.one fun _ => true))))

/-- How a text is read from end to end. -/
def wholeEnding (s : List Char) : Ending :=
  match typeExpr (skipGaps s) with
  | .failed place => .failed place
  | .done _ rest _ => if (skipGaps rest).isEmpty then .done [] else .failed (skipGaps rest)

theorem wholeText_runs (s : List Char) : Runs body wholeText s (wholeEnding s) := by
  have hread := typeExpr_runs (skipGaps s)
  unfold wholeEnding
  split
  · rename_i place heq
    rw [heq] at hread
    exact .seq (gaps_runs s) (.seq_fails hread)
  · rename_i t rest h heq
    rw [heq] at hread
    have hgaps : Runs body gaps rest (.done (skipGaps rest)) := gaps_runs rest
    cases hrest : skipGaps rest with
    | nil =>
      rw [hrest] at hgaps
      exact .seq (gaps_runs s) (.seq hread (.seq hgaps (.absent (.one_fails nofun))))
    | cons c r =>
      rw [hrest] at hgaps
      exact .seq (gaps_runs s) (.seq hread (.seq hgaps (.absent_fails (.one rfl))))

/-- **What reading a whole text comes to**: there is nothing but white space, or the text is read to its end,
or reading it fails at a place and the error has the offset of that place. -/
inductive Stops (text : String) : Except SyntaxError TypeExpr → Prop
  | empty : (∀ c ∈ text.toList, isBlank c = true) → Stops text (.error .empty)
  | ok {t : TypeExpr} : (¬ ∀ c ∈ text.toList, isBlank c = true) →
    Runs body wholeText text.toList (.done []) → Stops text (.ok t)
  | unexpected {front place : List Char} : (¬ ∀ c ∈ text.toList, isBlank c = true) →
    Runs body wholeText text.toList (.failed place) → text.toList = front ++ place →
      Stops text (.error (.unexpected text (utf8Length front)))

/-- The offset of what a failure points at. -/
theorem stops_unexpected (hblank : ¬ ∀ c ∈ text.toList, isBlank c = true)
    (h : Runs body wholeText text.toList (.failed place)) :
    Stops text (.error (.unexpected text (utf8Length text.toList - utf8Length place))) := by
  obtain ⟨front, hfront⟩ : place <:+ text.toList := h.suffix
  have hoffset : utf8Length text.toList - utf8Length place = utf8Length front := by
    rw [← hfront, utf8Length_append, Nat.add_sub_cancel]
  rw [hoffset]
  exact .unexpected hblank h hfront.symm

theorem parse_stops (text : String) : Stops text (parse text) := by
  have hwhole := wholeText_runs text.toList
  unfold wholeEnding at hwhole
  unfold parse
  dsimp only
  split
  · rename_i hnil
    exact .empty (trimChars_eq_nil_iff.1 (List.isEmpty_iff.1 hnil))
  · rename_i hne
    have hblank : ¬ ∀ c ∈ text.toList, isBlank c = true :=
      fun h => hne (List.isEmpty_iff.2 (trimChars_eq_nil_iff.2 h))
    split
    · rename_i place heq
      rw [heq] at hwhole
      exact stops_unexpected hblank hwhole
    · rename_i t rest h heq
      rw [heq] at hwhole
      dsimp only at hwhole
      split
      · rename_i hrest
        rw [if_pos hrest] at hwhole
        exact .ok hblank hwhole
      · rename_i hrest
        rw [if_neg hrest] at hwhole
        exact stops_unexpected hblank hwhole

theorem parse_eq_empty_iff : parse text = .error .empty ↔ ∀ c ∈ text.toList, isBlank c = true := by
  have hstops := parse_stops text
  generalize parse text = outcome at hstops
  cases hstops with
  | empty hblank => exact iff_of_true rfl hblank
  | ok hblank | unexpected hblank => exact iff_of_false nofun hblank

/-- **Where a text is no type**, reading it has failed, and the offset is that of the place. -/
theorem parse_eq_unexpected_iff {t : String} {offset : Nat} :
    parse text = .error (.unexpected t offset) ↔
      t = text ∧ (¬ ∀ c ∈ text.toList, isBlank c = true) ∧
        ∃ front place : String, text = front ++ place ∧ offset = front.utf8ByteSize ∧
          Runs body wholeText text.toList (.failed place.toList) := by
  have hstops := parse_stops text
  generalize parse text = outcome at hstops
  constructor
  · rintro rfl
    cases hstops with
    | @unexpected front place hblank hruns hfront =>
      refine ⟨rfl, hblank, String.ofList front, String.ofList place, ?_, utf8Length_eq front, ?_⟩
      · rw [← String.ofList_append, ← hfront, String.ofList_toList]
      · rwa [String.toList_ofList]
  · rintro ⟨rfl, hblank, front, place, htext, rfl, hruns⟩
    cases hstops with
    | empty hall => exact absurd hall hblank
    | ok _ hdone => cases hdone.unique hruns
    | @unexpected front' place' _ hruns' hfront =>
      cases hruns'.unique hruns
      have hsame : front' = front.toList := by
        rw [htext, String.toList_append] at hfront
        exact (List.append_cancel_right hfront).symm
      rw [utf8Length_eq, hsame, String.ofList_toList]

/-- **The grammar makes progress, and its failures point at the text.**

On every text, each rule comes to one end, the one that its function says, and so does the reading of the
whole text. A rule that succeeds leaves less of the text. So does everything that is repeated in a rule (the
items of a list are rules), and no repetition is ever stuck. Every failure, of a rule and of any part of one,
points at a rest of the text.

A text is empty exactly if there is nothing but white space, and never incomplete. If it is no type, the
offset is at most its length in bytes and between two characters, and what comes there is what the reading
of the whole text failed at. -/
theorem grammar_progresses :
    (∀ (rule : Rule) (s : List Char) (x : Ending), Runs body (.rule rule) s x ↔ rule.ending s = x) ∧
      (∀ s, ∃! x, Runs body wholeText s x) ∧
      (∀ (rule : Rule) (s rest : List Char), rule.ending s = .done rest → ProperSuffix rest s) ∧
      (∀ (rule : Rule), ∀ item ∈ (body rule).items, ∀ s,
        (∀ rest, Runs body item s (.done rest) → ProperSuffix rest s) ∧
          ∀ place, ¬ Runs body (.many item) s (.failed place)) ∧
      (∀ (rule : Rule) (s place : List Char), rule.ending s = .failed place → place <:+ s) ∧
      (∀ (e : Expression Rule) (s place : List Char), Runs body e s (.failed place) → place <:+ s) ∧
      ∀ text : String,
        (parse text = .error .empty ↔ ∀ c ∈ text.toList, isBlank c = true) ∧
          (∀ t, parse text ≠ .error (.incomplete t)) ∧
          ∀ t offset, parse text = .error (.unexpected t offset) →
            t = text ∧ offset ≤ text.utf8ByteSize ∧ String.Pos.Raw.IsValid text ⟨offset⟩ ∧
              ∃ front place : String, text = front ++ place ∧ offset = front.utf8ByteSize ∧
                Runs body wholeText text.toList (.failed place.toList) := by
  refine ⟨fun rule s x => rule_runs_iff,
    fun s => ⟨_, wholeText_runs s, fun x h => h.unique (wholeText_runs s)⟩,
    fun rule s rest h => ?_, fun rule item hitem s => ?_, fun rule s place h => ?_,
    fun e s place h => h.suffix, fun text => ?_⟩
  · exact (rule_runs_iff.2 h).properSuffix body_consumes rfl
  · have hconsumes := items_consume rule item hitem
    exact ⟨fun rest h => h.properSuffix body_consumes hconsumes,
      fun place => Runs.never_stuck body_consumes hconsumes⟩
  · exact (rule_runs_iff.2 h).suffix
  · refine ⟨parse_eq_empty_iff, fun t h => ?_, fun t offset h => ?_⟩
    · have hstops := h ▸ parse_stops text
      cases hstops
    · obtain ⟨rfl, -, front, place, htext, rfl, hruns⟩ := parse_eq_unexpected_iff.1 h
      have hvalid : String.Pos.Raw.IsValid t ⟨front.utf8ByteSize⟩ :=
        String.Pos.Raw.isValid_iff_exists_append.2 ⟨front, place, htext, rfl⟩
      exact ⟨rfl, hvalid.le_utf8ByteSize, hvalid, front, place, htext, rfl, hruns⟩

/-- Brackets that are not closed are given up again, and reading stops before them. -/
theorem unclosed_pair_points_at_text :
    Rule.ending .nominal "Pair<".toList = .done ['<'] ∧ ProperSuffix ['<'] "Pair<".toList ∧
      Rule.ending .genericArguments ['<'] = .failed [] ∧ [] <:+ ['<'] ∧
      Runs body Rule.operator ['?', '>'] (.done ['>']) ∧ ProperSuffix ['>'] ['?', '>'] ∧
      Runs body wholeText "Pair<".toList (.failed ['<']) ∧ ['<'] <:+ "Pair<".toList ∧
      parse "Pair<" = .error (.unexpected "Pair<" 4) ∧ String.Pos.Raw.IsValid "Pair<" ⟨4⟩ := by
  obtain ⟨hends, -, hprogress, hitems, hplaces, hfailures, hparse⟩ := grammar_progresses
  -- no type comes after the bracket, and what fails there points at the end
  obtain ⟨place, htype⟩ : (typeExpr []).Fails := typeExpr_fails nofun (by decide) nofun
  have hnone : Runs body (.rule .typeExpr) [] (.failed place) :=
    (hends .typeExpr [] _).2 (congrArg Reading.ending htype)
  obtain rfl : place = [] := List.suffix_nil.1 (hfailures _ _ _ hnone)
  have harguments : Runs body (.rule .genericArguments) ['<'] (.failed []) :=
    .rule (.seq (.seq (.word rfl) (gaps_runs [])) (.seq_fails (.seq_fails hnone)))
  have hbracket : Rule.ending .genericArguments ['<'] = .failed [] :=
    (hends .genericArguments _ _).1 harguments
  have hgenerics : (optionalGenerics ['<']).Reads [] ['<'] := by
    rw [optionalGenerics, Reading.ending_eq_failed_iff.1 hbracket]
    exact ⟨_, rfl⟩
  have hname : (nominal "Pair<".toList).Reads (.simple "Pair" []) ['<'] := by
    have hend : EndsWord ['<'] := by
      rintro c ⟨⟩
      decide
    exact nominal_reads (identifier_reads (w := "Pair") (by decide) hend) hgenerics
      (furtherSegments_nothing (memberName_fails (by decide)))
  have hnominal : Rule.ending .nominal "Pair<".toList = .done ['<'] := Reading.ending_of_reads hname
  have hpair : (typeExpr "Pair<".toList).Reads (.simple "Pair" []) ['<'] := by
    have hsuffixed := suffixed_reads (primary_of_nominal hname)
      (suffixes_nothing (suffix_eq_none (by decide) (by decide) (by decide)))
    have hconstrained := constrained_of_suffixed (constraint_eq_none (by decide) (by decide)) hsuffixed
    exact typeExpr_reads (attributes_nothing (by decide)) (specifier_nothing (by decide))
      (composition_reads hconstrained (furtherMembers_nothing (separator_eq_none (by decide))))
  have hread : Runs body (.rule .typeExpr) "Pair<".toList (.done ['<']) :=
    (hends .typeExpr _ _).2 (Reading.ending_of_reads hpair)
  have hwhole : Runs body wholeText "Pair<".toList (.failed ['<']) :=
    .seq (gaps_runs _) (.seq hread (.seq (gaps_runs _) (.absent_fails (.one rfl))))
  have hunexpected : parse "Pair<" = .error (.unexpected "Pair<" 4) := by
    have hblank : ¬ ∀ c ∈ "Pair<".toList, isBlank c = true :=
      fun h => absurd (h 'P' (by decide)) (by decide)
    exact parse_eq_unexpected_iff.2 ⟨rfl, hblank, "Pair", "<", by decide, by decide, hwhole⟩
  have hoperator : Runs body Rule.operator ['?', '>'] (.done ['>']) := .alt_first (.word rfl)
  have hrepeated : Rule.operator ∈ (body .suffixed).items := List.mem_cons_self
  exact ⟨hnominal, hprogress _ _ _ hnominal, hbracket, hplaces _ _ _ hbracket, hoperator,
    (hitems .suffixed _ hrepeated _).1 _ hoperator, hwhole, hfailures _ _ _ hwhole, hunexpected,
    ((hparse "Pair<").2.2 _ _ hunexpected).2.2.1⟩

end Wiring.TypeExpr
