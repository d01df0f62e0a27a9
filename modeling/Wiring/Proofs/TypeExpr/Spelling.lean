import Wiring.Proofs.Text.Reading
import Wiring.TypeExpr.Source

/-!
# The texts that spell a type

A layout leaves the white space between its words open. A text spells the layout if it has the words in
order, any white space where some may stand, and some where some has to.

* `Spells`: the texts of a layout; `spells_append_iff` and the like take them apart.
* `spells_iff`: whether a text spells a layout can be decided.
* `TypeExpr.spells_source`: the canonical text of a type is one of them.
* `SpellsIn`: all texts of a layout, or just the canonical one; what is said of either is said once.
-/

namespace Wiring

open Text

/-- **The texts that spell a layout.** -/
inductive Spells : List Piece → List Char → Prop
  | nil : Spells [] []
  | word {text : String} {ps : List Piece} {s : List Char} :
    Spells ps s → Spells (.word text :: ps) (text.toList ++ s)
  | gap {usual : String} {ps : List Piece} {g s : List Char} :
    AreGaps g → Spells ps s → Spells (.gap usual :: ps) (g ++ s)
  | blank {ps : List Piece} {g s : List Char} :
    AreGaps g → g ≠ [] → Spells ps s → Spells (.blank :: ps) (g ++ s)

variable {ps qs : List Piece} {s : List Char}

/-! ## Taking a text apart -/

theorem spells_nil_iff : Spells [] s ↔ s = [] := by
  constructor
  · rintro ⟨⟩
    rfl
  · rintro rfl
    exact .nil

theorem spells_word_iff {text : String} :
    Spells (.word text :: ps) s ↔ ∃ s', s = text.toList ++ s' ∧ Spells ps s' := by
  constructor
  · rintro (_ | h)
    exact ⟨_, rfl, h⟩
  · rintro ⟨s', rfl, h⟩
    exact .word h

theorem spells_gap_iff {usual : String} :
    Spells (.gap usual :: ps) s ↔ ∃ g s', s = g ++ s' ∧ AreGaps g ∧ Spells ps s' := by
  constructor
  · rintro (_ | _ | ⟨hg, h⟩)
    exact ⟨_, _, rfl, hg, h⟩
  · rintro ⟨g, s', rfl, hg, h⟩
    exact .gap hg h

theorem spells_blank_iff :
    Spells (.blank :: ps) s ↔ ∃ g s', s = g ++ s' ∧ AreGaps g ∧ g ≠ [] ∧ Spells ps s' := by
  constructor
  · rintro (_ | _ | _ | ⟨hg, hne, h⟩)
    exact ⟨_, _, rfl, hg, hne, h⟩
  · rintro ⟨g, s', rfl, hg, hne, h⟩
    exact .blank hg hne h

/-- A text of two layouts is a text of the first one and then one of the second one. -/
theorem spells_append_iff :
    Spells (ps ++ qs) s ↔ ∃ a b, s = a ++ b ∧ Spells ps a ∧ Spells qs b := by
  constructor
  · intro h
    induction ps generalizing s with
    | nil => exact ⟨[], s, rfl, .nil, h⟩
    | cons p ps ih =>
      cases h with
      | word h =>
        obtain ⟨a, b, rfl, ha, hb⟩ := ih h
        exact ⟨_, b, (List.append_assoc ..).symm, .word ha, hb⟩
      | gap hg h =>
        obtain ⟨a, b, rfl, ha, hb⟩ := ih h
        exact ⟨_, b, (List.append_assoc ..).symm, .gap hg ha, hb⟩
      | blank hg hne h =>
        obtain ⟨a, b, rfl, ha, hb⟩ := ih h
        exact ⟨_, b, (List.append_assoc ..).symm, .blank hg hne ha, hb⟩
  · rintro ⟨a, b, rfl, ha, hb⟩
    induction ha with
    | nil => exact hb
    | word _ ih => exact List.append_assoc .. ▸ .word ih
    | gap hg _ ih => exact List.append_assoc .. ▸ .gap hg ih
    | blank hg hne _ ih => exact List.append_assoc .. ▸ .blank hg hne ih

/-- Layouts with something in between are the first one, and the others each after that. -/
theorem intercalate_cons {α : Type} (sep x : List α) (xs : List (List α)) :
    sep.intercalate (x :: xs) = x ++ xs.flatMap (sep ++ ·) := by
  induction xs generalizing x with
  | nil => simp
  | cons y ys ih =>
    rw [List.intercalate_cons_cons, ih, List.flatMap_cons, List.append_assoc, List.append_assoc]

/-! ## Deciding -/

/-- Whether the condition holds after some of the white space at the front. -/
def afterGaps (p : List Char → Bool) : List Char → Bool
  | [] => p []
  | c :: cs => p (c :: cs) || isGap c && afterGaps p cs

theorem afterGaps_iff {p : List Char → Bool} :
    afterGaps p s = true ↔ ∃ g s', s = g ++ s' ∧ AreGaps g ∧ p s' = true := by
  constructor
  · intro h
    induction s with
    | nil => exact ⟨[], [], rfl, List.forall_mem_nil _, h⟩
    | cons c cs ih =>
      simp only [afterGaps, Bool.or_eq_true, Bool.and_eq_true] at h
      rcases h with hp | ⟨hc, h⟩
      · exact ⟨[], c :: cs, rfl, List.forall_mem_nil _, hp⟩
      · obtain ⟨g, s', rfl, hg, hp⟩ := ih h
        exact ⟨c :: g, s', rfl, List.forall_mem_cons.2 ⟨hc, hg⟩, hp⟩
  · rintro ⟨g, s', rfl, hg, hp⟩
    induction g with
    | nil => cases s' <;> simp [afterGaps, hp]
    | cons c g ih =>
      obtain ⟨hc, hg⟩ := List.forall_mem_cons.1 hg
      simp [afterGaps, hc, ih hg]

/-- Whether a text spells a layout. -/
def spells : List Piece → List Char → Bool
  | [], s => s.isEmpty
  | .word text :: ps, s => (afterWord text.toList s).any (spells ps)
  | .gap _ :: ps, s => afterGaps (spells ps) s
  | .blank :: ps, s =>
    match s with
    | [] => false
    | c :: cs => isGap c && afterGaps (spells ps) cs

theorem spells_iff : spells ps s = true ↔ Spells ps s := by
  induction ps generalizing s with
  | nil => simp [spells, spells_nil_iff]
  | cons p ps ih =>
    cases p with
    | word text =>
      simp only [spells, spells_word_iff, Option.any_eq_true, afterWord_eq_some_iff, ih]
    | gap usual =>
      simp only [spells, spells_gap_iff, afterGaps_iff, ih]
    | blank =>
      rw [spells_blank_iff]
      cases s with
      | nil => simp [spells]
      | cons c cs =>
        simp only [spells, Bool.and_eq_true, afterGaps_iff, ih]
        constructor
        · rintro ⟨hc, g, s', rfl, hg, hs'⟩
          exact ⟨c :: g, s', rfl, List.forall_mem_cons.2 ⟨hc, hg⟩, List.cons_ne_nil _ _, hs'⟩
        · rintro ⟨_ | ⟨c', g⟩, s', hcs, hg, hne, hs'⟩
          · exact absurd rfl hne
          · obtain ⟨rfl, rfl⟩ := List.cons.inj hcs
            obtain ⟨hc, hg⟩ := List.forall_mem_cons.1 hg
            exact ⟨hc, g, s', rfl, hg, hs'⟩

instance : Decidable (Spells ps s) :=
  decidable_of_iff _ spells_iff

example : Spells (TypeExpr.array (.simple "Int" [])).pieces "[\tInt]".toList := by decide

example : ¬ Spells (TypeExpr.someOf (.simple "Key" [])).pieces "someKey".toList := by decide

/-! ## The canonical text -/

namespace Piece

/-- A gap has nothing but white space in the canonical text. -/
def IsPlain : Piece → Prop
  | .gap usual => AreGaps usual.toList
  | .word _ | .blank => True

/-- All gaps of a layout have nothing but white space in the canonical text. -/
def ArePlain (ps : List Piece) : Prop :=
  ∀ p ∈ ps, p.IsPlain

theorem arePlain_append_iff : ArePlain (ps ++ qs) ↔ ArePlain ps ∧ ArePlain qs :=
  List.forall_mem_append

theorem arePlain_cons_iff {p : Piece} : ArePlain (p :: ps) ↔ p.IsPlain ∧ ArePlain ps :=
  List.forall_mem_cons

theorem arePlain_nil : ArePlain [] :=
  List.forall_mem_nil _

theorem arePlain_enclosed {opening closing : String} (h : ArePlain ps) :
    ArePlain (enclosed opening closing ps) := by
  have hgap : IsPlain (.gap "") := List.forall_mem_nil _
  simp only [enclosed, List.cons_append, arePlain_cons_iff, arePlain_append_iff]
  exact ⟨trivial, hgap, h, hgap, trivial, arePlain_nil⟩

theorem arePlain_sign {before text after : String} (hbefore : AreGaps before.toList)
    (hafter : AreGaps after.toList) : ArePlain (sign before text after) := by
  simp only [sign, arePlain_cons_iff]
  exact ⟨hbefore, trivial, hafter, arePlain_nil⟩

theorem arePlain_intercalate {sep : List Piece} (hsep : ArePlain sep) {items : List (List Piece)}
    (h : ∀ ps ∈ items, ArePlain ps) : ArePlain (sep.intercalate items) := by
  cases items with
  | nil => exact arePlain_nil
  | cons ps items =>
    obtain ⟨hfirst, hrest⟩ := List.forall_mem_cons.1 h
    rw [intercalate_cons, arePlain_append_iff]
    refine ⟨hfirst, ?_⟩
    intro p hp
    obtain ⟨qs, hqs, hp⟩ := List.mem_flatMap.1 hp
    exact arePlain_append_iff.2 ⟨hsep, hrest qs hqs⟩ p hp

theorem arePlain_commaSeparated {items : List (List Piece)} (h : ∀ ps ∈ items, ArePlain ps) :
    ArePlain (commaSeparated items) :=
  arePlain_intercalate (arePlain_sign (by decide) (by decide)) h

end Piece

/-- **A plain layout is spelled by its canonical text.** -/
theorem spells_usual (h : Piece.ArePlain ps) :
    Spells ps (String.join (ps.map Piece.usual)).toList := by
  induction ps with
  | nil => exact .nil
  | cons p ps ih =>
    obtain ⟨hp, hps⟩ := List.forall_mem_cons.1 h
    rw [List.map_cons, String.join_cons, String.toList_append]
    cases p with
    | word text => exact .word (ih hps)
    | gap usual => exact .gap hp (ih hps)
    | blank => exact .blank (by decide) (by decide) (ih hps)

/-! ## Wide and narrow texts -/

/-- White space for a gap: any, or if the text is `narrow` what the canonical text has there. -/
def Fills (narrow : Bool) (usual : String) (g : List Char) : Prop :=
  AreGaps g ∧ (narrow = true → g = usual.toList)

/-- **The texts that spell a layout**: all of them, or if `narrow` holds only the canonical one. -/
def SpellsIn (narrow : Bool) (ps : List Piece) (s : List Char) : Prop :=
  if narrow then Piece.ArePlain ps ∧ s = (String.join (ps.map Piece.usual)).toList else Spells ps s

section Narrow

variable {narrow : Bool}

theorem spellsIn_nil_iff : SpellsIn narrow [] s ↔ s = [] := by
  cases narrow with
  | false => exact spells_nil_iff
  | true => simp [SpellsIn, Piece.arePlain_nil]

theorem spellsIn_word_iff {text : String} :
    SpellsIn narrow (.word text :: ps) s ↔ ∃ s', s = text.toList ++ s' ∧ SpellsIn narrow ps s' := by
  cases narrow with
  | false => exact spells_word_iff
  | true =>
    simp only [SpellsIn, if_true, Piece.arePlain_cons_iff, List.map_cons, String.join_cons,
      String.toList_append, Piece.usual]
    constructor
    · rintro ⟨⟨-, hps⟩, rfl⟩
      exact ⟨_, rfl, hps, rfl⟩
    · rintro ⟨_, rfl, hps, rfl⟩
      exact ⟨⟨trivial, hps⟩, rfl⟩

theorem spellsIn_gap_iff {usual : String} :
    SpellsIn narrow (.gap usual :: ps) s ↔
      ∃ g s', s = g ++ s' ∧ Fills narrow usual g ∧ SpellsIn narrow ps s' := by
  cases narrow with
  | false =>
    simp only [SpellsIn, Fills, Bool.false_eq_true, if_false, false_implies, and_true]
    exact spells_gap_iff
  | true =>
    simp only [SpellsIn, Fills, if_true, Piece.arePlain_cons_iff, List.map_cons, String.join_cons,
      String.toList_append, Piece.usual, true_implies]
    constructor
    · rintro ⟨⟨hgap, hps⟩, rfl⟩
      exact ⟨_, _, rfl, ⟨hgap, rfl⟩, hps, rfl⟩
    · rintro ⟨_, _, rfl, ⟨hgap, rfl⟩, hps, rfl⟩
      exact ⟨⟨hgap, hps⟩, rfl⟩

theorem spellsIn_blank_iff :
    SpellsIn narrow (.blank :: ps) s ↔
      ∃ g s', s = g ++ s' ∧ Fills narrow " " g ∧ g ≠ [] ∧ SpellsIn narrow ps s' := by
  cases narrow with
  | false =>
    simp only [SpellsIn, Fills, Bool.false_eq_true, if_false, false_implies, and_true]
    exact spells_blank_iff
  | true =>
    simp only [SpellsIn, Fills, if_true, Piece.arePlain_cons_iff, List.map_cons, String.join_cons,
      String.toList_append, Piece.usual, true_implies]
    constructor
    · rintro ⟨⟨-, hps⟩, rfl⟩
      exact ⟨_, _, rfl, ⟨by decide, rfl⟩, by decide, hps, rfl⟩
    · rintro ⟨_, _, rfl, ⟨-, rfl⟩, -, hps, rfl⟩
      exact ⟨⟨trivial, hps⟩, rfl⟩

/-- A text of two layouts is a text of the first one and then one of the second one. -/
theorem spellsIn_append_iff :
    SpellsIn narrow (ps ++ qs) s ↔ ∃ a b, s = a ++ b ∧ SpellsIn narrow ps a ∧ SpellsIn narrow qs b := by
  cases narrow with
  | false => exact spells_append_iff
  | true =>
    simp only [SpellsIn, if_true, Piece.arePlain_append_iff, List.map_append, String.join_append,
      String.toList_append]
    constructor
    · rintro ⟨⟨hps, hqs⟩, rfl⟩
      exact ⟨_, _, rfl, ⟨hps, rfl⟩, hqs, rfl⟩
    · rintro ⟨_, _, rfl, ⟨hps, rfl⟩, hqs, rfl⟩
      exact ⟨⟨hps, hqs⟩, rfl⟩

/-- Something between two brackets, and what comes after. -/
theorem SpellsIn.of_enclosed {opening closing : String}
    (h : SpellsIn narrow (Piece.enclosed opening closing ps) s) (rest : List Char) :
    ∃ g s' g', s ++ rest = opening.toList ++ (g ++ (s' ++ (g' ++ (closing.toList ++ rest)))) ∧
      Fills narrow "" g ∧ Fills narrow "" g' ∧ SpellsIn narrow ps s' := by
  obtain ⟨_, rfl, hinside⟩ := spellsIn_word_iff.1 h
  obtain ⟨g, _, rfl, hg, hinside⟩ := spellsIn_gap_iff.1 hinside
  obtain ⟨s', _, rfl, hs', hend⟩ := spellsIn_append_iff.1 hinside
  obtain ⟨g', _, rfl, hg', hclosing⟩ := spellsIn_gap_iff.1 hend
  obtain ⟨_, rfl, hnil⟩ := spellsIn_word_iff.1 hclosing
  obtain rfl := spellsIn_nil_iff.1 hnil
  refine ⟨g, s', g', ?_, hg, hg', hs'⟩
  simp only [List.append_assoc, List.nil_append]

/-- A sign with white space around it, and what comes after. -/
theorem SpellsIn.of_sign {before text after : String}
    (h : SpellsIn narrow (Piece.sign before text after ++ ps) s) (rest : List Char) :
    ∃ g g' s', s ++ rest = g ++ (text.toList ++ (g' ++ (s' ++ rest))) ∧ Fills narrow before g ∧
      Fills narrow after g' ∧ SpellsIn narrow ps s' := by
  obtain ⟨g, _, rfl, hg, hword⟩ := spellsIn_gap_iff.1 h
  obtain ⟨_, rfl, hafter⟩ := spellsIn_word_iff.1 hword
  obtain ⟨g', s', rfl, hg', hs'⟩ := spellsIn_gap_iff.1 hafter
  refine ⟨g, g', s', ?_, hg, hg', hs'⟩
  simp only [List.append_assoc]

/-- A word with white space after it, and what comes after. -/
theorem SpellsIn.of_word_blank {text : String} (h : SpellsIn narrow (.word text :: .blank :: ps) s)
    (rest : List Char) :
    ∃ g s', s ++ rest = text.toList ++ (g ++ (s' ++ rest)) ∧ AreGaps g ∧ g ≠ [] ∧
      SpellsIn narrow ps s' := by
  obtain ⟨_, rfl, hblank⟩ := spellsIn_word_iff.1 h
  obtain ⟨g, s', rfl, hg, hne, hs'⟩ := spellsIn_blank_iff.1 hblank
  refine ⟨g, s', ?_, hg.1, hne, hs'⟩
  simp only [List.append_assoc]

/-- A word at the end, and what comes after. -/
theorem SpellsIn.of_append_word {text : String} (h : SpellsIn narrow (ps ++ [.word text]) s)
    (rest : List Char) :
    ∃ s', s ++ rest = s' ++ (text.toList ++ rest) ∧ SpellsIn narrow ps s' := by
  obtain ⟨s', _, rfl, hs', hword⟩ := spellsIn_append_iff.1 h
  obtain ⟨_, rfl, hnil⟩ := spellsIn_word_iff.1 hword
  obtain rfl := spellsIn_nil_iff.1 hnil
  refine ⟨s', ?_, hs'⟩
  simp only [List.append_assoc, List.nil_append]

end Narrow

namespace TypeExpr

open Piece

theorem arePlain_grouped {needed : Bool} (h : ArePlain ps) : ArePlain (grouped needed ps) := by
  unfold grouped
  split
  · exact arePlain_enclosed h
  · exact h

theorem arePlain_genericPieces {generics : List (List Piece)} (h : ∀ ps ∈ generics, ArePlain ps) :
    ArePlain (genericPieces generics) := by
  unfold genericPieces
  split
  · exact arePlain_nil
  · exact arePlain_enclosed (arePlain_commaSeparated h)

theorem arePlain_decorationPieces (attributes : List String) (specifier : Option String) :
    ArePlain (decorationPieces attributes specifier) := by
  intro p hp
  simp only [decorationPieces, List.mem_append, List.mem_flatMap, List.mem_cons, List.not_mem_nil,
    or_false] at hp
  rcases hp with ⟨_, -, rfl | rfl⟩ | ⟨_, -, rfl | rfl⟩ <;> trivial

/-- A tuple has its parentheses, but for a single element without a label. -/
theorem pieces_tuple {es : List (Labelled TypeExpr)} (h : ∀ t, es ≠ [⟨none, t⟩]) :
    (tuple es).pieces = enclosed "(" ")" (commaSeparated (elementPieces es)) := by
  rw [pieces]
  exact h

mutual

/-- The layout of every type is plain. -/
theorem arePlain_pieces : ∀ t : TypeExpr, ArePlain t.pieces
  | .simple n gs => by
    rw [pieces, arePlain_cons_iff]
    exact ⟨trivial, arePlain_genericPieces (arePlain_piecesAll gs)⟩
  | .nested n p gs => by
    rw [pieces, arePlain_append_iff, arePlain_cons_iff]
    exact ⟨arePlain_pieces p, trivial, arePlain_genericPieces (arePlain_piecesAll gs)⟩
  | .composition ms => by
    rw [pieces]
    exact arePlain_intercalate (arePlain_sign (by decide) (by decide)) (arePlain_groupedAll ms)
  | .optional t | .forced t | .metatype t _ => by
    rw [pieces, arePlain_append_iff]
    exact ⟨arePlain_grouped (arePlain_pieces t), arePlain_cons_iff.2 ⟨trivial, arePlain_nil⟩⟩
  | .someOf t | .anyOf t => by
    rw [pieces, arePlain_cons_iff, arePlain_cons_iff]
    exact ⟨trivial, trivial, arePlain_pieces t⟩
  | .attributed t specifier attributes => by
    rw [pieces, arePlain_append_iff]
    exact ⟨arePlain_decorationPieces attributes specifier, arePlain_pieces t⟩
  | .array t => by
    rw [pieces]
    exact arePlain_enclosed (arePlain_pieces t)
  | .dictionary k v => by
    rw [pieces]
    refine arePlain_enclosed ?_
    rw [arePlain_append_iff, arePlain_append_iff]
    exact ⟨⟨arePlain_pieces k, arePlain_sign (by decide) (by decide)⟩, arePlain_pieces v⟩
  | .tuple es => by
    -- a single element without a label has no parentheses
    have helements := arePlain_elementPieces es
    by_cases hsingle : ∃ t, es = [⟨none, t⟩]
    · obtain ⟨t, rfl⟩ := hsingle
      rw [pieces]
      exact helements _ List.mem_cons_self
    · rw [pieces_tuple fun t h => hsingle ⟨t, h⟩]
      exact arePlain_enclosed (arePlain_commaSeparated helements)
  | .closure as isAsync canThrow r => by
    rw [pieces]
    simp only [arePlain_append_iff]
    refine ⟨⟨⟨⟨?_, ?_⟩, ?_⟩, arePlain_sign (by decide) (by decide)⟩, arePlain_pieces r⟩
    · exact arePlain_enclosed (arePlain_commaSeparated (arePlain_piecesAll as))
    · cases isAsync <;> simp [arePlain_cons_iff, arePlain_nil, IsPlain]
    · cases canThrow <;> simp [arePlain_cons_iff, arePlain_nil, IsPlain]
  | .unknown text => arePlain_cons_iff.2 ⟨trivial, arePlain_nil⟩

theorem arePlain_piecesAll : ∀ ts : List TypeExpr, ∀ ps ∈ piecesAll ts, ArePlain ps
  | [] => by simp [piecesAll]
  | t :: ts => by
    rw [piecesAll, List.forall_mem_cons]
    exact ⟨arePlain_pieces t, arePlain_piecesAll ts⟩

theorem arePlain_groupedAll : ∀ ts : List TypeExpr, ∀ ps ∈ groupedAll ts, ArePlain ps
  | [] => by simp [groupedAll]
  | t :: ts => by
    rw [groupedAll, List.forall_mem_cons]
    exact ⟨arePlain_grouped (arePlain_pieces t), arePlain_groupedAll ts⟩

theorem arePlain_elementPieces :
    ∀ es : List (Labelled TypeExpr), ∀ ps ∈ elementPieces es, ArePlain ps
  | [] => by simp [elementPieces]
  | ⟨none, t⟩ :: es => by
    rw [elementPieces, List.forall_mem_cons]
    exact ⟨arePlain_pieces t, arePlain_elementPieces es⟩
  | ⟨some label, t⟩ :: es => by
    rw [elementPieces, List.forall_mem_cons, arePlain_append_iff, arePlain_cons_iff]
    exact ⟨⟨⟨trivial, arePlain_sign (by decide) (by decide)⟩, arePlain_pieces t⟩,
      arePlain_elementPieces es⟩

end

/-- **The canonical text of a type spells it.** -/
theorem spells_source (t : TypeExpr) : Spells t.pieces t.source.toList :=
  spells_usual (arePlain_pieces t)

/-- It is its narrow text as well. -/
theorem spellsIn_source (narrow : Bool) (t : TypeExpr) : SpellsIn narrow t.pieces t.source.toList := by
  cases narrow with
  | false => exact spells_source t
  | true => exact ⟨arePlain_pieces t, rfl⟩

end TypeExpr

end Wiring
