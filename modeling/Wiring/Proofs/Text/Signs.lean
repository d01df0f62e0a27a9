import Wiring.Proofs.Text.Expression
import Wiring.Proofs.Text.Trailing

/-!
# White space, signs and words as expressions

The look-ups for signs and words answer a rest of the text or nothing. Here each has its expression, which
ends as the look-up says, and with what is put together from it.

* `Reading.ending`, `Loose.ending`: how a rule, an option or a repetition ends.
* `Finds`: an expression ends as a look-up says; `word_finds`, `opening_finds`, `closing_finds`,
  `separator_finds`, `spaced_finds`.
* `gaps_runs`, `characters_run`: characters of a kind, up to the first other one.
* `anyWord_runs`, `anyWord_fails`: one of several words, none of which is the front of another.
-/

namespace Wiring.Text

variable {α β : Type} {s t : List Char}

/-! ## Endings -/

/-- How a rule ends. -/
def Reading.ending : Reading α s → Ending
  | .done _ rest _ => .done rest
  | .failed place => .failed place

/-- How an option or a repetition ends: it never fails. -/
def Loose.ending (outcome : Loose α s) : Ending :=
  .done outcome.rest

namespace Reading

theorem ending_of_reads {reading : Reading α s} {a : α} {rest : List Char} (h : reading.Reads a rest) :
    reading.ending = .done rest := by
  obtain ⟨_, rfl⟩ := h
  rfl

theorem ending_eq_failed_iff {reading : Reading α s} {place : List Char} :
    reading.ending = .failed place ↔ reading = .failed place := by
  cases reading <;> simp [ending]

@[simp] theorem ending_map (f : α → β) (reading : Reading α s) : (reading.map f).ending = reading.ending := by
  cases reading <;> rfl

@[simp] theorem ending_within (h : s.length ≤ t.length) (reading : Reading α s) :
    (reading.within h).ending = reading.ending := by
  cases reading <;> rfl

@[simp] theorem ending_after (h : s.length < t.length) (reading : Reading α s) :
    (reading.after h).ending = reading.ending :=
  ending_within _ reading

@[simp] theorem ending_afterChar {c : Char} (reading : Reading α s) :
    (reading.afterChar (c := c)).ending = reading.ending :=
  ending_within _ reading

end Reading

namespace Loose

@[simp] theorem ending_map (f : α → β) (outcome : Loose α s) : (outcome.map f).ending = outcome.ending := rfl

@[simp] theorem ending_within (h : s.length ≤ t.length) (outcome : Loose α s) :
    (outcome.within h).ending = outcome.ending := rfl

@[simp] theorem ending_later (h : s.length < t.length) (outcome : Loose α s) :
    (outcome.later h).ending = outcome.ending := rfl

@[simp] theorem ending_after (h : s.length < t.length) (outcome : Loose α s) :
    (outcome.after h).ending = outcome.ending := rfl

end Loose

namespace Expression

variable {ρ : Type} {body : ρ → Expression ρ} {e e' : Expression ρ} {word rest place : List Char}
  {words : List (List Char)} {p : Char → Bool} {c : Char}

/-- **The expression ends as the look-up says**: it leaves what is found, and where nothing is found, it fails
at `place`. -/
def Finds (body : ρ → Expression ρ) (e : Expression ρ) (place : List Char) : Option (Shorter s) → Prop
  | some found => Runs body e s (.done found.1)
  | none => Runs body e s (.failed place)

/-- What is put together from an expression ends as the look-up for it says. -/
theorem Finds.map {found : Option (Shorter s)} {f : Shorter s → Shorter t} (h : Finds body e place found)
    (hdone : ∀ rest, Runs body e s (.done rest.1) → Runs body e' t (.done (f rest).1))
    (hfailed : Runs body e s (.failed place) → Runs body e' t (.failed place)) :
    Finds body e' place (found.map f) := by
  cases found with
  | some found => exact hdone _ h
  | none => exact hfailed h

/-- An option ends where the reading does, or where it began. -/
theorem runs_opt {reading : Reading α s} (default : α) (h : Runs body e s reading.ending) :
    Runs body (.opt e) s (reading.orElse default).ending := by
  cases reading with
  | done => exact .opt h
  | failed => exact .opt_nothing h

/-! ## Characters of a kind -/

/-- White space between words, or none. -/
def gaps : Expression ρ :=
  .many (.one isGap)

/-- White space between words, at least one character. -/
def spaces : Expression ρ :=
  .seq (.one isGap) gaps

/-- Characters of a kind, at least one. -/
def characters (p : Char → Bool) : Expression ρ :=
  .seq (.one p) (.many (.one p))

/-- What a kind of characters takes away, a wider kind takes away, too. -/
theorem dropWhile_dropWhile {p q : Char → Bool} (h : ∀ c, p c = true → q c = true) (s : List Char) :
    (s.dropWhile p).dropWhile q = s.dropWhile q := by
  induction s with
  | nil => rfl
  | cons c s ih =>
    by_cases hc : p c = true
    · rw [List.dropWhile_cons_of_pos hc, List.dropWhile_cons_of_pos (h c hc), ih]
    · rw [List.dropWhile_cons_of_neg hc]

theorem many_one_runs (p : Char → Bool) (s : List Char) :
    Runs body (.many (.one p)) s (.done (s.dropWhile p)) := by
  induction s with
  | nil => exact .many_end (.one_fails (by simp))
  | cons c s ih =>
    by_cases hc : p c = true
    · rw [List.dropWhile_cons_of_pos hc]
      exact .many_more (.one hc) (Nat.lt_succ_self _) ih
    · rw [List.dropWhile_cons_of_neg hc]
      refine .many_end (.one_fails ?_)
      rintro d ⟨⟩
      simpa using hc

theorem gaps_runs (s : List Char) : Runs body gaps s (.done (skipGaps s)) :=
  many_one_runs isGap s

theorem characters_run (hc : p c = true) (s : List Char) :
    Runs body (characters p) (c :: s) (.done (s.dropWhile p)) :=
  .seq (.one hc) (many_one_runs p s)

theorem characters_fail (h : ∀ c, s.head? = some c → p c = false) :
    Runs body (characters p) s (.failed s) :=
  .seq_fails (.one_fails h)

/-- White space after a character of it. -/
theorem spaces_run (h : s.head?.any isGap = true) : Runs body spaces s (.done (skipGaps s)) := by
  cases s with
  | nil => cases h
  | cons c s =>
    have hc : isGap c = true := by simpa using h
    rw [skipGaps, List.dropWhile_cons_of_pos hc]
    exact characters_run hc s

theorem spaces_fail (h : s.head?.any isGap ≠ true) : Runs body spaces s (.failed s) := by
  refine characters_fail fun c hc => ?_
  rw [hc] at h
  simpa using h

/-! ## Signs -/

/-- A sign with white space around it, or without. -/
def sign (w : List Char) : Expression ρ :=
  .seq gaps (.seq (.word w) gaps)

/-- A list of at least one item, with a sign between any two. -/
def listOf (w : List Char) (e : Expression ρ) : Expression ρ :=
  .seq e (.many (.seq (sign w) e))

/-- An expression between brackets; inside them may be white space at both ends. -/
def between (left right : List Char) (e : Expression ρ) : Expression ρ :=
  .seq (.seq (.word left) gaps) (.seq e (.seq gaps (.word right)))

/-- A word with white space after it, at least one character. -/
def spaced (w : List Char) : Expression ρ :=
  .seq (.word w) spaces

/-- A character that is not there. -/
theorem char_fails (h : s.head? ≠ some c) : Runs body (.word [c]) s (.failed s) := by
  refine .word_fails ?_
  rintro rest rfl
  exact h rfl

section Signs

variable (hne : word ≠ []) (s : List Char)
include hne

theorem word_finds : Finds body (.word word) s (shorterAfter word s) := by
  cases hfound : shorterAfter word s with
  | some found => exact .word (shorterAfter_eq_some hfound)
  | none =>
    refine .word_fails ?_
    rintro rest rfl
    obtain ⟨_, hleaves⟩ := shorterAfter_leaves hne rest
    rw [hleaves] at hfound
    cases hfound

theorem opening_finds : Finds body (.seq (.word word) gaps) s (opening word s) :=
  (word_finds hne s).map (fun _ h => .seq h (gaps_runs _)) .seq_fails

theorem closing_finds : Finds body (.seq gaps (.word word)) (skipGaps s) (closing word s) :=
  (word_finds hne _).map (fun _ => .seq (gaps_runs s)) (.seq (gaps_runs s))

theorem separator_finds : Finds body (sign word) (skipGaps s) (separator word s) :=
  (opening_finds hne _).map (fun _ => .seq (gaps_runs s)) (.seq (gaps_runs s))

/-- A word with white space after it is not there where the word is not, and where something else follows
it. -/
theorem spaced_finds : ∃ place, Finds body (spaced word) place (spacedWord word s) := by
  cases hfound : spacedWord word s with
  | some found =>
    obtain ⟨tail, rfl, hrest, c, hc, hgap⟩ := spacedWord_eq_some hne hfound
    refine ⟨[], .seq (.word rfl) ?_⟩
    rw [hrest]
    exact spaces_run (by rw [hc]; exact hgap)
  | none =>
    by_cases hword : ∃ tail, s = word ++ tail
    · obtain ⟨tail, rfl⟩ := hword
      refine ⟨tail, .seq (.word rfl) (spaces_fail fun hgap => ?_)⟩
      obtain ⟨_, hleaves⟩ := spacedWord_leaves_skipGaps hne hgap
      rw [hleaves] at hfound
      cases hfound
    · exact ⟨s, .seq_fails (.word_fails fun tail hs => hword ⟨tail, hs⟩)⟩

end Signs

/-! ## One of several words -/

/-- The first of several words that is there. -/
def anyWord : List (List Char) → Expression ρ
  | [] => .one fun _ => false
  | w :: ws => .alt (.word w) (anyWord ws)

/-- A word is taken if none before it is there. -/
theorem anyWord_runs (hword : word ∈ words) (hs : s = word ++ rest)
    (hother : ∀ w ∈ words, w <+: s → w = word) : Runs body (anyWord words) s (.done rest) := by
  induction words with
  | nil => cases hword
  | cons w words ih =>
    obtain ⟨hfirst, hothers⟩ := List.forall_mem_cons.1 hother
    by_cases hw : w = word
    · exact .alt_first (.word (hw ▸ hs))
    · refine .alt_second (.word_fails fun tail htail => hw (hfirst ⟨tail, htail.symm⟩)) ?_
      exact ih ((List.mem_cons.1 hword).resolve_left (Ne.symm hw)) hothers

theorem anyWord_fails (h : ∀ w ∈ words, ¬ w <+: s) : Runs body (anyWord words) s (.failed s) := by
  induction words with
  | nil => exact .one_fails fun _ _ => rfl
  | cons w words ih =>
    obtain ⟨hw, hwords⟩ := List.forall_mem_cons.1 h
    exact .alt_second (.word_fails fun tail htail => hw ⟨tail, htail.symm⟩) (ih hwords)

end Expression

end Wiring.Text
