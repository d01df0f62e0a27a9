import Wiring.Proofs.Text.Reading

/-!
# Parsing expressions

A grammar with ordered choice, written down as data. A rule has a body, and bodies are made of characters and
words by sequence, choice, options, repetition and checks. What a body does with a text is a relation: nothing
in it says that a body ever comes to an end, and a repetition whose item reads nothing is stuck.

* `Expression`, `Ending`, `Expression.Runs`: bodies, what comes of them, and how.
* `Runs.unique`: a body comes to one end at most.
* `Runs.suffix`: what is left, and the place of a failure, are at the end of the text.
* `Expression.consumes`, `Runs.properSuffix`: which bodies read something whenever they succeed, as can be
  told from their form.
* `Expression.items`, `Runs.never_stuck`: what is repeated; no repetition of what reads something is stuck.
-/

namespace Wiring.Text

/-- **A body of a rule**; the rules have names in `ρ`. -/
inductive Expression (ρ : Type) where
  /-- A character of some kind. -/
  | one (p : Char → Bool)
  /-- A word. -/
  | word (w : List Char)
  /-- Both, the second one on what the first one leaves. -/
  | seq (e e' : Expression ρ)
  /-- The second one where the first one fails. -/
  | alt (e e' : Expression ρ)
  /-- At most once. -/
  | opt (e : Expression ρ)
  /-- As often as possible. -/
  | many (e : Expression ρ)
  /-- Nothing, where `e` fails. -/
  | absent (e : Expression ρ)
  /-- `e`, if what it reads is as `p` says. -/
  | check (p : List Char → Bool) (e : Expression ρ)
  /-- The body of a rule. -/
  | rule (r : ρ)

/-- What comes of an expression. -/
inductive Ending where
  /-- It has read the text up to `rest`. -/
  | done (rest : List Char)
  /-- It has failed, and gave up at `place`. -/
  | failed (place : List Char)
deriving DecidableEq

/-- The text that an ending points at. -/
def Ending.left : Ending → List Char
  | .done rest => rest
  | .failed place => place

/-- **Something is taken away from the front of `s`**, and `rest` is left. -/
def ProperSuffix (rest s : List Char) : Prop :=
  rest <:+ s ∧ rest ≠ s

theorem properSuffix_iff {rest s : List Char} :
    ProperSuffix rest s ↔ rest <:+ s ∧ rest.length < s.length := by
  constructor
  · rintro ⟨hsuffix, hne⟩
    exact ⟨hsuffix, Nat.lt_of_le_of_ne hsuffix.length_le fun h => hne (hsuffix.eq_of_length h)⟩
  · rintro ⟨hsuffix, hlt⟩
    exact ⟨hsuffix, fun h => Nat.lt_irrefl _ (h ▸ hlt)⟩

namespace Expression

variable {ρ : Type} {body : ρ → Expression ρ} {e e' : Expression ρ} {s rest place : List Char}
  {x y : Ending}

/-- **The expression comes to the end `x` on the text `s`**, where rules have the bodies `body`. A failure
points at where the last alternative failed; an option and the end of a repetition forget the failure of what
they tried, with all that it had read. -/
inductive Runs (body : ρ → Expression ρ) : Expression ρ → List Char → Ending → Prop
  | one {p : Char → Bool} {c : Char} {rest : List Char} :
    p c = true → Runs body (.one p) (c :: rest) (.done rest)
  | one_fails {p : Char → Bool} {s : List Char} :
    (∀ c, s.head? = some c → p c = false) → Runs body (.one p) s (.failed s)
  | word {w s rest : List Char} : s = w ++ rest → Runs body (.word w) s (.done rest)
  | word_fails {w s : List Char} : (∀ rest, s ≠ w ++ rest) → Runs body (.word w) s (.failed s)
  | seq {e e' : Expression ρ} {s rest : List Char} {x : Ending} :
    Runs body e s (.done rest) → Runs body e' rest x → Runs body (.seq e e') s x
  | seq_fails {e e' : Expression ρ} {s place : List Char} :
    Runs body e s (.failed place) → Runs body (.seq e e') s (.failed place)
  | alt_first {e e' : Expression ρ} {s rest : List Char} :
    Runs body e s (.done rest) → Runs body (.alt e e') s (.done rest)
  | alt_second {e e' : Expression ρ} {s place : List Char} {x : Ending} :
    Runs body e s (.failed place) → Runs body e' s x → Runs body (.alt e e') s x
  | opt {e : Expression ρ} {s rest : List Char} :
    Runs body e s (.done rest) → Runs body (.opt e) s (.done rest)
  | opt_nothing {e : Expression ρ} {s place : List Char} :
    Runs body e s (.failed place) → Runs body (.opt e) s (.done s)
  | many_more {e : Expression ρ} {s rest : List Char} {x : Ending} :
    Runs body e s (.done rest) → rest.length < s.length → Runs body (.many e) rest x →
      Runs body (.many e) s x
  | many_end {e : Expression ρ} {s place : List Char} :
    Runs body e s (.failed place) → Runs body (.many e) s (.done s)
  /-- The repetition would go on for ever. -/
  | many_stuck {e : Expression ρ} {s rest : List Char} :
    Runs body e s (.done rest) → ¬ rest.length < s.length → Runs body (.many e) s (.failed s)
  | absent {e : Expression ρ} {s place : List Char} :
    Runs body e s (.failed place) → Runs body (.absent e) s (.done s)
  | absent_fails {e : Expression ρ} {s rest : List Char} :
    Runs body e s (.done rest) → Runs body (.absent e) s (.failed s)
  | check {p : List Char → Bool} {e : Expression ρ} {s front rest : List Char} :
    Runs body e s (.done rest) → s = front ++ rest → p front = true →
      Runs body (.check p e) s (.done rest)
  | check_refuses {p : List Char → Bool} {e : Expression ρ} {s front rest : List Char} :
    Runs body e s (.done rest) → s = front ++ rest → p front = false →
      Runs body (.check p e) s (.failed s)
  | check_fails {p : List Char → Bool} {e : Expression ρ} {s place : List Char} :
    Runs body e s (.failed place) → Runs body (.check p e) s (.failed place)
  | rule {r : ρ} {s : List Char} {x : Ending} : Runs body (body r) s x → Runs body (.rule r) s x

namespace Runs

/-- **An expression comes to one end at most.** -/
theorem unique (h : Runs body e s x) (h' : Runs body e s y) : x = y := by
  induction h generalizing y with
  | one hc =>
    cases h' with
    | one => rfl
    | one_fails hnone => rw [hnone _ rfl] at hc; cases hc
  | one_fails hnone =>
    cases h' with
    | one hc => rw [hnone _ rfl] at hc; cases hc
    | one_fails => rfl
  | word hs =>
    cases h' with
    | word hs' => rw [List.append_cancel_left (hs.symm.trans hs')]
    | word_fails hnone => exact absurd hs (hnone _)
  | word_fails hnone =>
    cases h' with
    | word hs => exact absurd hs (hnone _)
    | word_fails => rfl
  | seq _ _ ih ih' =>
    cases h' with
    | seq h h' => cases ih h; exact ih' h'
    | seq_fails h => cases ih h
  | seq_fails _ ih =>
    cases h' with
    | seq h => cases ih h
    | seq_fails h => exact ih h
  | alt_first _ ih =>
    cases h' with
    | alt_first h => exact ih h
    | alt_second h => cases ih h
  | alt_second _ _ ih ih' =>
    cases h' with
    | alt_first h => cases ih h
    | alt_second _ h' => exact ih' h'
  | opt _ ih =>
    cases h' with
    | opt h => exact ih h
    | opt_nothing h => cases ih h
  | opt_nothing _ ih =>
    cases h' with
    | opt h => cases ih h
    | opt_nothing => rfl
  | many_more _ hlt _ ih ih' =>
    cases h' with
    | many_more h _ h' => cases ih h; exact ih' h'
    | many_end h => cases ih h
    | many_stuck h hstuck => cases ih h; exact absurd hlt hstuck
  | many_end _ ih =>
    cases h' with
    | many_more h => cases ih h
    | many_end => rfl
    | many_stuck h => cases ih h
  | many_stuck _ hstuck ih =>
    cases h' with
    | many_more h hlt => cases ih h; exact absurd hlt hstuck
    | many_end h => cases ih h
    | many_stuck => rfl
  | absent _ ih =>
    cases h' with
    | absent => rfl
    | absent_fails h => cases ih h
  | absent_fails _ ih =>
    cases h' with
    | absent h => cases ih h
    | absent_fails => rfl
  | check _ hs hp ih =>
    cases h' with
    | check h => exact ih h
    | check_refuses h hs' hp' =>
      cases ih h
      rw [List.append_cancel_right (hs.symm.trans hs'), hp'] at hp
      cases hp
    | check_fails h => cases ih h
  | check_refuses _ hs hp ih =>
    cases h' with
    | check h hs' hp' =>
      cases ih h
      rw [List.append_cancel_right (hs.symm.trans hs'), hp'] at hp
      cases hp
    | check_refuses => rfl
    | check_fails h => cases ih h
  | check_fails _ ih =>
    cases h' with
    | check h => cases ih h
    | check_refuses h => cases ih h
    | check_fails h => exact ih h
  | rule _ ih =>
    cases h' with
    | rule h => exact ih h

/-- **What is left, and the place of a failure, are at the end of the text.** -/
theorem suffix (h : Runs body e s x) : x.left <:+ s := by
  induction h with
  | one => exact List.suffix_cons _ _
  | word hs => exact ⟨_, hs.symm⟩
  | seq _ _ ih ih' => exact ih'.trans ih
  | many_more _ _ _ ih ih' => exact ih'.trans ih
  | seq_fails _ ih => exact ih
  | alt_first _ ih => exact ih
  | alt_second _ _ _ ih' => exact ih'
  | opt _ ih => exact ih
  | check _ _ _ ih => exact ih
  | check_fails _ ih => exact ih
  | rule _ ih => exact ih
  | one_fails | word_fails | opt_nothing | many_end | many_stuck | absent | absent_fails | check_refuses =>
    exact List.suffix_refl _

end Runs

/-! ## What reads something -/

/-- **Whether an expression reads something whenever it succeeds**, if all rules do. -/
def consumes : Expression ρ → Bool
  | .one _ | .rule _ => true
  | .word w => !w.isEmpty
  | .seq e e' => e.consumes || e'.consumes
  | .alt e e' => e.consumes && e'.consumes
  | .opt _ | .many _ | .absent _ => false
  | .check _ e => e.consumes

/-- **The items of the repetitions** in an expression. -/
def items : Expression ρ → List (Expression ρ)
  | .one _ | .word _ | .rule _ => []
  | .seq e e' | .alt e e' => e.items ++ e'.items
  | .opt e | .absent e | .check _ e => e.items
  | .many e => e :: e.items

/-- Every rule reads something, as its body says. -/
theorem Runs.length_lt (hbody : ∀ r, (body r).consumes = true) (h : Runs body e s x)
    (he : e.consumes = true) (hx : x = .done rest) : rest.length < s.length := by
  induction h generalizing rest with
  | one =>
    cases hx
    exact Nat.lt_succ_self _
  | @word w _ _ hs =>
    cases hx
    have hw : 0 < w.length := List.length_pos_iff.2 (by simpa [consumes] using he)
    rw [hs, List.length_append]
    omega
  | seq h h' ih ih' =>
    subst hx
    have hle : _ ≤ _ := h.suffix.length_le
    have hle' : _ ≤ _ := h'.suffix.length_le
    rcases Bool.or_eq_true_iff.1 he with he | he
    · exact Nat.lt_of_le_of_lt hle' (ih he rfl)
    · exact Nat.lt_of_lt_of_le (ih' he rfl) hle
  | alt_first _ ih => exact ih (Bool.and_eq_true_iff.1 he).1 hx
  | alt_second _ _ _ ih' => exact ih' (Bool.and_eq_true_iff.1 he).2 hx
  | check _ _ _ ih => exact ih he hx
  | check_fails _ ih => exact ih he hx
  | rule _ ih => exact ih (hbody _) hx
  | opt | opt_nothing | many_more | many_end | many_stuck | absent | absent_fails => cases he
  | one_fails | word_fails | seq_fails | check_refuses => cases hx

/-- **What reads something leaves less of the text.** -/
theorem Runs.properSuffix (hbody : ∀ r, (body r).consumes = true) (he : e.consumes = true)
    (h : Runs body e s (.done rest)) : ProperSuffix rest s :=
  properSuffix_iff.2 ⟨h.suffix, h.length_lt hbody he rfl⟩

/-- **No repetition of what reads something is stuck.** -/
theorem Runs.never_stuck (hbody : ∀ r, (body r).consumes = true) (he : e.consumes = true) :
    ¬ Runs body (.many e) s (.failed place) := by
  intro h
  generalize hmany : Expression.many e = repetition at h
  generalize hx : Ending.failed place = x at h
  induction h with
  | many_more _ _ _ _ ih => exact ih hmany hx
  | many_stuck h hstuck =>
    cases hmany
    exact hstuck (h.length_lt hbody he rfl)
  | many_end => cases hx
  | _ => cases hmany

end Expression

end Wiring.Text
