import Wiring.Text.Blank

/-!
# Reading a text from the front

A rule of a grammar reads the front of a text and leaves the rest. Rules that succeed leave less than
they were given, which the types say, so that rules may call each other without end in sight and still
come to one.

* `Reading`: what a rule answers; a failure names the place where the rule gave up.
* `Loose`: what an option or a repetition answers; it may read nothing and never fails.
-/

namespace Wiring.Text

/-- A rest of the text `s` that is shorter than `s`. -/
abbrev Shorter (s : List Char) := { rest : List Char // rest.length < s.length }

/-- The outcome of a rule on the text `s`. -/
inductive Reading (α : Type) (s : List Char) where
  /-- The value that was read, and the rest. -/
  | done (value : α) (rest : List Char) (shorter : rest.length < s.length)
  /-- The rest at which the rule gave up. -/
  | failed (place : List Char)

/-- The outcome of an option or a repetition on the text `s`. -/
structure Loose (α : Type) (s : List Char) where
  value : α
  rest : List Char
  le : rest.length ≤ s.length

variable {α β : Type} {s t : List Char}

namespace Shorter

/-- The text after its first character. -/
def tail {c : Char} (s : List Char) : Shorter (c :: s) :=
  ⟨s, Nat.lt_succ_self _⟩

/-- A shorter rest of a shorter rest. -/
def after (h : s.length < t.length) (rest : Shorter s) : Shorter t :=
  ⟨rest.1, Nat.lt_trans rest.2 h⟩

/-- A shorter rest of a rest. -/
def within (h : s.length ≤ t.length) (rest : Shorter s) : Shorter t :=
  ⟨rest.1, Nat.lt_of_lt_of_le rest.2 h⟩

/-- A shorter rest of the text after a character. -/
def afterChar {c : Char} (rest : Shorter s) : Shorter (c :: s) :=
  ⟨rest.1, Nat.lt_succ_of_lt rest.2⟩

end Shorter

namespace Reading

/-- The reading with its value changed. -/
def map (f : α → β) : Reading α s → Reading β s
  | .done value rest h => .done (f value) rest h
  | .failed place => .failed place

/-- The reading with its value changed; a value that `f` does not change is a failure. -/
def choose (f : α → Option β) : Reading α s → Reading β s
  | .done value rest h =>
    match f value with
    | some changed => .done changed rest h
    | none => .failed s
  | .failed place => .failed place

/-- A reading of a rest of a text, as a reading of the text. -/
def within (h : s.length ≤ t.length) : Reading α s → Reading α t
  | .done value rest h' => .done value rest (Nat.lt_of_lt_of_le h' h)
  | .failed place => .failed place

/-- A reading of a shorter rest of a text, as a reading of the text. -/
def after (h : s.length < t.length) (reading : Reading α s) : Reading α t :=
  reading.within (Nat.le_of_lt h)

/-- A reading of the text after a character, as a reading of the text. -/
def afterChar {c : Char} (reading : Reading α s) : Reading α (c :: s) :=
  reading.within (Nat.le_succ _)

/-- The rest, read as a value. -/
def ofShorter (value : α) (rest : Shorter s) : Reading α s :=
  .done value rest.1 rest.2

/-- A value and a rest that were found in a rest of the text; a rest that is not shorter does not
count. -/
def ofResult (result : Option (α × List Char)) : Reading α s :=
  match result with
  | some (value, rest) => if h : rest.length < s.length then .done value rest h else .failed s
  | none => .failed s

/-- The reading, or nothing read in its stead. -/
def orElse (default : α) : Reading α s → Loose α s
  | .done value rest h => ⟨value, rest, Nat.le_of_lt h⟩
  | .failed _ => ⟨default, s, Nat.le_refl _⟩

end Reading

namespace Loose

/-- Nothing read. -/
def nothing (value : α) : Loose α s :=
  ⟨value, s, Nat.le_refl _⟩

/-- The rest, read as a value. -/
def ofShorter (value : α) (rest : Shorter s) : Loose α s :=
  ⟨value, rest.1, Nat.le_of_lt rest.2⟩

/-- The outcome with its value changed. -/
def map (f : α → β) (outcome : Loose α s) : Loose β s :=
  ⟨f outcome.value, outcome.rest, outcome.le⟩

/-- The outcome on a rest of a text, as one on the text. -/
def within (h : s.length ≤ t.length) (outcome : Loose α s) : Loose α t :=
  ⟨outcome.value, outcome.rest, Nat.le_trans outcome.le h⟩

/-- The outcome on a shorter rest of a text, as one on the text. -/
def later (h : s.length < t.length) (outcome : Loose α s) : Loose α t :=
  outcome.within (Nat.le_of_lt h)

/-- The outcome on a shorter rest of a text, as a reading of the text. -/
def after (h : s.length < t.length) (outcome : Loose α s) : Reading α t :=
  .done outcome.value outcome.rest (Nat.lt_of_le_of_lt outcome.le h)

end Loose

/-- The text without white space at the front. -/
def skipGaps (s : List Char) : List Char :=
  s.dropWhile isGap

theorem length_dropWhile_le (p : Char → Bool) (s : List Char) : (s.dropWhile p).length ≤ s.length :=
  (List.dropWhile_sublist p).length_le

/-- The first character of a text and those directly after it that are of some kind. -/
def run (p : Char → Bool) (c : Char) (cs : List Char) : Reading String (c :: cs) :=
  .done (String.ofList (c :: cs.takeWhile p)) (cs.dropWhile p)
    (Nat.lt_succ_of_le (length_dropWhile_le p cs))

theorem length_skipGaps_le (s : List Char) : (skipGaps s).length ≤ s.length :=
  length_dropWhile_le _ s

/-- What follows the word `word` at the front of a text. -/
def afterWord : (word s : List Char) → Option (List Char)
  | [], s => some s
  | c :: word, d :: s => if c = d then afterWord word s else none
  | _ :: _, [] => none

theorem afterWord_eq_some_iff {word s rest : List Char} :
    afterWord word s = some rest ↔ s = word ++ rest := by
  fun_induction afterWord word s <;> simp_all [eq_comm]

/-- What follows the word `word` at the front of a text. The empty word is never found, because a rule
has to read something. -/
def shorterAfter (word s : List Char) : Option (Shorter s) :=
  match h : afterWord word s with
  | some rest =>
    if hw : word = [] then none
    else some ⟨rest, by
      have := List.length_pos_iff.2 hw
      simp [afterWord_eq_some_iff.1 h]; omega⟩
  | none => none

/-- What follows the sign `word` and the white space after it. -/
def opening (word s : List Char) : Option (Shorter s) :=
  (shorterAfter word s).map fun rest =>
    ⟨skipGaps rest.1, Nat.lt_of_le_of_lt (length_skipGaps_le _) rest.2⟩

/-- What follows the sign `word` and the white space before it. -/
def closing (word s : List Char) : Option (Shorter s) :=
  (shorterAfter word (skipGaps s)).map (Shorter.within (length_skipGaps_le s))

/-- What follows the sign `word` and the white space around it. -/
def separator (word s : List Char) : Option (Shorter s) :=
  (opening word (skipGaps s)).map (Shorter.within (length_skipGaps_le s))

/-- What follows a word and the white space after it, of which there has to be some. -/
def spacedWord (word s : List Char) : Option (Shorter s) :=
  (opening word s).filter fun _ => ((afterWord word s).bind List.head?).any isGap

/-- The length of a text in UTF-8, in bytes. -/
def utf8Length : List Char → Nat
  | [] => 0
  | c :: cs => c.utf8Size + utf8Length cs

end Wiring.Text
