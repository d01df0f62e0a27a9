import Wiring.Toml.Moment
import Wiring.Toml.Number
import Wiring.Toml.Table

/-!
# Values in settings files

A value is a string, a number, a truth value, a moment, an array, or a table between braces, to which
nothing can be added later.
-/

namespace Wiring.Toml

open Text

/-! ## Words -/

/-- The characters of numbers, truth values and moments. -/
def isWordChar (c : Char) : Bool :=
  c.isAlphanum || c = '_' || c = '+' || c = '-' || c = '.' || c = ':'

/-- The word at the front of a text, and the rest. A date may be followed by a space and a time. -/
def spanWord (s : List Char) : List Char × List Char :=
  let word := s.takeWhile isWordChar
  let rest := s.dropWhile isWordChar
  match rest with
  | ' ' :: r =>
    if isDate word && r.head?.any Char.isDigit then
      (word ++ ' ' :: r.takeWhile isWordChar, r.dropWhile isWordChar)
    else (word, rest)
  | _ => (word, rest)

/-- The value of a word. Moments have no JSON value. -/
def word? (cs : List Char) : Option Json :=
  if cs = ['t', 'r', 'u', 'e'] then some (.bool true)
  else if cs = ['f', 'a', 'l', 's', 'e'] then some (.bool false)
  else if isMoment cs then some .invalid
  else number? cs

/-- A number, a truth value or a moment. -/
def word (s : List Char) : Reading Json s :=
  .ofResult ((word? (spanWord s).1).map (·, (spanWord s).2))

/-! ## Arrays and tables -/

/-- The text after an opening bracket, if brackets may be nested once more. -/
def inside (room : Nat) (bracket : Char) (s : List Char) : Option (Shorter s) :=
  if room = 0 then none else shorterAfter [bracket] s

/-- The table with some keys and their values. -/
def tableOf? (entries : List (Key × Json)) : Option Json :=
  (entries.foldlM (fun items (key, json) => define json key [] items) []).map fun items =>
    .object (itemsToJson items)

mutual

/-- A value, in which brackets may be nested `room` deep. -/
def value (room : Nat) (s : List Char) : Reading Json s :=
  match string s with
  | .done text rest h => .done (.string text) rest h
  | .failed _ =>
    match inside room '[' s with
    | some ⟨r, h⟩ => ((items (room - 1) r).map .array).after h
    | none =>
      match inside room '\x7b' s with
      | some ⟨r, h⟩ => ((entries (room - 1) r).choose tableOf?).after h
      | none => word s
termination_by (s.length, 0)

/-- The items of an array, and the bracket that ends it. A comma may stand after the last item. -/
def items (room : Nat) (s : List Char) : Reading (List Json) s :=
  have hs := length_skipLines_le s
  match shorterAfter [']'] (skipLines s) with
  | some rest => .within hs (.ofShorter [] rest)
  | none =>
    match value room (skipLines s) with
    | .failed place => .failed place
    | .done v r h =>
      have hr := length_skipLines_le r
      match shorterAfter [','] (skipLines r) with
      | some ⟨r', h'⟩ =>
        .within hs (.after h (.within hr (.after h' ((items room r').map (v :: ·)))))
      | none =>
        match shorterAfter [']'] (skipLines r) with
        | some rest => .within hs (.after h (.within hr (.ofShorter [v] rest)))
        | none => .failed (skipLines r)
termination_by (s.length, 2)
decreasing_by all_goals simp [Prod.lex_def]; omega

/-- The entries of a table, and the brace that ends it. A comma may stand after the last entry. -/
def entries (room : Nat) (s : List Char) : Reading (List (Key × Json)) s :=
  have hs := length_skipLines_le s
  match shorterAfter ['\x7d'] (skipLines s) with
  | some rest => .within hs (.ofShorter [] rest)
  | none =>
    match definition room (skipLines s) with
    | .failed place => .failed place
    | .done e r h =>
      have hr := length_skipLines_le r
      match shorterAfter [','] (skipLines r) with
      | some ⟨r', h'⟩ =>
        .within hs (.after h (.within hr (.after h' ((entries room r').map (e :: ·)))))
      | none =>
        match shorterAfter ['\x7d'] (skipLines r) with
        | some rest => .within hs (.after h (.within hr (.ofShorter [e] rest)))
        | none => .failed (skipLines r)
termination_by (s.length, 2)
decreasing_by all_goals simp [Prod.lex_def]; omega

/-- A key, an equals sign and a value, in which brackets may be nested `room` deep. -/
def definition (room : Nat) (s : List Char) : Reading (Key × Json) s :=
  match key s with
  | .failed place => .failed place
  | .done k r h =>
    have hr := length_skipSpaces_le r
    match shorterAfter ['='] (skipSpaces r) with
    | none => .failed r
    | some ⟨r', h'⟩ =>
      have hr' := length_skipSpaces_le r'
      .after h (.within hr (.after h' (.within hr' ((value room (skipSpaces r')).map (k, ·)))))
termination_by (s.length, 1)

end

end Wiring.Toml
