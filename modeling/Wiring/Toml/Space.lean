import Wiring.Text.Reading

/-!
# White space in settings files

Lines may be empty, and a line may end in a comment, which starts at `#`.

* `Toml.lineEnd`: what follows the line that the front of a text lies on.
* `Toml.skipLines`: a text without the lines at its front that say nothing.
-/

namespace Wiring.Toml

open Text

/-- White space inside a line. -/
def isSpace (c : Char) : Bool :=
  c = ' ' || c = '\t'

/-- Characters that stand nowhere, not even in a comment. -/
def isForbidden (c : Char) : Bool :=
  (c.toNat < 0x20 && c ≠ '\t') || c.toNat = 0x7F

/-- The text without white space of the line at the front. -/
def skipSpaces (s : List Char) : List Char :=
  s.dropWhile isSpace

theorem length_skipSpaces_le (s : List Char) : (skipSpaces s).length ≤ s.length :=
  length_dropWhile_le _ s

/-- What follows a line feed, which may have one carriage return before it. -/
def afterLineEnd (s : List Char) : Option (Shorter s) :=
  match shorterAfter ['\n'] s with
  | some rest => some rest
  | none => shorterAfter ['\r', '\n'] s

/-- The text without a comment at the front. -/
def skipComment (s : List Char) : List Char :=
  if s.head? = some '#' then s.dropWhile (!isForbidden ·) else s

theorem length_skipComment_le (s : List Char) : (skipComment s).length ≤ s.length := by
  unfold skipComment
  split
  · exact length_dropWhile_le _ s
  · exact Nat.le_refl _

/-- The end of a line: white space, a comment and then a line feed or the end of the text. -/
def lineEnd (s : List Char) : Option (List Char) :=
  let r := skipComment (skipSpaces s)
  if r.isEmpty then some [] else (afterLineEnd r).map (·.1)

theorem length_le_of_lineEnd {s rest : List Char} (h : lineEnd s = some rest) :
    rest.length ≤ s.length := by
  have hr : (skipComment (skipSpaces s)).length ≤ s.length :=
    Nat.le_trans (length_skipComment_le _) (length_skipSpaces_le s)
  simp only [lineEnd] at h
  split at h
  · cases h
    exact Nat.zero_le _
  · obtain ⟨r, _, rfl⟩ := Option.map_eq_some_iff.1 h
    exact Nat.le_of_lt (Nat.lt_of_lt_of_le r.2 hr)

/-- The text without white space, line ends and comments at the front. -/
def skipLines (s : List Char) : List Char :=
  match lineEnd s with
  | none => skipSpaces s
  | some rest => if rest.length < s.length then skipLines rest else rest
termination_by s.length

theorem length_skipLines_le (s : List Char) : (skipLines s).length ≤ s.length := by
  fun_induction skipLines s with
  | case1 s h => exact length_skipSpaces_le s
  | case2 s rest h hlt ih => omega
  | case3 s rest h hlt => exact length_le_of_lineEnd h

end Wiring.Toml
