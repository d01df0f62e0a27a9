/-!
# White space

Two classes of white space occur. Between the words of a type only four characters may stand
(`isGap`); where a text is trimmed, all of Unicode's white space goes (`isBlank`). The first class
is part of the second, not the other way round.

* `trim`: a text without white space at its ends.
-/

namespace Wiring.Text

/-- The code points with the Unicode property `White_Space`, as ranges with both ends included. -/
def blankRanges : List (Nat × Nat) :=
  [(0x09, 0x0D), (0x20, 0x20), (0x85, 0x85), (0xA0, 0xA0), (0x1680, 0x1680), (0x2000, 0x200A),
    (0x2028, 0x2029), (0x202F, 0x202F), (0x205F, 0x205F), (0x3000, 0x3000)]

/-- Whether a code point lies in one of the ranges, which ascend: none after one that starts beyond the
code point is looked at. -/
def inRanges : (ranges : List (Nat × Nat)) → (code : Nat) → Bool
  | [], _ => false
  | (first, last) :: ranges, code => first ≤ code && (code ≤ last || inRanges ranges code)

/-- Whether the ranges ascend, and none of them begins where another one ends. -/
def areAscending : (ranges : List (Nat × Nat)) → Bool
  | [] => true
  | [(first, last)] => first ≤ last
  | (first, last) :: (next, final) :: ranges =>
    first ≤ last && last + 1 < next && areAscending ((next, final) :: ranges)

/-- How many code points lie in the ranges. -/
def rangesSize (ranges : List (Nat × Nat)) : Nat :=
  ranges.foldl (fun size (first, last) => size + (last + 1 - first)) 0

example : areAscending blankRanges = true ∧ rangesSize blankRanges = 25 := by decide

/-- White space in the sense of Unicode. -/
def isBlank (c : Char) : Bool :=
  inRanges blankRanges c.toNat

/-- White space between the words of a type: space, tab, carriage return and line feed. -/
def isGap (c : Char) : Bool :=
  c = ' ' || c = '\t' || c = '\r' || c = '\n'

/-- A character between the words of a type is white space of Unicode too. -/
theorem isBlank_of_isGap {c : Char} (h : isGap c = true) : isBlank c = true := by
  simp only [isGap, Bool.or_eq_true, decide_eq_true_eq] at h
  rcases h with ((rfl | rfl) | rfl) | rfl <;> decide

/-- The characters without white space at the front. -/
def trimStart (cs : List Char) : List Char :=
  cs.dropWhile isBlank

/-- The characters without white space at either end. -/
def trimChars (cs : List Char) : List Char :=
  (trimStart (trimStart cs).reverse).reverse

/-- The text without white space at either end. -/
def trim (text : String) : String :=
  String.ofList (trimChars text.toList)

end Wiring.Text
