/-!
# Lines of code

Code is a sequence of lines; `indent` moves it to the right. Empty lines stay empty.
-/

namespace Wiring.Text

/-- The lines of a text. A line ends with a line feed, which may have one carriage return before it; the
last line may end without. -/
def lines : List Char → List (List Char)
  | [] => []
  | '\n' :: cs => [] :: lines cs
  | '\r' :: '\n' :: cs => [] :: lines cs
  | c :: cs =>
    match lines cs with
    | [] => [[c]]
    | line :: rest => (c :: line) :: rest

/-- One step of indentation. -/
def indentation : List Char :=
  [' ', ' ', ' ', ' ']

/-- A line moved to the right, and its line feed. -/
def indentLine (levels : Nat) (line : List Char) : List Char :=
  (if line.isEmpty then [] else (List.replicate levels indentation).flatten ++ line) ++ ['\n']

/-- The code moved to the right. -/
def indent (levels : Nat) (code : String) : String :=
  String.ofList ((lines code.toList).flatMap (indentLine levels))

example : indent 1 "a\n\nb\r\nc" = "    a\n\n    b\n    c\n" := by decide

end Wiring.Text
