import Wiring.Text.Shown

/-!
# Quoted text

A string between double quotes, in which a quote and a backslash are written with a backslash before
them and characters that are not shown by name or by number, so that the text ends at the first quote
that no backslash precedes.
-/

namespace Wiring.Text

/-- How a character is written between double quotes. -/
def quotedChar (c : Char) : List Char :=
  match c with
  | '"' => ['\\', '"']
  | '\\' => ['\\', '\\']
  | '\n' => ['\\', 'n']
  | '\r' => ['\\', 'r']
  | '\t' => ['\\', 't']
  | '\x00' => ['\\', '0']
  | c =>
    if isShown c then [c] else ['\\', 'u', '\x7b'] ++ Nat.toDigits 16 c.toNat ++ ['\x7d']

/-- The text between double quotes. -/
def quoted (text : String) : String :=
  "\"" ++ String.ofList (text.toList.flatMap quotedChar) ++ "\""

example : quoted "a\"b\\c\nd\x1fe\u0301" = "\"a\\\"b\\\\c\\nd\\u\x7b1f\x7de\\u\x7b301\x7d\"" := by
  decide +kernel

end Wiring.Text
