import Wiring.Json.Reader
import Wiring.Toml.Space

/-!
# Strings in settings files

A string stands between quotes, single or double ones, of which there are one on each side or three. Three
quotes hold a text of several lines. Between double quotes a backslash starts an escape.

* `Toml.Quotes.raw?`: the text between quotes as it is written.
* `Toml.unescape?`: the text that a text with escapes stands for.
-/

namespace Wiring.Toml

open Text

/-- The quotes around a string. -/
structure Quotes where
  /-- The sign that the quotes are made of. -/
  sign : Char
  /-- Whether the text may have several lines. -/
  long : Bool

namespace Quotes

/-- All quotes; long ones start like short ones and come first. -/
def all : List Quotes :=
  [⟨'"', true⟩, ⟨'\'', true⟩, ⟨'"', false⟩, ⟨'\'', false⟩]

/-- The quotes that start a string, and those that end it. -/
def delimiter (quotes : Quotes) : List Char :=
  if quotes.long then [quotes.sign, quotes.sign, quotes.sign] else [quotes.sign]

/-- Whether the text between the quotes may have escapes. -/
def hasEscapes (quotes : Quotes) : Bool :=
  quotes.sign = '"'

/-- Whether a character may stand between the quotes when `r` follows. -/
def allows (quotes : Quotes) (c : Char) (r : List Char) : Bool :=
  !isForbidden c || (quotes.long && (c = '\n' || (c = '\r' && r.head? = some '\n')))

/-- The text up to the closing quotes, as it is written, and the rest. One or two quotes that follow
three closing ones belong to the text. -/
def raw? (quotes : Quotes) : List Char → Option (List Char × List Char)
  | [] => none
  | c :: r =>
    match afterWord quotes.delimiter (c :: r) with
    | some rest =>
      let more := if quotes.long then (rest.takeWhile (· = quotes.sign)).take 2 else []
      some (more, rest.drop more.length)
    | none =>
      match c, r with
      | '\\', d :: r' =>
        if quotes.hasEscapes && (d = '"' || d = '\\') then
          (raw? quotes r').map fun (text, rest) => (c :: d :: text, rest)
        else (raw? quotes (d :: r')).map fun (text, rest) => (c :: text, rest)
      | c, r =>
        if quotes.allows c r then (raw? quotes r).map fun (text, rest) => (c :: text, rest)
        else none

end Quotes

/-! ## Escapes -/

/-- The character of a number, if there is one. -/
def character? (digits : List Char) : Option Char :=
  match digits.mapM Json.hexDigit? with
  | none => none
  | some digits =>
    let code := digits.foldl (16 * · + ·) 0
    if code < 0xD800 || (0xDFFF < code && code < 0x110000) then some (Char.ofNat code) else none

/-- The character that an escape of one letter stands for. -/
def shortEscape? (c : Char) : Option Char :=
  match c with
  | '"' | '\\' => some c
  | 'b' => some '\x08'
  | 't' => some '\t'
  | 'n' => some '\n'
  | 'f' => some '\x0c'
  | 'r' => some '\r'
  | 'e' => some '\x1b'
  | _ => none

/-- The text that a text with escapes stands for. A backslash at the end of a line joins that line with the
next text: white space and line ends up to there do not count. While `joining` is true, such a place is being
passed. -/
def unescape? (joining : Bool) : List Char → Option (List Char)
  | [] => some []
  | '\\' :: 'x' :: a :: b :: r => do
    let char ← character? [a, b]
    return char :: (← unescape? false r)
  | '\\' :: 'u' :: a :: b :: c :: d :: r => do
    let char ← character? [a, b, c, d]
    return char :: (← unescape? false r)
  | '\\' :: 'U' :: a :: b :: c :: d :: e :: f :: g :: h :: r => do
    let char ← character? [a, b, c, d, e, f, g, h]
    return char :: (← unescape? false r)
  | '\\' :: c :: r =>
    match shortEscape? c with
    | some char => (unescape? false r).map (char :: ·)
    | none =>
      if (afterLineEnd (skipSpaces (c :: r))).isSome then unescape? true (c :: r) else none
  | c :: r =>
    if joining && (isSpace c || c = '\n' || c = '\r') then unescape? true r
    else if c = '\\' then none
    else (unescape? false r).map (c :: ·)

/-! ## Strings -/

/-- The text that stands between quotes for `raw`. A line end directly after long quotes does not
count. -/
def Quotes.text? (quotes : Quotes) (raw : List Char) : Option (List Char) :=
  let raw :=
    if quotes.long then
      match afterLineEnd raw with
      | some rest => rest.1
      | none => raw
    else raw
  if quotes.hasEscapes then unescape? false raw else some raw

/-- A string between the first of some quotes that starts the text. -/
def stringBetween (choices : List Quotes) (s : List Char) : Reading String s :=
  .ofResult do
    let (quotes, r) ← choices.findSome? fun quotes =>
      (afterWord quotes.delimiter s).map (quotes, ·)
    let (raw, rest) ← quotes.raw? r
    let text ← quotes.text? raw
    return (String.ofList text, rest)

/-- A string. -/
def string (s : List Char) : Reading String s :=
  stringBetween Quotes.all s

/-- A string on one line. -/
def shortString (s : List Char) : Reading String s :=
  stringBetween (Quotes.all.filter (!·.long)) s

end Wiring.Toml
