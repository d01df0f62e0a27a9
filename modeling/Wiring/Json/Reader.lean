import Wiring.Double
import Wiring.Json.Basic
import Wiring.Text.Reading

/-!
# Reading JSON

`Json.parse?` reads a whole text as one value. Arrays and objects may be nested 127 deep; a number has
to lie in the range of a double.
-/

namespace Wiring.Json

open Text

/-! ## Strings -/

/-- The value of a hexadecimal digit. -/
def hexDigit? (c : Char) : Option Nat :=
  if c.isDigit then some (c.toNat - '0'.toNat)
  else if 'a' ≤ c && c ≤ 'f' then some (c.toNat - 'a'.toNat + 10)
  else if 'A' ≤ c && c ≤ 'F' then some (c.toNat - 'A'.toNat + 10)
  else none

/-- The character that an escape of one letter stands for. -/
def shortEscape? (c : Char) : Option Nat :=
  match c with
  | '"' | '\\' | '/' => some c.toNat
  | 'b' => some 0x08
  | 'f' => some 0x0C
  | 'n' => some 0x0A
  | 'r' => some 0x0D
  | 't' => some 0x09
  | _ => none

/-- What follows an opening quote, as code points, and the rest; an escape by number may give half a
surrogate pair. -/
def stringUnits? : List Char → Option (List Nat × List Char)
  | '"' :: r => some ([], r)
  | '\\' :: 'u' :: a :: b :: c :: d :: r => do
    let code := (← [a, b, c, d].mapM hexDigit?).foldl (16 * · + ·) 0
    let (units, rest) ← stringUnits? r
    return (code :: units, rest)
  | '\\' :: c :: r => do
    let code ← shortEscape? c
    let (units, rest) ← stringUnits? r
    return (code :: units, rest)
  | c :: r => do
    if c.toNat < 0x20 then none
    let (units, rest) ← stringUnits? r
    return (c.toNat :: units, rest)
  | [] => none

/-- The characters of some code points, if every half of a surrogate pair has the other half beside
it. -/
def characters : List Nat → Option (List Char)
  | [] => some []
  | high :: low :: units =>
    if 0xD800 ≤ high && high ≤ 0xDBFF then
      if 0xDC00 ≤ low && low ≤ 0xDFFF then
        (characters units).map
          (Char.ofNat (0x10000 + (high - 0xD800) * 0x400 + (low - 0xDC00)) :: ·)
      else none
    else if 0xDC00 ≤ high && high ≤ 0xDFFF then none
    else (characters (low :: units)).map (Char.ofNat high :: ·)
  | [unit] => if 0xD800 ≤ unit && unit ≤ 0xDFFF then none else some [Char.ofNat unit]

/-- A string between quotes; none if it denotes no text. -/
def stringLiteral (s : List Char) : Reading (Option String) s :=
  match s with
  | '"' :: r => .ofResult ((stringUnits? r).map fun (units, rest) =>
      ((characters units).map String.ofList, rest))
  | s => .failed s

/-! ## Numbers -/

/-- The digits at the front of a text, and the rest. -/
def spanDigits (s : List Char) : List Char × List Char :=
  (s.takeWhile Char.isDigit, s.dropWhile Char.isDigit)

/-- The number that some digits spell. -/
def ofDigits (digits : List Char) : Nat :=
  digits.foldl (fun n c => 10 * n + (c.toNat - '0'.toNat)) 0

/-- The least number that does not fit into 64 bits. -/
def wordBound : Nat := 18446744073709551616

/-- A number of 64 bits with some digits appended for as long as it has room for them, and the digits
for which it has none. -/
def appendDigits : (n : Nat) → (digits : List Char) → Nat × List Char
  | n, [] => (n, [])
  | n, c :: cs =>
    let longer := 10 * n + (c.toNat - '0'.toNat)
    if longer < wordBound then appendDigits longer cs else (n, c :: cs)

/-- Whether a number is beyond the range of a double when its first digits are read as a number of 64
bits and scaled then. The digits before the point for which there is no room count by their number, those
after it do not count. -/
def isOutOfRange (whole part : List Char) (exponent : Int) : Bool :=
  let (leading, dropped) := appendDigits 0 whole
  let (significand, ignored) := appendDigits leading part
  Double.scaledIsTooLarge significand
    (exponent + dropped.length - (part.length - ignored.length : Nat))

/-- A fraction, and the rest; a point needs digits after it. -/
def fraction? (s : List Char) : Option (List Char × List Char) :=
  match s with
  | '.' :: r => if (spanDigits r).1.isEmpty then none else some (spanDigits r)
  | s => some ([], s)

/-- An exponent, and the rest; `e` needs digits after it. -/
def exponent? (s : List Char) : Option (Option Int × List Char) :=
  let digits (sign : Int) (s : List Char) : Option (Option Int × List Char) :=
    if (spanDigits s).1.isEmpty then none
    else some (some (sign * ofDigits (spanDigits s).1), (spanDigits s).2)
  match s with
  | e :: r =>
    if e = 'e' || e = 'E' then
      match r with
      | '-' :: r => digits (-1) r
      | '+' :: r => digits 1 r
      | r => digits 1 r
    else some (none, s)
  | s => some (none, s)

/-- A number without its sign, and the rest. -/
def unsigned? (negative : Bool) (s : List Char) : Option (Json × List Char) := do
  let (whole, r) := spanDigits s
  if whole.isEmpty || (1 < whole.length && whole.head? = some '0') then none
  let (part, r) ← fraction? r
  let (exponent, r) ← exponent? r
  let digits := ofDigits (whole ++ part)
  let literal := s.take (s.length - r.length)
  let value : Json :=
    if isOutOfRange whole part (exponent.getD 0) then .invalid
    else if part.isEmpty && exponent.isNone && !(negative && digits = 0) then
      .integer (if negative then -digits else digits)
    else .decimal (String.ofList (if negative then '-' :: literal else literal))
  return (value, r)

/-- A number. -/
def number (s : List Char) : Reading Json s :=
  match s with
  | '-' :: r => .ofResult (unsigned? true r)
  | s => .ofResult (unsigned? false s)

/-! ## Values -/

/-- How deep arrays and objects may be nested. -/
def maxNesting : Nat := 127

/-- The words that are values. -/
def wordValue? (s : List Char) : Option (Json × Shorter s) :=
  [("null", Json.null), ("true", .bool true), ("false", .bool false)].findSome? fun (word, value) =>
    (shorterAfter word.toList s).map (value, ·)

/-- An array or an object, if it may be nested that deep. -/
def bracketed (room : Nat) (value : Json) : Json :=
  if room = 0 then .invalid else value

/-- An entry before others; none if one of their keys denotes no text. -/
def consEntry (entry : Option (String × Json)) (entries : Option Fields) : Option Fields :=
  entry.bind fun entry => entries.map (entry :: ·)

mutual

/-- A value, inside which brackets may be nested `room` deep. -/
def value (room : Nat) (s : List Char) : Reading Json s :=
  match wordValue? s with
  | some (v, rest) => .ofShorter v rest
  | none =>
    match opening ['['] s with
    | some ⟨r, h⟩ => ((items (room - 1) r).map fun vs => bracketed room (.array vs)).after h
    | none =>
      match opening ['\x7b'] s with
      | some ⟨r, h⟩ =>
        ((entries (room - 1) r).map fun es => bracketed room (es.elim .invalid .object)).after h
      | none =>
        match stringLiteral s with
        | .done text rest h => .done (text.elim .invalid .string) rest h
        | .failed _ => number s
termination_by (s.length, 0)

/-- The items of an array, and the bracket that ends it. -/
def items (room : Nat) (s : List Char) : Reading (List Json) s :=
  match opening [']'] s with
  | some _ => furtherItems room s
  | none =>
    match value room s with
    | .failed place => .failed place
    | .done v r h => ((furtherItems room r).map (v :: ·)).after h
termination_by (s.length, 2)

/-- The items of an array after the first one, and the bracket that ends it. -/
def furtherItems (room : Nat) (s : List Char) : Reading (List Json) s :=
  match closing [']'] s with
  | some rest => .ofShorter [] rest
  | none =>
    match separator [','] s with
    | none => .failed s
    | some ⟨r, h⟩ =>
      match value room r with
      | .failed place => .failed place
      | .done v r' h' => (((furtherItems room r').map (v :: ·)).after h').after h
termination_by (s.length, 1)

/-- The entries of an object, and the bracket that ends it; none if a key denotes no text. -/
def entries (room : Nat) (s : List Char) : Reading (Option Fields) s :=
  match opening ['\x7d'] s with
  | some _ => furtherEntries room s
  | none =>
    match entry room s with
    | .failed place => .failed place
    | .done e r h =>
      ((furtherEntries room r).map (consEntry e)).after h
termination_by (s.length, 2)

/-- The entries of an object after the first one, and the bracket that ends it. -/
def furtherEntries (room : Nat) (s : List Char) : Reading (Option Fields) s :=
  match closing ['\x7d'] s with
  | some rest => .ofShorter (some []) rest
  | none =>
    match separator [','] s with
    | none => .failed s
    | some ⟨r, h⟩ =>
      match entry room r with
      | .failed place => .failed place
      | .done e r' h' =>
        (((furtherEntries room r').map (consEntry e)).after h').after h
termination_by (s.length, 1)

/-- A key, a colon and a value. -/
def entry (room : Nat) (s : List Char) : Reading (Option (String × Json)) s :=
  match stringLiteral s with
  | .failed place => .failed place
  | .done key r h =>
    match separator [':'] r with
    | none => .failed r
    | some ⟨r', h'⟩ =>
      (((value room r').map fun v => key.map (·, v)).after h').after h
termination_by (s.length, 0)

end

/-- **The value that a text spells**, with white space around it. -/
def parse? (text : String) : Option Json :=
  match value maxNesting (skipGaps text.toList) with
  | .failed _ => none
  | .done v rest _ => if (skipGaps rest).isEmpty then some v else none

end Wiring.Json
