import Wiring.Json.Reader

/-!
# Numbers in settings files

Whole numbers have 64 bits and are written in base 10, 16, 8 or 2; other numbers are doubles. Single
underscores may stand between digits.
-/

namespace Wiring.Toml

/-- Digits with single underscores between them, of which there has to be one. -/
def digitsOf? (isDigit : Char → Bool) : List Char → Option (List Char)
  | [c] => if isDigit c then some [c] else none
  | c :: '_' :: cs => if isDigit c then (digitsOf? isDigit cs).map (c :: ·) else none
  | c :: cs => if isDigit c then (digitsOf? isDigit cs).map (c :: ·) else none
  | [] => none

/-- Digits that do not start with a superfluous zero. -/
def decimalDigits? (cs : List Char) : Option (List Char) :=
  (digitsOf? Char.isDigit cs).filter fun ds => ds.length = 1 || ds.head? ≠ some '0'

/-- A sign and the text after it. -/
def sign (cs : List Char) : Bool × List Char :=
  match cs with
  | '+' :: cs => (false, cs)
  | '-' :: cs => (true, cs)
  | cs => (false, cs)

/-- Whole numbers have 64 bits, one of them for the sign. -/
def integer? (n : Int) : Option Json :=
  if -9223372036854775808 ≤ n && n < 9223372036854775808 then some (.integer n) else none

/-- A number in base 16, 8 or 2. -/
def basedInteger? (base : Nat) (cs : List Char) : Option Json := do
  let isDigit (c : Char) : Bool := (Json.hexDigit? c).any (· < base)
  let digits ← (← digitsOf? isDigit cs).mapM Json.hexDigit?
  let n : Nat := digits.foldl (base * · + ·) 0
  integer? n

/-- A number with a fraction or an exponent. -/
def float? (cs : List Char) : Option Json := do
  let (_, unsigned) := sign cs
  let whole := unsigned.takeWhile fun c => c.isDigit || c = '_'
  let rest := unsigned.drop whole.length
  let wholeDigits ← decimalDigits? whole
  let (part, rest) ←
    match rest with
    | '.' :: rest =>
      let part := rest.takeWhile fun c => c.isDigit || c = '_'
      (digitsOf? Char.isDigit part).map (·, rest.drop part.length)
    | rest => some ([], rest)
  let exponent ←
    match rest with
    | [] => if part.isEmpty then none else some 0
    | e :: rest =>
      if e = 'e' || e = 'E' then
        let (negative, rest) := sign rest
        (digitsOf? Char.isDigit rest).map fun ds =>
          if negative then -(Json.ofDigits ds : Int) else (Json.ofDigits ds : Int)
      else none
  if Double.isTooLarge (Json.ofDigits (wholeDigits ++ part)) (exponent - part.length) then none
  else some (.decimal (String.ofList (cs.filter (· ≠ '_'))))

/-- A number. Infinity and what is no number have no JSON value of their own. -/
def number? (cs : List Char) : Option Json :=
  match cs with
  | '0' :: 'x' :: cs => basedInteger? 16 cs
  | '0' :: 'o' :: cs => basedInteger? 8 cs
  | '0' :: 'b' :: cs => basedInteger? 2 cs
  | cs =>
    let (negative, unsigned) := sign cs
    if unsigned = ['i', 'n', 'f'] || unsigned = ['n', 'a', 'n'] then some .null
    else
      match decimalDigits? unsigned with
      | some ds =>
        let n : Int := Json.ofDigits ds
        integer? (if negative then -n else n)
      | none => float? cs

end Wiring.Toml
