import Wiring.Json.Reader

/-!
# Dates and times in settings files

A moment is a date, a time, or a date with a time, which may be followed by its distance from universal
time. Seconds may be left out.
-/

namespace Wiring.Toml

open Text

/-- A number of `n` digits from `low` to `high`, and the rest. -/
def digitsBetween? (n low high : Nat) (cs : List Char) : Option (Nat × List Char) :=
  let value := Json.ofDigits (cs.take n)
  if (cs.takeWhile Char.isDigit).length = n && low ≤ value && value ≤ high then
    some (value, cs.drop n)
  else none

/-- How many days a month has. -/
def daysIn (year month : Nat) : Nat :=
  if month = 2 then
    if year % 4 = 0 && (year % 100 ≠ 0 || year % 400 = 0) then 29 else 28
  else if month = 4 || month = 6 || month = 9 || month = 11 then 30
  else 31

/-- What follows a date. -/
def afterDate? (cs : List Char) : Option (List Char) := do
  let (year, cs) ← digitsBetween? 4 0 9999 cs
  let cs ← afterWord ['-'] cs
  let (month, cs) ← digitsBetween? 2 1 12 cs
  let cs ← afterWord ['-'] cs
  let (_, cs) ← digitsBetween? 2 1 (daysIn year month) cs
  return cs

/-- What follows the seconds of a time, of which there may be a fraction. A minute may have a leap
second. -/
def afterSeconds? (cs : List Char) : Option (List Char) := do
  let (_, cs) ← digitsBetween? 2 0 60 cs
  match cs with
  | '.' :: cs => if (cs.takeWhile Char.isDigit).isEmpty then none else some (cs.dropWhile Char.isDigit)
  | cs => some cs

/-- What follows hours and minutes. -/
def afterMinutes? (cs : List Char) : Option (List Char) := do
  let (_, cs) ← digitsBetween? 2 0 23 cs
  let cs ← afterWord [':'] cs
  let (_, cs) ← digitsBetween? 2 0 59 cs
  return cs

/-- What follows a time. -/
def afterTime? (cs : List Char) : Option (List Char) := do
  let cs ← afterMinutes? cs
  match cs with
  | ':' :: cs => afterSeconds? cs
  | cs => some cs

/-- Whether a text is a distance from universal time, or empty. -/
def isOffset (cs : List Char) : Bool :=
  match cs with
  | [] | ['Z'] | ['z'] => true
  | '+' :: cs | '-' :: cs => afterMinutes? cs = some []
  | _ => false

/-- Whether a text is a date. -/
def isDate (cs : List Char) : Bool :=
  afterDate? cs = some []

/-- Whether a text is a moment. -/
def isMoment (cs : List Char) : Bool :=
  match afterDate? cs with
  | none => afterTime? cs = some []
  | some [] => true
  | some (separator :: cs) =>
    (separator = 'T' || separator = 't' || separator = ' ') && (afterTime? cs).any isOffset

example : isMoment "1979-05-27".toList = true ∧ isMoment "2024-02-29 07:32Z".toList = true ∧
    isMoment "23:59:60.5".toList = true ∧ isMoment "2023-02-29".toList = false ∧
    isMoment "07:32:00Z".toList = false := by
  decide +kernel

end Wiring.Toml
