import Wiring.Toml.Quoted

/-!
# Keys in settings files

A key has one or more parts, separated by points. The last part is a name in a table; the parts before it
lead to that table.
-/

namespace Wiring.Toml

open Text

/-- How deep arrays and tables may be nested in a value, and how many parts a key may have. -/
def maxNesting : Nat := 80

/-- A key. -/
structure Key where
  /-- The names of the tables that the key passes through. -/
  tables : List String
  /-- The name in the last of these tables. -/
  name : String

/-- All parts of a key. -/
def Key.parts (key : Key) : List String :=
  key.tables ++ [key.name]

/-- The characters of parts without quotes. -/
def isKeyChar (c : Char) : Bool :=
  c.isAlphanum || c = '_' || c = '-'

/-- One part of a key, with or without quotes. -/
def keyPart (s : List Char) : Reading String s :=
  match s with
  | c :: cs =>
    if isKeyChar c then run isKeyChar c cs else shortString (c :: cs)
  | [] => .failed []

/-- A key of any number of parts. -/
def longKey (s : List Char) : Reading Key s :=
  match keyPart s with
  | .failed place => .failed place
  | .done part r h =>
    have hr := length_skipSpaces_le r
    match shorterAfter ['.'] (skipSpaces r) with
    | none => .done ⟨[], part⟩ r h
    | some ⟨r', h'⟩ =>
      have hr' := length_skipSpaces_le r'
      .after h (.within hr (.after h' (.within hr' ((longKey (skipSpaces r')).map fun key =>
        ⟨part :: key.tables, key.name⟩))))
termination_by s.length

/-- A key. -/
def key (s : List Char) : Reading Key s :=
  (longKey s).choose fun key => if key.parts.length ≤ maxNesting then some key else none

end Wiring.Toml
