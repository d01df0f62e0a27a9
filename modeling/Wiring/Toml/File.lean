import Wiring.Toml.Value

/-!
# Settings files

A settings file is a text in TOML: lines that give values to keys, and headers that say which table the
keys after them belong to. A key may be defined once only.

* `Toml.parse?`: the entries of a file.
-/

namespace Wiring.Toml

open Text

/-- A line of a file. -/
inductive Line where
  /-- The header of a table. -/
  | header (key : Key)
  /-- The header of one more table of several. -/
  | element (key : Key)
  /-- A key with its value. -/
  | definition (key : Key) (json : Json)

/-- A key between brackets, after the opening one. -/
def bracketedKey (closing : List Char) (s : List Char) : Reading Key s :=
  have hs := length_skipSpaces_le s
  match key (skipSpaces s) with
  | .failed place => .failed place
  | .done k r h =>
    have hr := length_skipSpaces_le r
    match shorterAfter closing (skipSpaces r) with
    | none => .failed r
    | some rest => .within hs (.after h (.within hr (.ofShorter k rest)))

/-- A line without its end. -/
def line (s : List Char) : Reading Line s :=
  match shorterAfter ['[', '['] s with
  | some ⟨r, h⟩ => ((bracketedKey [']', ']'] r).map .element).after h
  | none =>
    match shorterAfter ['['] s with
    | some ⟨r, h⟩ => ((bracketedKey [']'] r).map .header).after h
    | none => (definition maxNesting s).map fun (k, json) => .definition k json

/-- The lines of a text that say something. -/
def lines? (s : List Char) : Option (List Line) :=
  have := length_skipLines_le s
  if (skipLines s).isEmpty then some []
  else
    match line (skipLines s) with
    | .failed _ => none
    | .done first r _ =>
      match h : lineEnd r with
      | none => none
      | some rest =>
        have := length_le_of_lineEnd h
        (lines? rest).map (first :: ·)
termination_by s.length

/-- The items after some more lines, while `path` leads to the table that was opened last. -/
def addLines (path : List String) (items : Items) : List Line → Option Items
  | [] => some items
  | .header key :: lines => (openTable key items).bind (addLines key.parts · lines)
  | .element key :: lines => (addTable key items).bind (addLines key.parts · lines)
  | .definition key json :: lines => (define json key path items).bind (addLines path · lines)

/-- **The entries of a settings file**, or none if the text is no such file. A byte order mark at the
front does not count. -/
def parse? (text : String) : Option Json.Fields :=
  let cs :=
    match text.toList with
    | '\ufeff' :: cs => cs
    | cs => cs
  ((lines? cs).bind (addLines [] [])).map itemsToJson

end Wiring.Toml
