import Wiring.TypeExpr.Basic

/-!
# The source text of a type

A type is laid out as words with gaps between them. Every gap has a usual width, which gives the
canonical text `TypeExpr.source`; which gaps may be left empty is part of the layout, so the same
definition also says which texts spell a type.
-/

namespace Wiring

/-- A part of a type's layout. -/
inductive Piece where
  /-- Characters that every spelling has. -/
  | word (text : String)
  /-- A place where white space may stand, with what the canonical text has there. -/
  | gap (usual : String)
  /-- A place where white space has to stand; the canonical text has one space there. -/
  | blank
deriving DecidableEq

namespace Piece

/-- What the canonical text has for the piece. -/
def usual : Piece → String
  | .word text => text
  | .gap usual => usual
  | .blank => " "

/-- A comma or another sign between two parts, with gaps on both sides. -/
def sign (before text after : String) : List Piece :=
  [.gap before, .word text, .gap after]

/-- Something between two brackets. -/
def enclosed (opening closing : String) (inside : List Piece) : List Piece :=
  .word opening :: .gap "" :: inside ++ [.gap "", .word closing]

/-- The layouts one after the other, separated by commas. -/
def commaSeparated (items : List (List Piece)) : List Piece :=
  (sign "" "," " ").intercalate items

end Piece

namespace TypeExpr

/-- Whether parentheses are needed where the type stands below a postfix operator or in a
composition. A tuple of one unlabelled element is written as the element, so it needs them when the
element does. -/
def needsGrouping : TypeExpr → Bool
  | .composition ms => 1 < ms.length
  | .someOf _ | .anyOf _ | .attributed _ _ _ | .closure _ _ _ _ => true
  | .tuple [⟨none, t⟩] => needsGrouping t
  | _ => false

/-- A layout in parentheses where they are needed. -/
def grouped (needed : Bool) (pieces : List Piece) : List Piece :=
  if needed then Piece.enclosed "(" ")" pieces else pieces

/-- Generic arguments between angle brackets; none at all are written as nothing. -/
def genericPieces (generics : List (List Piece)) : List Piece :=
  if generics.isEmpty then [] else Piece.enclosed "<" ">" (Piece.commaSeparated generics)

/-- Attributes and an ownership specifier, each followed by white space. -/
def decorationPieces (attributes : List String) (specifier : Option String) : List Piece :=
  attributes.flatMap (fun a => [.word ("@" ++ a), .blank]) ++
    specifier.toList.flatMap (fun s => [.word s, .blank])

mutual

/-- The layout of a type. -/
def pieces : TypeExpr → List Piece
  | .simple n gs => .word n :: genericPieces (piecesAll gs)
  | .nested n p gs => pieces p ++ .word ("." ++ n) :: genericPieces (piecesAll gs)
  | .composition ms => (Piece.sign " " "&" " ").intercalate (groupedAll ms)
  | .optional t => grouped (needsGrouping t) (pieces t) ++ [.word "?"]
  | .forced t => grouped (needsGrouping t) (pieces t) ++ [.word "!"]
  | .someOf t => .word "some" :: .blank :: pieces t
  | .anyOf t => .word "any" :: .blank :: pieces t
  | .metatype t isType =>
    grouped (needsGrouping t) (pieces t) ++ [.word (if isType then ".Type" else ".Protocol")]
  | .attributed t specifier attributes => decorationPieces attributes specifier ++ pieces t
  | .array t => Piece.enclosed "[" "]" (pieces t)
  | .dictionary k v => Piece.enclosed "[" "]" (pieces k ++ Piece.sign "" ":" " " ++ pieces v)
  | .tuple [⟨none, t⟩] => pieces t
  | .tuple es => Piece.enclosed "(" ")" (Piece.commaSeparated (elementPieces es))
  | .closure as isAsync canThrow r =>
    Piece.enclosed "(" ")" (Piece.commaSeparated (piecesAll as)) ++
      (if isAsync then [.blank, .word "async"] else []) ++
      (if canThrow then [.blank, .word "throws"] else []) ++ Piece.sign " " "->" " " ++ pieces r
  | .unknown text => [.word text]

/-- The layouts of several types. -/
def piecesAll : List TypeExpr → List (List Piece)
  | [] => []
  | t :: ts => pieces t :: piecesAll ts

/-- The layouts of the members of a composition. -/
def groupedAll : List TypeExpr → List (List Piece)
  | [] => []
  | t :: ts => grouped (needsGrouping t) (pieces t) :: groupedAll ts

/-- The layouts of the elements of a tuple. -/
def elementPieces : List (Labelled TypeExpr) → List (List Piece)
  | [] => []
  | ⟨none, t⟩ :: es => pieces t :: elementPieces es
  | ⟨some label, t⟩ :: es => (.word label :: Piece.sign "" ":" " " ++ pieces t) :: elementPieces es

end

/-- **The canonical source text of a type.** -/
def source (t : TypeExpr) : String :=
  String.join (t.pieces.map Piece.usual)

end TypeExpr

end Wiring
