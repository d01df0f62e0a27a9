import Wiring.Text.Alphanumeric
import Wiring.Text.Reading
import Wiring.TypeExpr.Order

/-!
# Reading types

The grammar of types, from the loosest binding to the tightest:

1. attributes and an ownership specifier (`@Sendable`, `inout`), rule `typeExpr`;
2. compositions (`A & B`), rule `composition`;
3. `some` and `any`, which take a whole composition, rule `constrained`;
4. postfix operators (`?`, `!`, `.Type`, `.Protocol`), rule `suffixed`;
5. tuples, groups, closures, collections and dotted names, rule `primary`.

Alternatives are tried in the order in which they are written down, and options and repetitions swallow
the failure of what they try. A rule calls another one on a shorter text, or a tighter rule on the same
text.

* `TypeExpr.parse`: reads a whole text, or says where reading stopped.
* `TypeExpr.read`: reads a whole text and keeps what the grammar cannot read as unknown.
-/

namespace Wiring

open Text

/-- Why a text is not a type. -/
inductive SyntaxError where
  /-- There is nothing but white space. -/
  | empty
  /-- Nothing in the grammar continues the text `text` at the byte `offset`. -/
  | unexpected (text : String) (offset : Nat)
  /-- The text `text` ends in the middle of a type, and more of it is needed to tell. A text that is there
  as a whole is never answered so. -/
  | incomplete (text : String)
deriving DecidableEq

/-- The wording of an error. -/
def SyntaxError.message : SyntaxError → String
  | .empty => "Type text is empty"
  | .unexpected text offset =>
    "Invalid type `" ++ text ++ "`: unexpected input at offset " ++ toString offset
  | .incomplete text => "Incomplete type `" ++ text ++ "`"

namespace TypeExpr.Grammar

/-! ## Words -/

/-- The letters and digits of identifiers, and the underscore; identifiers are ASCII. -/
def isIdentifierChar (c : Char) : Bool :=
  c.isAlphanum || c = '_'

/-- An identifier does not start with a digit. -/
def isIdentifierStart (c : Char) : Bool :=
  c.isAlpha || c = '_'

/-- An identifier. -/
def identifier (s : List Char) : Reading String s :=
  match s with
  | c :: cs =>
    if isIdentifierStart c then run isIdentifierChar c cs else .failed (c :: cs)
  | [] => .failed []

/-- A word that no letter, digit or underscore of any script follows. -/
def keyword (word s : List Char) : Option (Shorter s) :=
  (shorterAfter word s).filter fun rest =>
    !rest.1.head?.any fun c => isAlphanumeric c || c = '_'

/-- An attribute: `@escaping`. -/
def attributeName (s : List Char) : Reading String s :=
  match s with
  | '@' :: r => (identifier r).afterChar
  | s => .failed s

/-- Attributes, each followed by white space or not. -/
def attributes (s : List Char) : Loose (List String) s :=
  match attributeName s with
  | .failed _ => .nothing []
  | .done a r h =>
    have := length_skipGaps_le r
    .later h (.within this ((attributes (skipGaps r)).map (a :: ·)))
termination_by s.length

/-- The words that say who owns an argument. -/
def specifiers : List String :=
  ["inout", "borrowing", "consuming", "__owned", "__shared"]

/-- An ownership specifier with white space after it, or nothing. -/
def specifier (s : List Char) : Loose (Option String) s :=
  let found := specifiers.findSome? fun word =>
    (spacedWord word.toList s).map fun rest => (word, rest)
  match found with
  | some (word, rest) => .ofShorter (some word) rest
  | none => .nothing none

/-- `some` or `any` with white space after it, as what it makes of the constraint. -/
def constraint (s : List Char) : Option ((TypeExpr → TypeExpr) × Shorter s) :=
  match spacedWord "some".toList s with
  | some rest => some (.someOf, rest)
  | none => (spacedWord "any".toList s).map fun rest => (.anyOf, rest)

/-- A postfix operator, as what it makes of its operand. -/
def suffix (s : List Char) : Option ((TypeExpr → TypeExpr) × Shorter s) :=
  match s with
  | '?' :: r => some (.optional, .tail r)
  | '!' :: r => some (.forced, .tail r)
  | '.' :: r =>
    match keyword "Type".toList r with
    | some rest => some ((.metatype · true), rest.afterChar)
    | none => (keyword "Protocol".toList r).map fun rest => ((.metatype · false), rest.afterChar)
  | _ => none

/-- The postfix operators after the type `t`. -/
def suffixes (t : TypeExpr) (s : List Char) : Loose TypeExpr s :=
  match suffix s with
  | none => .nothing t
  | some (wrap, ⟨r, h⟩) => (suffixes (wrap t) r).later h
termination_by s.length

/-- The name of a member type after a point. `.Type` and `.Protocol` are left to the postfix
operators. -/
def memberName (s : List Char) : Reading String s :=
  match s with
  | '.' :: r =>
    match identifier r with
    | .done name rest h =>
      if name = "Type" || name = "Protocol" then .failed r
      else .afterChar (.done name rest h)
    | .failed place => .failed place
  | s => .failed s

/-- A word of a closure's signature with white space before it, or nothing. -/
def effect (word s : List Char) : Loose Bool s :=
  match keyword word (skipGaps s) with
  | some rest => .within (length_skipGaps_le s) (.ofShorter true rest)
  | none => .nothing false

/-- The label of a tuple element, its colon and the white space after it. -/
def elementLabel (s : List Char) : Option (String × Shorter s) :=
  match identifier s with
  | .done label r h =>
    (separator [':'] r).map fun rest => (label, rest.after h)
  | .failed _ => none

/-! ## Types -/

/-- A type with its attributes and its specifier; without any of them it is the type itself. -/
def decorated (attributes : List String) (specifier : Option String) (t : TypeExpr) : TypeExpr :=
  if attributes.isEmpty && specifier.isNone then t else .attributed t specifier attributes

/-- One member is no composition. -/
def composed (t : TypeExpr) (more : List TypeExpr) : TypeExpr :=
  if more.isEmpty then t else compose (t :: more)

/-- What parentheses hold: one element without a label is a group, all else a tuple. -/
def group : List (Labelled TypeExpr) → TypeExpr
  | [⟨none, t⟩] => t
  | es => .tuple es

mutual

/-- A type with attributes and a specifier before it. -/
def typeExpr (s : List Char) : Reading TypeExpr s :=
  match attributes s with
  | ⟨as, r, h⟩ =>
    match specifier r with
    | ⟨spec, r', h'⟩ => ((composition r').map (decorated as spec)).within h' |>.within h
termination_by (s.length, 5)
decreasing_by simp [Prod.lex_def]; omega

/-- Types joined by `&`. -/
def composition (s : List Char) : Reading TypeExpr s :=
  match constrained s with
  | .failed place => .failed place
  | .done t r h =>
    ((furtherMembers r).map (composed t)).after h
termination_by (s.length, 4)

/-- The members of a composition after the first one. -/
def furtherMembers (s : List Char) : Loose (List TypeExpr) s :=
  match separator ['&'] s with
  | none => .nothing []
  | some ⟨r, h⟩ =>
    match constrained r with
    | .failed _ => .nothing []
    | .done t r' h' =>
      (((furtherMembers r').map (t :: ·)).later h').later h
termination_by (s.length, 0)

/-- `some` or `any` before a composition, or a type with postfix operators. -/
def constrained (s : List Char) : Reading TypeExpr s :=
  match constraint s with
  | none => suffixed s
  | some (wrap, ⟨r, h⟩) =>
    match composition r with
    | .done t rest h' => .after h (.done (wrap t) rest h')
    | .failed _ => suffixed s
termination_by (s.length, 3)

/-- A type with postfix operators after it. -/
def suffixed (s : List Char) : Reading TypeExpr s :=
  match primary s with
  | .failed place => .failed place
  | .done t r h =>
    (suffixes t r).after h
termination_by (s.length, 2)

/-- A type that needs no parentheses anywhere. The failure that counts is the last alternative's. -/
def primary (s : List Char) : Reading TypeExpr s :=
  match parenthesized s with
  | .done t rest h => .done t rest h
  | .failed _ =>
    match collection s with
    | .done t rest h => .done t rest h
    | .failed _ => nominal s
termination_by (s.length, 1)

/-- A dotted name with generic arguments. -/
def nominal (s : List Char) : Reading TypeExpr s :=
  match identifier s with
  | .failed place => .failed place
  | .done name r h =>
    match optionalGenerics r with
    | ⟨gs, r', h'⟩ =>
      ((furtherSegments (.simple name gs) r').within h').after h
termination_by (s.length, 0)

/-- The segments of a dotted name after the first one. -/
def furtherSegments (t : TypeExpr) (s : List Char) : Loose TypeExpr s :=
  match memberName s with
  | .failed _ => .nothing t
  | .done name r h =>
    match optionalGenerics r with
    | ⟨gs, r', h'⟩ =>
      ((furtherSegments (.nested name t gs) r').within h').later h
termination_by (s.length, 0)

/-- Generic arguments, or none. -/
def optionalGenerics (s : List Char) : Loose (List TypeExpr) s :=
  (genericArguments s).orElse []
termination_by (s.length, 1)

/-- Generic arguments between angle brackets. -/
def genericArguments (s : List Char) : Reading (List TypeExpr) s :=
  match opening ['<'] s with
  | none => .failed s
  | some ⟨r, h⟩ =>
    match typeExpr r with
    | .failed place => .failed place
    | .done t r' h' =>
      match furtherTypes r' with
      | ⟨more, r'', h''⟩ =>
        match closing ['>'] r'' with
        | some rest => .after h (.after h' (.within h'' (.ofShorter (t :: more) rest)))
        | none => .failed (skipGaps r'')
termination_by (s.length, 0)

/-- The types of a list after the first one. -/
def furtherTypes (s : List Char) : Loose (List TypeExpr) s :=
  match separator [','] s with
  | none => .nothing []
  | some ⟨r, h⟩ =>
    match typeExpr r with
    | .failed _ => .nothing []
    | .done t r' h' =>
      (((furtherTypes r').map (t :: ·)).later h').later h
termination_by (s.length, 0)

/-- An array or a dictionary. -/
def collection (s : List Char) : Reading TypeExpr s :=
  match opening ['['] s with
  | none => .failed s
  | some ⟨r, h⟩ =>
    match typeExpr r with
    | .failed place => .failed place
    | .done t r' h' =>
      match dictionaryValue r' with
      | ⟨value, r'', h''⟩ =>
        match closing [']'] r'' with
        | some rest =>
          let t := value.elim (.array t) (.dictionary t)
          .after h (.after h' (.within h'' (.ofShorter t rest)))
        | none => .failed (skipGaps r'')
termination_by (s.length, 0)

/-- The value type of a dictionary after its colon, or nothing. -/
def dictionaryValue (s : List Char) : Loose (Option TypeExpr) s :=
  match separator [':'] s with
  | none => .nothing none
  | some ⟨r, h⟩ => (((typeExpr r).map some).after h).orElse none
termination_by (s.length, 0)

/-- A tuple element. An identifier before a colon is its label if a type follows. -/
def element (s : List Char) : Reading (Labelled TypeExpr) s :=
  match elementLabel s with
  | none => (typeExpr s).map (⟨none, ·⟩)
  | some (label, ⟨r, h⟩) =>
    match typeExpr r with
    | .done t rest h' => .after h (.done ⟨some label, t⟩ rest h')
    | .failed _ => (typeExpr s).map (⟨none, ·⟩)
termination_by (s.length, 6)

/-- Tuple elements, possibly none. -/
def elements (s : List Char) : Loose (List (Labelled TypeExpr)) s :=
  match element s with
  | .failed _ => .nothing []
  | .done e r h =>
    ((furtherElements r).map (e :: ·)).later h
termination_by (s.length, 7)

/-- The tuple elements after the first one. -/
def furtherElements (s : List Char) : Loose (List (Labelled TypeExpr)) s :=
  match separator [','] s with
  | none => .nothing []
  | some ⟨r, h⟩ =>
    match element r with
    | .failed _ => .nothing []
    | .done e r' h' =>
      (((furtherElements r').map (e :: ·)).later h').later h
termination_by (s.length, 0)

/-- What makes a closure of a parenthesized list: effects, an arrow and the result. -/
def closureTail (s : List Char) : Reading (Bool × Bool × TypeExpr) s :=
  match effect "async".toList s with
  | ⟨isAsync, r, h⟩ =>
    match effect "throws".toList r with
    | ⟨canThrow, r', h'⟩ =>
      match separator ['-', '>'] r' with
      | none => .failed (skipGaps r')
      | some ⟨r'', h''⟩ =>
        .within h (.within h' (.after h'' ((typeExpr r'').map (isAsync, canThrow, ·))))
termination_by (s.length, 0)

/-- A list in parentheses: a closure if a signature follows, else a group or a tuple. The labels of a
closure's arguments are not kept. -/
def parenthesized (s : List Char) : Reading TypeExpr s :=
  match opening ['('] s with
  | none => .failed s
  | some ⟨r, h⟩ =>
    match elements r with
    | ⟨es, r', h'⟩ =>
      match closing [')'] r' with
      | none => .failed (skipGaps r')
      | some ⟨r'', h''⟩ =>
        match closureTail r'' with
        | .done (isAsync, canThrow, t) rest h''' =>
          let t := TypeExpr.closure (es.map (·.value)) isAsync canThrow t
          .after h (.within h' (.after h'' (.done t rest h''')))
        | .failed _ => .after h (.within h' (.done (group es) r'' h''))
termination_by (s.length, 0)

end

end TypeExpr.Grammar

namespace TypeExpr

/-- **The type that a text spells**, or why it spells none. White space may surround the type; the
offset is where the last alternative gave up, or where the type ended before the text did. -/
def parse (text : String) : Except SyntaxError TypeExpr :=
  let cs := text.toList
  let unexpectedAt (place : List Char) :=
    SyntaxError.unexpected text (utf8Length cs - utf8Length place)
  if (trimChars cs).isEmpty then .error .empty
  else
    match Grammar.typeExpr (skipGaps cs) with
    | .failed place => .error (unexpectedAt place)
    | .done t rest _ =>
      if (skipGaps rest).isEmpty then .ok t else .error (unexpectedAt (skipGaps rest))

/-- **The type that a text stands for.** What spells no type is unknown text, without the white space
at its ends. -/
def read (text : String) : TypeExpr :=
  match parse text with
  | .ok t => t
  | .error _ => .unknown (trim text)

end TypeExpr

end Wiring
