import Wiring.Sorted

/-!
# Paths

A path keeps the text it was given as. Paths are compared by their steps: repeated and trailing slashes
and a point between two slashes are no steps, while a point at the front is one.

* `Path.steps`: what a path says, step by step.
* `Path.isUsable`: whether a disk takes a path at all.
* `Path.sibling`: the path beside a path that has another extension.
-/

namespace Wiring

/-- A path as it was given. -/
structure Path where
  text : String

namespace Path

/-! ## Steps -/

/-- One step of a path. -/
inductive Step where
  /-- To the top. -/
  | root
  /-- To where one is. -/
  | here
  /-- One level up. -/
  | up
  /-- To the file or directory of some name. -/
  | name (text : String)
deriving DecidableEq

/-- The parts of a text between slashes. -/
def segments : List Char → List (List Char)
  | [] => [[]]
  | c :: cs =>
    if c = '/' then [] :: segments cs
    else
      match segments cs with
      | [] => [[c]]
      | segment :: rest => (c :: segment) :: rest

/-- The step that a part between slashes stands for, if it stands for one. -/
def step? (segment : List Char) : Option Step :=
  if segment = [] || segment = ['.'] then none
  else if segment = ['.', '.'] then some .up
  else some (.name (String.ofList segment))

/-- The steps of a path. The empty path has none. -/
def steps (p : Path) : List Step :=
  let parts := segments p.text.toList
  let rest := parts.filterMap step?
  if p.text.toList.head? = some '/' then .root :: rest
  else if parts.head? = some ['.'] then .here :: rest
  else rest

/-- The place of the kinds of steps in the order of paths. -/
def Step.rank : Step → Nat
  | .root => 0
  | .here => 1
  | .up => 2
  | .name _ => 3

/-- Steps by kind, names among themselves by their characters. -/
def Step.compare (a b : Step) : Ordering :=
  (Ord.compare a.rank b.rank).then
    (match a, b with
    | .name x, .name y => Ord.compare x y
    | _, _ => .eq)

/-- The order of paths: by their first different step; a path comes before those that continue it. -/
def compare (p q : Path) : Ordering :=
  List.compareLex Step.compare p.steps q.steps

/-- Paths with the same steps count as one. -/
instance : BEq Path :=
  ⟨fun p q => p.steps == q.steps⟩

/-! ## Limits -/

/-- How long a path may be, in bytes of UTF-8. -/
def maxLength : Nat := 4095

/-- How long a name may be, in bytes of UTF-8. -/
def maxNameLength : Nat := 255

/-- Whether the text is short enough and has no NUL in it. -/
def hasUsableText (p : Path) : Bool :=
  !p.text.toList.contains '\x00' && p.text.utf8ByteSize ≤ maxLength

/-- Whether a step names nothing or has a name that is short enough. -/
def Step.isUsable : Step → Bool
  | .name text => text.utf8ByteSize ≤ maxNameLength
  | _ => true

/-- Whether something may lie where the path leads. -/
def isUsable (p : Path) : Bool :=
  p.hasUsableText && p.steps.all Step.isUsable

/-! ## Names and extensions -/

/-- The name at which a path ends. -/
def fileName? (p : Path) : Option String :=
  match p.steps.getLast? with
  | some (.name text) => some text
  | _ => none

/-- The stem of a name and its extension: what stands before and after its last point. A name whose
only point is its first character has no extension. -/
def splitName (name : List Char) : List Char × Option (List Char) :=
  let extension := (name.reverse.takeWhile (· ≠ '.')).reverse
  match name.take (name.length - extension.length) with
  | [] => (name, none)
  | ['.'] => (name, none)
  | stem => (stem.dropLast, some extension)

/-- The extension of the name at which a path ends. -/
def extension? (p : Path) : Option String :=
  p.fileName?.bind fun name => (splitName name.toList).2.map String.ofList

/-- A reversed text without the slashes and points at its end that are no steps. -/
def dropTail : List Char → List Char
  | '/' :: cs => dropTail cs
  | '.' :: '/' :: cs => dropTail cs
  | cs => cs

/-- The text of a path up to the end of its last step. -/
def stepText (p : Path) : List Char :=
  (dropTail p.text.toList.reverse).reverse

/-- The path to the directory in which a path ends: what is left without its last step. -/
def parent (p : Path) : Path :=
  match p.stepText.reverse.dropWhile (· ≠ '/') with
  | [] => ⟨""⟩
  | front =>
    match dropTail front with
    | [] => ⟨"/"⟩
    | front => ⟨String.ofList front.reverse⟩

/-- The path beside `p` whose name has the stem of the name of `p` and the extension given; `p` itself
if it ends in no name. A name such as `..x` at the very end is the step up once its extension is gone, and
a step takes no extension. -/
def sibling (p : Path) (extension : String) : Path :=
  match p.fileName? with
  | none => p
  | some name =>
    let front := p.stepText.take (p.stepText.length - name.length)
    let stem := (splitName name.toList).1
    if stem = ['.'] && p.stepText = p.text.toList then ⟨String.ofList (front ++ ['.', '.'])⟩
    else ⟨String.ofList (front ++ stem) ++ "." ++ extension⟩

/-- Whether a path can only stand for a directory, because of how its text ends. -/
def isDirectoryOnly (p : Path) : Bool :=
  match p.text.toList.reverse with
  | '/' :: _ | '.' :: '/' :: _ => true
  | _ => false

/-- The path to the file or directory `name` in the directory `p`. -/
def join (p : Path) (name : String) : Path :=
  ⟨if p.text.toList.getLast? = some '/' then p.text ++ name else p.text ++ "/" ++ name⟩

example : (⟨"./a//b/./c.x/"⟩ : Path).steps = [.here, .name "a", .name "b", .name "c.x"] := by decide
example : ((⟨"d/a.b.swift"⟩ : Path).sibling "tmp").text = "d/a.b.tmp" := by decide
example : ((⟨"d/..x"⟩ : Path).sibling "tmp").text = "d/.." := by decide
example : (⟨"/d//./a/"⟩ : Path).parent.text = "/d" := by decide
example : (⟨"d/.json"⟩ : Path).extension? = none := by decide
example : compare ⟨"a/x"⟩ ⟨"a-b"⟩ = .lt := by decide

end Path

end Wiring
