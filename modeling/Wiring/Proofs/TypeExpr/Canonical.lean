import Wiring.Proofs.Sorted
import Wiring.TypeExpr.Grammar

/-!
# Types that the grammar can read back

Not every type has a text of its own: names have to be names of the grammar, and what stands before a type
has to go with it. And a composition is a type as the program builds it only if its members are in normal
form.

* `TypeExpr.isNormal`: all compositions are in normal form; `isNormal_compose`: those that are built are.
* `TypeExpr.isCanonical`: names and decorations are those of the grammar.
-/

namespace Wiring.TypeExpr

/-! ## Normal form -/

def isComposition : TypeExpr → Bool
  | .composition _ => true
  | _ => false

mutual

/-- **All compositions in the type are in normal form**: no member is a composition, and the members stand
in ascending order, each once. -/
def isNormal : TypeExpr → Bool
  | .simple _ gs => areNormal gs
  | .nested _ p gs => isNormal p && areNormal gs
  | .composition ms => ms.all (!·.isComposition) && sortedSet compare ms = ms && areNormal ms
  | .optional t | .forced t | .someOf t | .anyOf t | .metatype t _ | .attributed t _ _ | .array t =>
    isNormal t
  | .dictionary k v => isNormal k && isNormal v
  | .tuple es => elementsAreNormal es
  | .closure as _ _ r => areNormal as && isNormal r
  | .unknown _ => true

def areNormal : List TypeExpr → Bool
  | [] => true
  | t :: ts => isNormal t && areNormal ts

def elementsAreNormal : List (Labelled TypeExpr) → Bool
  | [] => true
  | ⟨_, t⟩ :: es => isNormal t && elementsAreNormal es

end

variable {t : TypeExpr} {ts ms : List TypeExpr}

theorem areNormal_iff : areNormal ts = true ↔ ∀ t ∈ ts, t.isNormal = true := by
  induction ts with
  | nil => simp [areNormal]
  | cons t ts ih => simp [areNormal, ih]

/-- The order of types compares their texts, and their outlines if these are the same. -/
theorem compare_eq : compare = compareLex (compareOn source) (compareOn outline) := by
  funext a b
  unfold compare
  split
  · rename_i h
    rw [h, compareLex, compareOn, compareOn]
    simp
  · rfl

instance : Std.TransCmp compare :=
  compare_eq ▸ inferInstance

/-- Types that are no compositions are their own members. -/
theorem flatMap_members (h : ∀ m ∈ ms, m.isComposition = false) : ms.flatMap members = ms := by
  have hself : ∀ m ∈ ms, members m = [m] := by
    intro m hm
    have hm := h m hm
    cases m <;> first | rfl | cases hm
  rw [List.flatMap_congr hself, List.flatMap_singleton']

/-- **A composition in normal form is what its members make.** -/
theorem compose_of_isNormal (h : (composition ms).isNormal = true) : compose ms = .composition ms := by
  simp only [isNormal, Bool.and_eq_true, List.all_eq_true, Bool.not_eq_true', decide_eq_true_eq] at h
  rw [compose, flatMap_members h.1.1, h.1.2]

/-- The members of a type in normal form are no compositions, and in normal form. -/
theorem isNormal_of_mem_members (h : t.isNormal = true) :
    ∀ m ∈ members t, m.isComposition = false ∧ m.isNormal = true := by
  cases t with
  | composition ms =>
    simp only [isNormal, Bool.and_eq_true, List.all_eq_true, Bool.not_eq_true', areNormal_iff] at h
    intro m hm
    exact ⟨h.1.1 m hm, h.2 m hm⟩
  | _ =>
    intro m hm
    obtain rfl := List.mem_singleton.1 hm
    exact ⟨rfl, h⟩

/-- **What is composed of types in normal form is in normal form.** -/
theorem isNormal_compose (h : ∀ t ∈ ts, t.isNormal = true) : (compose ts).isNormal = true := by
  -- sorting keeps the members
  have hmembers : ∀ m ∈ sortedSet compare (ts.flatMap members),
      m.isComposition = false ∧ m.isNormal = true := by
    intro m hm
    obtain ⟨t, ht, hm⟩ := List.mem_flatMap.1 (mem_sortedSet.1 hm)
    exact isNormal_of_mem_members (h t ht) m hm
  simp only [compose, isNormal, Bool.and_eq_true, List.all_eq_true, Bool.not_eq_true',
    decide_eq_true_eq, areNormal_iff]
  exact ⟨⟨fun m hm => (hmembers m hm).1, sortedSet_sortedSet _⟩, fun m hm => (hmembers m hm).2⟩

/-! ## Canonical types -/

namespace Grammar

/-- An identifier: letters, digits and underscores of ASCII, and no digit first. -/
def isIdentifier (w : String) : Bool :=
  match w.toList with
  | [] => false
  | c :: cs => isIdentifierStart c && cs.all isIdentifierChar

end Grammar

open Grammar

/-- A name, or a name inside another type. -/
def isNominal : TypeExpr → Bool
  | .simple _ _ | .nested _ _ _ => true
  | _ => false

/-- A name without generic arguments that is one of the specifiers: before white space it is taken for the
specifier. -/
def isSpecifierName : TypeExpr → Bool
  | .simple n [] => n ∈ specifiers
  | _ => false

def isAttributed : TypeExpr → Bool
  | .attributed _ _ _ => true
  | _ => false

/-- One element without a label, which is written without parentheses. -/
def isSingle : List (Labelled TypeExpr) → Bool
  | [⟨none, _⟩] => true
  | _ => false

mutual

/-- **A canonical type.** Names, labels and attributes are identifiers, and none is taken for a word of
the grammar; compositions have members, decorated types have decorations and can be told from what is
around them; and there is no unknown text. `fits` says which specifiers may stand before a type, where one
of the grammar's or an attribute has to. -/
def isCanonical (fits : String → Bool) : TypeExpr → Bool
  | .simple n gs => isIdentifier n && n ∉ specifiers && areCanonical fits gs
  | .nested n p gs =>
    isIdentifier n && n ≠ "Type" && n ≠ "Protocol" && p.isNominal && isCanonical fits p &&
      areCanonical fits gs
  | .composition ms => 2 ≤ ms.length && areCanonical fits ms
  | .optional t | .forced t | .metatype t _ | .array t => isCanonical fits t
  | .someOf t | .anyOf t => !t.isAttributed && isCanonical fits t
  | .attributed t specifier attributes =>
    (!attributes.isEmpty || specifier.any (· ∈ specifiers)) && specifier.all fits &&
      attributes.all isIdentifier && !t.isAttributed && isCanonical fits t
  | .dictionary k v => isCanonical fits k && isCanonical fits v
  | .tuple es => !isSingle es && elementsAreCanonical fits es
  | .closure as _ _ r => areCanonical fits as && isCanonical fits r
  | .unknown _ => false

def areCanonical (fits : String → Bool) : List TypeExpr → Bool
  | [] => true
  | t :: ts => isCanonical fits t && areCanonical fits ts

def elementsAreCanonical (fits : String → Bool) : List (Labelled TypeExpr) → Bool
  | [] => true
  | ⟨label, t⟩ :: es =>
    label.all isIdentifier && isCanonical fits t && elementsAreCanonical fits es

end

end Wiring.TypeExpr
