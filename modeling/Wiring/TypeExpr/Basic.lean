/-!
# Type expressions

A type as a declaration writes it, free of spacing. Two types are the same exactly when they have
the same structure, and every look-up in a dependency graph is made with a type.

* `TypeExpr.same_iff`: the structural comparison decides equality.
-/

namespace Wiring

/-- A value that may carry a label, as an element of a tuple type does. -/
structure Labelled (α : Type) where
  label : Option String
  value : α
deriving DecidableEq, Inhabited

/-- A declared type. -/
inductive TypeExpr where
  /-- A name with generic arguments: `Int`, `Cache<Key, Value>`. -/
  | simple (name : String) (generics : List TypeExpr)
  /-- A type declared inside another: `Outer.Inner<T>`. -/
  | nested (name : String) (parent : TypeExpr) (generics : List TypeExpr)
  /-- Several protocols at once: `A & B`. `TypeExpr.compose` brings the members into normal form. -/
  | composition (members : List TypeExpr)
  /-- `T?` -/
  | optional (wrapped : TypeExpr)
  /-- `T!` -/
  | forced (wrapped : TypeExpr)
  /-- `some T` -/
  | someOf (constraint : TypeExpr)
  /-- `any T` -/
  | anyOf (constraint : TypeExpr)
  /-- `T.Type` if `isType` holds, else `T.Protocol`. -/
  | metatype (base : TypeExpr) (isType : Bool)
  /-- Attributes, then an ownership specifier, before a type: `@escaping inout T`. -/
  | attributed (base : TypeExpr) (specifier : Option String) (attributes : List String)
  /-- `[T]` -/
  | array (element : TypeExpr)
  /-- `[K: V]` -/
  | dictionary (key value : TypeExpr)
  /-- `(label: T, U)` -/
  | tuple (elements : List (Labelled TypeExpr))
  /-- `(A, B) async throws -> R` -/
  | closure (arguments : List TypeExpr) (isAsync canThrow : Bool) (result : TypeExpr)
  /-- Text that the grammar cannot read, kept as it stands. -/
  | unknown (text : String)
deriving Inhabited

namespace TypeExpr

mutual

/-- Structural equality of types. -/
def same : TypeExpr → TypeExpr → Bool
  | .simple n gs, .simple n' gs' => n == n' && sameAll gs gs'
  | .nested n p gs, .nested n' p' gs' => n == n' && same p p' && sameAll gs gs'
  | .composition ms, .composition ms' => sameAll ms ms'
  | .optional t, .optional t' => same t t'
  | .forced t, .forced t' => same t t'
  | .someOf t, .someOf t' => same t t'
  | .anyOf t, .anyOf t' => same t t'
  | .metatype t b, .metatype t' b' => same t t' && b == b'
  | .attributed t s as, .attributed t' s' as' => same t t' && s == s' && as == as'
  | .array t, .array t' => same t t'
  | .dictionary k v, .dictionary k' v' => same k k' && same v v'
  | .tuple es, .tuple es' => sameElements es es'
  | .closure as a t r, .closure as' a' t' r' => sameAll as as' && a == a' && t == t' && same r r'
  | .unknown s, .unknown s' => s == s'
  | _, _ => false

/-- Structural equality of lists of types. -/
def sameAll : List TypeExpr → List TypeExpr → Bool
  | [], [] => true
  | t :: ts, t' :: ts' => same t t' && sameAll ts ts'
  | _, _ => false

/-- Structural equality of lists of tuple elements. -/
def sameElements : List (Labelled TypeExpr) → List (Labelled TypeExpr) → Bool
  | [], [] => true
  | ⟨l, t⟩ :: es, ⟨l', t'⟩ :: es' => l == l' && same t t' && sameElements es es'
  | _, _ => false

end

mutual

theorem same_iff : ∀ a b : TypeExpr, same a b = true ↔ a = b
  | .simple _ gs, b => by cases b <;> simp [same, sameAll_iff gs]
  | .nested _ p gs, b => by cases b <;> simp [same, same_iff p, sameAll_iff gs, and_assoc]
  | .composition ms, b => by cases b <;> simp [same, sameAll_iff ms]
  | .optional t, b => by cases b <;> simp [same, same_iff t]
  | .forced t, b => by cases b <;> simp [same, same_iff t]
  | .someOf t, b => by cases b <;> simp [same, same_iff t]
  | .anyOf t, b => by cases b <;> simp [same, same_iff t]
  | .metatype t _, b => by cases b <;> simp [same, same_iff t]
  | .attributed t _ _, b => by cases b <;> simp [same, same_iff t, and_assoc]
  | .array t, b => by cases b <;> simp [same, same_iff t]
  | .dictionary k v, b => by cases b <;> simp [same, same_iff k, same_iff v]
  | .tuple es, b => by cases b <;> simp [same, sameElements_iff es]
  | .closure as _ _ r, b => by cases b <;> simp [same, sameAll_iff as, same_iff r, and_assoc]
  | .unknown _, b => by cases b <;> simp [same]

theorem sameAll_iff : ∀ a b : List TypeExpr, sameAll a b = true ↔ a = b
  | [], b => by cases b <;> simp [sameAll]
  | t :: ts, b => by cases b <;> simp [sameAll, same_iff t, sameAll_iff ts]

theorem sameElements_iff : ∀ a b : List (Labelled TypeExpr), sameElements a b = true ↔ a = b
  | [], b => by cases b <;> simp [sameElements]
  | ⟨l, t⟩ :: es, [] => by simp [sameElements]
  | ⟨l, t⟩ :: es, ⟨l', t'⟩ :: es' => by simp [sameElements, same_iff t, sameElements_iff es]

end

instance : DecidableEq TypeExpr := fun a b => decidable_of_iff _ (same_iff a b)

/-- Generic arguments of a named type; no other type has any. -/
def generics : TypeExpr → List TypeExpr
  | .simple _ gs | .nested _ _ gs => gs
  | _ => []

/-- The type with the generic argument at `index` replaced. A type with no such argument is left as
it is. -/
def withGeneric (t : TypeExpr) (index : Nat) (generic : TypeExpr) : TypeExpr :=
  match t with
  | .simple n gs => .simple n (gs.set index generic)
  | .nested n p gs => .nested n p (gs.set index generic)
  | t => t

/-- The type below optionality, `some`, `any`, attributes and ownership specifiers. It explains near
misses only: look-ups never strip anything. -/
def stripped : TypeExpr → TypeExpr
  | .optional t | .forced t | .someOf t | .anyOf t | .attributed t _ _ => stripped t
  | t => t

end TypeExpr

end Wiring
