import Wiring.Proofs.TypeExpr.Constructors

/-!
# Types that can be read back

What has to hold of a type so that it is read back depends on where it stands: a name such as `inout` is
taken for a specifier where one may stand, if white space follows it.

* `Place`: where a type stands.
* `Legible`: the types that are read back where they stand, by their constructors.
* `Legible.readsAt`: they are, by induction on the type.
-/

namespace Wiring.TypeExpr

open Grammar

/-- Where a type stands. -/
inductive Place where
  /-- Between brackets or on its own: attributes and a specifier may stand before it. -/
  | whole
  /-- After `some`, `any` or a specifier: neither may stand before it any more. -/
  | constraint
  /-- Below a postfix operator or `&`: in parentheses, if it needs them. -/
  | operand
deriving DecidableEq

/-- Where a type stands whose specifier this is. -/
def Place.after : Option String → Place
  | none => .whole
  | some _ => .constraint

/-- **A type that is read back where it stands**, from all texts that spell it or from the narrow one. -/
inductive Legible (narrow : Bool) : Place → TypeExpr → Prop
  | simple {place : Place} {n : String} {gs : List TypeExpr} :
    isIdentifier n = true → (n ∈ specifiers → narrow = true) → (∀ t ∈ gs, Legible narrow .whole t) →
      Legible narrow place (.simple n gs)
  | nested {place : Place} {n : String} {t : TypeExpr} {gs : List TypeExpr} :
    isIdentifier n = true → n ≠ "Type" → n ≠ "Protocol" → t.isNominal = true →
      Legible narrow .operand t → (∀ t ∈ gs, Legible narrow .whole t) →
        Legible narrow place (.nested n t gs)
  | composition {place : Place} {ms : List TypeExpr} :
    compose ms = .composition ms → 2 ≤ ms.length →
      (place = .constraint ∨ ∀ m ∈ ms.head?, m.isSpecifierName = false) →
        (∀ m ∈ ms, Legible narrow .operand m) → Legible narrow place (.composition ms)
  | optional {place : Place} {t : TypeExpr} :
    Legible narrow .operand t → Legible narrow place (.optional t)
  | forced {place : Place} {t : TypeExpr} :
    Legible narrow .operand t → Legible narrow place (.forced t)
  | someOf {place : Place} {t : TypeExpr} :
    t.isAttributed = false → Legible narrow .constraint t → Legible narrow place (.someOf t)
  | anyOf {place : Place} {t : TypeExpr} :
    t.isAttributed = false → Legible narrow .constraint t → Legible narrow place (.anyOf t)
  | metatype {place : Place} {t : TypeExpr} {isType : Bool} :
    Legible narrow .operand t → Legible narrow place (.metatype t isType)
  | attributed {place : Place} {t : TypeExpr} {spec : Option String} {as : List String} :
    as ≠ [] ∨ spec ≠ none → (∀ w ∈ spec, w ∈ specifiers) → (∀ a ∈ as, isIdentifier a = true) →
      t.isAttributed = false → Legible narrow (.after spec) t →
        Legible narrow place (.attributed t spec as)
  | array {place : Place} {t : TypeExpr} : Legible narrow .whole t → Legible narrow place (.array t)
  | dictionary {place : Place} {k v : TypeExpr} :
    Legible narrow .whole k → Legible narrow .whole v → Legible narrow place (.dictionary k v)
  | tuple {place : Place} {es : List (Labelled TypeExpr)} :
    isSingle es = false → (∀ e ∈ es, ∀ w ∈ e.label, isIdentifier w = true) →
      (∀ e ∈ es, Legible narrow .whole e.value) → Legible narrow place (.tuple es)
  | closure {place : Place} {ts : List TypeExpr} {isAsync canThrow : Bool} {t : TypeExpr} :
    (∀ t ∈ ts, Legible narrow .whole t) → Legible narrow .whole t →
      Legible narrow place (.closure ts isAsync canThrow t)

variable {narrow : Bool} {place : Place} {t : TypeExpr}

/-- What reading back means at a place. After `some` and specifiers no specifier is looked for, so that
less has to hold there. -/
structure ReadsAt (narrow : Bool) (place : Place) (t : TypeExpr) : Prop where
  base : t.isAttributed = false → IsBase narrow t
  readable : place ≠ .constraint → Readable narrow t

theorem Grammar.Readable.readsAt (h : Readable narrow t) : ReadsAt narrow place t :=
  ⟨fun hplain => (h.base hplain).1, fun _ => h⟩

/-- **A legible type is read back where it stands.** -/
theorem Legible.readsAt (h : Legible narrow place t) : ReadsAt narrow place t := by
  induction h with
  | simple hn hbare _ ih => exact (readable_simple hn hbare fun t ht => (ih t ht).readable nofun).readsAt
  | nested hn htype hprotocol hnominal _ _ iht ihgs =>
    exact (readable_nested hn htype hprotocol hnominal (iht.readable nofun)
      fun t ht => (ihgs t ht).readable nofun).readsAt
  | composition hnormal hlength hfirst _ ih =>
    have hms := fun m hm => (ih m hm).readable nofun
    refine ⟨fun _ => isBase_composition hnormal hlength hms, ?_⟩
    intro hplace
    exact readable_composition hnormal hlength hms (hfirst.resolve_left hplace)
  | optional _ ih => exact (readable_optional (ih.readable nofun)).readsAt
  | forced _ ih => exact (readable_forced (ih.readable nofun)).readsAt
  | someOf hplain _ ih => exact (readable_someOf (ih.base hplain)).readsAt
  | anyOf hplain _ ih => exact (readable_anyOf (ih.base hplain)).readsAt
  | metatype _ ih => exact (readable_metatype (ih.readable nofun) _).readsAt
  | @attributed _ t spec as hsome hspec has hplain _ ih =>
    have hfree : spec = none → IsFree narrow t := by
      rintro rfl
      exact ((ih.readable nofun).base hplain).2
    exact (readable_attributed (ih.base hplain) hfree hsome has hspec).readsAt
  | array _ ih => exact (readable_array (ih.readable nofun)).readsAt
  | dictionary _ _ ihk ihv =>
    exact (readable_dictionary (ihk.readable nofun) (ihv.readable nofun)).readsAt
  | tuple hsingle hlabels _ ih =>
    exact (readable_tuple hsingle fun e he => ⟨(ih e he).readable nofun, hlabels e he⟩).readsAt
  | closure _ _ ihts iht =>
    exact (readable_closure (fun t ht => (ihts t ht).readable nofun) (iht.readable nofun)).readsAt

end Wiring.TypeExpr
