import Wiring.Proofs.Text.Reading
import Wiring.Proofs.TypeExpr.Canonical

/-!
# The types that the grammar makes

Not every type is one that some text is read as: names are identifiers, compositions are in normal form and
have members, groups of one element are no tuples, and so on. Here that is said once, and read off the rules
one by one; what a rule leaves of the text does not matter for it.

* `Parsed`: what holds of a type that was read.
* `typeExpr_yields` … `parenthesized_yields`: each rule makes such types, by induction on the text that it
  is given.
* `parsed_of_parse`: so does the whole text.
-/

namespace Wiring.TypeExpr

open Text Grammar

/-- **The types that the grammar makes.** Apart from the members of a composition, any of them may stand
below any other: parentheses make it so. -/
inductive Parsed : TypeExpr → Prop
  | simple {n : String} {gs : List TypeExpr} :
    isIdentifier n = true → (∀ t ∈ gs, Parsed t) → Parsed (.simple n gs)
  | nested {n : String} {t : TypeExpr} {gs : List TypeExpr} :
    isIdentifier n = true → n ≠ "Type" → n ≠ "Protocol" → t.isNominal = true → Parsed t →
      (∀ t ∈ gs, Parsed t) → Parsed (.nested n t gs)
  | composition {ms : List TypeExpr} :
    ms ≠ [] → (∀ m ∈ ms, m.isComposition = false) → sortedSet compare ms = ms →
      (∀ m ∈ ms, Parsed m) → Parsed (.composition ms)
  | optional {t : TypeExpr} : Parsed t → Parsed (.optional t)
  | forced {t : TypeExpr} : Parsed t → Parsed (.forced t)
  | someOf {t : TypeExpr} : Parsed t → Parsed (.someOf t)
  | anyOf {t : TypeExpr} : Parsed t → Parsed (.anyOf t)
  | metatype {t : TypeExpr} {isType : Bool} : Parsed t → Parsed (.metatype t isType)
  | attributed {t : TypeExpr} {spec : Option String} {as : List String} :
    as ≠ [] ∨ spec ≠ none → (∀ w ∈ spec, w ∈ specifiers) → (∀ a ∈ as, isIdentifier a = true) →
      Parsed t → Parsed (.attributed t spec as)
  | array {t : TypeExpr} : Parsed t → Parsed (.array t)
  | dictionary {k v : TypeExpr} : Parsed k → Parsed v → Parsed (.dictionary k v)
  | tuple {es : List (Labelled TypeExpr)} :
    isSingle es = false → (∀ e ∈ es, ∀ w ∈ e.label, isIdentifier w = true) →
      (∀ e ∈ es, Parsed e.value) → Parsed (.tuple es)
  | closure {ts : List TypeExpr} {isAsync canThrow : Bool} {t : TypeExpr} :
    (∀ t ∈ ts, Parsed t) → Parsed t → Parsed (.closure ts isAsync canThrow t)

namespace Grammar

variable {s : List Char} {w : String} {ts : List TypeExpr}

/-! ## Words -/

/-- A name that was read is an identifier. -/
theorem identifier_yields (s : List Char) : (identifier s).Yields fun w => isIdentifier w = true := by
  unfold identifier
  split
  · rename_i c cs
    split
    · rename_i hc
      rw [run, Reading.Yields]
      simp [isIdentifier, hc]
    · trivial
  · trivial

theorem attributes_value (s : List Char) : ∀ a ∈ (attributes s).value, isIdentifier a = true := by
  have hname : (attributeName s).Yields fun w => isIdentifier w = true := by
    unfold attributeName
    split
    · exact Reading.yields_afterChar.2 (identifier_yields _)
    · trivial
  rw [attributes]
  split
  · simp [Loose.nothing]
  · rename_i a r h heq
    rw [heq] at hname
    have := length_skipGaps_le r
    have ih := attributes_value (skipGaps r)
    simp only [Loose.later, Loose.within, Loose.map, List.forall_mem_cons]
    exact ⟨hname, ih⟩
termination_by s.length

theorem specifier_value (s : List Char) : ∀ w ∈ (specifier s).value, w ∈ specifiers := by
  intro w hw
  unfold specifier at hw
  simp only at hw
  split at hw
  · rename_i word rest heq
    obtain ⟨word', hword', hmap⟩ := List.exists_of_findSome?_eq_some heq
    obtain ⟨_, _, hpair⟩ := Option.map_eq_some_iff.1 hmap
    obtain ⟨rfl, -⟩ := Prod.mk.inj hpair
    obtain rfl : word' = w := by simpa [Loose.ofShorter] using hw
    exact hword'
  · simp [Loose.nothing] at hw

/-- `some` and `any` go before any type. -/
theorem parsed_constraint {wrap : TypeExpr → TypeExpr} {found : Shorter s}
    (h : constraint s = some (wrap, found)) {t : TypeExpr} (ht : Parsed t) : Parsed (wrap t) := by
  unfold constraint at h
  split at h
  · cases h
    exact .someOf ht
  · obtain ⟨_, _, hpair⟩ := Option.map_eq_some_iff.1 h
    cases hpair
    exact .anyOf ht

/-- Postfix operators go after any type. -/
theorem parsed_suffix {wrap : TypeExpr → TypeExpr} {found : Shorter s}
    (h : suffix s = some (wrap, found)) {t : TypeExpr} (ht : Parsed t) : Parsed (wrap t) := by
  unfold suffix at h
  split at h
  · cases h
    exact .optional ht
  · cases h
    exact .forced ht
  · split at h
    · cases h
      exact .metatype ht
    · obtain ⟨_, _, hpair⟩ := Option.map_eq_some_iff.1 h
      cases hpair
      exact .metatype ht
  · cases h

theorem suffixes_value {t : TypeExpr} (ht : Parsed t) (s : List Char) : Parsed (suffixes t s).value := by
  rw [suffixes]
  split
  · exact ht
  · rename_i wrap r h heq
    exact suffixes_value (parsed_suffix heq ht) r
termination_by s.length

/-- The words of metatypes are no member names. -/
theorem memberName_yields (s : List Char) :
    (memberName s).Yields fun w => isIdentifier w = true ∧ w ≠ "Type" ∧ w ≠ "Protocol" := by
  unfold memberName
  split
  · rename_i r
    have hname := identifier_yields r
    split
    · rename_i name rest h heq
      rw [heq] at hname
      split
      · trivial
      · rename_i hother
        simp only [Bool.or_eq_true, decide_eq_true_eq, not_or] at hother
        exact ⟨hname, hother⟩
    · trivial
  · trivial

theorem elementLabel_value {found : Shorter s} (h : elementLabel s = some (w, found)) :
    isIdentifier w = true := by
  have hname := identifier_yields s
  unfold elementLabel at h
  split at h
  · rename_i label r hr heq
    rw [heq] at hname
    obtain ⟨_, _, hpair⟩ := Option.map_eq_some_iff.1 h
    cases hpair
    exact hname
  · cases h

/-! ## What the rules make of the types they read -/

theorem parsed_decorated {as : List String} {spec : Option String} {t : TypeExpr}
    (has : ∀ a ∈ as, isIdentifier a = true) (hspec : ∀ w ∈ spec, w ∈ specifiers) (ht : Parsed t) :
    Parsed (decorated as spec t) := by
  unfold decorated
  split
  · exact ht
  · rename_i hsome
    refine .attributed ?_ hspec has ht
    simpa [or_iff_not_imp_left] using hsome

/-- Every type has members, and they are no compositions. -/
theorem parsed_members {t : TypeExpr} (ht : Parsed t) :
    members t ≠ [] ∧ ∀ m ∈ members t, m.isComposition = false ∧ Parsed m := by
  have hself : t.isComposition = false →
      members t ≠ [] ∧ ∀ m ∈ members t, m.isComposition = false ∧ Parsed m := by
    intro hplain
    have hmembers : members t = [t] := by cases t <;> first | rfl | cases hplain
    rw [hmembers]
    exact ⟨List.cons_ne_nil _ _, List.forall_mem_singleton.2 ⟨hplain, ht⟩⟩
  cases ht with
  | composition hne hplain _ hms => exact ⟨hne, fun m hm => ⟨hplain m hm, hms m hm⟩⟩
  | _ => exact hself rfl

/-- **What is composed is in normal form**, and not empty. -/
theorem parsed_compose (hne : ts ≠ []) (hts : ∀ t ∈ ts, Parsed t) : Parsed (compose ts) := by
  have hmembers : ∀ m ∈ sortedSet compare (ts.flatMap members),
      m.isComposition = false ∧ Parsed m := by
    intro m hm
    obtain ⟨t, ht, hm⟩ := List.mem_flatMap.1 (mem_sortedSet.1 hm)
    exact (parsed_members (hts t ht)).2 m hm
  refine .composition ?_ (fun m hm => (hmembers m hm).1) (sortedSet_sortedSet _)
    fun m hm => (hmembers m hm).2
  obtain ⟨t, ht⟩ := List.exists_mem_of_ne_nil ts hne
  obtain ⟨m, hm⟩ := List.exists_mem_of_ne_nil _ (parsed_members (hts t ht)).1
  exact List.ne_nil_of_mem (mem_sortedSet.2 (List.mem_flatMap.2 ⟨t, ht, hm⟩))

theorem parsed_composed {t : TypeExpr} {more : List TypeExpr} (ht : Parsed t) (hmore : ∀ t ∈ more, Parsed t) :
    Parsed (composed t more) := by
  unfold composed
  split
  · exact ht
  · exact parsed_compose (List.cons_ne_nil _ _) (List.forall_mem_cons.2 ⟨ht, hmore⟩)

/-- A tuple element with a type that was read and a name for its label. -/
structure ParsedElement (e : Labelled TypeExpr) : Prop where
  value : Parsed e.value
  label : ∀ w ∈ e.label, isIdentifier w = true

/-- Groups are no tuples. -/
theorem parsed_group {es : List (Labelled TypeExpr)} (hes : ∀ e ∈ es, ParsedElement e) :
    Parsed (group es) := by
  unfold group
  split
  · exact (hes _ List.mem_cons_self).value
  · rename_i hsingle
    refine .tuple ?_ (fun e he => (hes e he).label) fun e he => (hes e he).value
    unfold isSingle
    split
    · exact absurd rfl (hsingle _)
    · rfl

/-! ## The rules -/

mutual

/-- **Every type that is read is one that the grammar makes**, as each rule goes on with a shorter text or a
tighter rule. -/
theorem typeExpr_yields (s : List Char) : (typeExpr s).Yields Parsed := by
  have hattributes := attributes_value s
  rw [typeExpr]
  split
  rename_i as r h heq
  have hspecifier := specifier_value r
  split
  rename_i spec r' h' heq'
  rw [heq] at hattributes
  rw [heq'] at hspecifier
  simp only [Reading.yields_within, Reading.yields_map]
  exact (composition_yields r').mono fun t ht => parsed_decorated hattributes hspecifier ht
termination_by (s.length, 5)
decreasing_by simp [Prod.lex_def]; omega

theorem composition_yields (s : List Char) : (composition s).Yields Parsed := by
  have hfirst := constrained_yields s
  rw [composition]
  split
  · trivial
  · rename_i t r h heq
    rw [heq] at hfirst
    exact parsed_composed hfirst (furtherMembers_value r)
termination_by (s.length, 4)

theorem furtherMembers_value (s : List Char) : ∀ t ∈ (furtherMembers s).value, Parsed t := by
  rw [furtherMembers]
  split
  · exact List.forall_mem_nil _
  · rename_i r h heq
    have hfirst := constrained_yields r
    split
    · exact List.forall_mem_nil _
    · rename_i t r' h' heq'
      rw [heq'] at hfirst
      exact List.forall_mem_cons.2 ⟨hfirst, furtherMembers_value r'⟩
termination_by (s.length, 0)

theorem constrained_yields (s : List Char) : (constrained s).Yields Parsed := by
  rw [constrained]
  split
  · exact suffixed_yields s
  · rename_i wrap r h heq
    have hbase := composition_yields r
    split
    · rename_i t rest h' heq'
      rw [heq'] at hbase
      exact parsed_constraint heq hbase
    · exact suffixed_yields s
termination_by (s.length, 3)

theorem suffixed_yields (s : List Char) : (suffixed s).Yields Parsed := by
  have hprimary := primary_yields s
  rw [suffixed]
  split
  · trivial
  · rename_i t r h heq
    rw [heq] at hprimary
    exact suffixes_value hprimary r
termination_by (s.length, 2)

theorem primary_yields (s : List Char) : (primary s).Yields Parsed := by
  have hparenthesized := parenthesized_yields s
  have hcollection := collection_yields s
  rw [primary]
  split
  · rename_i heq
    rw [heq] at hparenthesized
    exact hparenthesized
  · split
    · rename_i heq
      rw [heq] at hcollection
      exact hcollection
    · exact nominal_yields s
termination_by (s.length, 1)

theorem nominal_yields (s : List Char) : (nominal s).Yields Parsed := by
  have hname := identifier_yields s
  rw [nominal]
  split
  · trivial
  · rename_i name r h heq
    rw [heq] at hname
    have hgenerics := optionalGenerics_value r
    split
    rename_i gs r' h' heq'
    rw [heq'] at hgenerics
    exact furtherSegments_value (.simple hname hgenerics) rfl r'
termination_by (s.length, 0)

theorem furtherSegments_value {t : TypeExpr} (ht : Parsed t) (hnominal : t.isNominal = true)
    (s : List Char) :
    Parsed (furtherSegments t s).value := by
  have hname := memberName_yields s
  rw [furtherSegments]
  split
  · exact ht
  · rename_i name r h heq
    rw [heq] at hname
    have hgenerics := optionalGenerics_value r
    split
    rename_i gs r' h' heq'
    rw [heq'] at hgenerics
    obtain ⟨hidentifier, htype, hprotocol⟩ := hname
    exact furtherSegments_value (.nested hidentifier htype hprotocol hnominal ht hgenerics) rfl r'
termination_by (s.length, 0)

theorem optionalGenerics_value (s : List Char) : ∀ t ∈ (optionalGenerics s).value, Parsed t := by
  rw [optionalGenerics]
  exact (genericArguments_yields s).orElse (List.forall_mem_nil _)
termination_by (s.length, 1)

theorem genericArguments_yields (s : List Char) :
    (genericArguments s).Yields fun ts => ∀ t ∈ ts, Parsed t := by
  rw [genericArguments]
  split
  · trivial
  · rename_i r h heq
    have hfirst := typeExpr_yields r
    split
    · trivial
    · rename_i t r' h' heq'
      rw [heq'] at hfirst
      have hmore := furtherTypes_value r'
      split
      rename_i more r'' h'' heq''
      rw [heq''] at hmore
      split
      · exact List.forall_mem_cons.2 ⟨hfirst, hmore⟩
      · trivial
termination_by (s.length, 0)

theorem furtherTypes_value (s : List Char) : ∀ t ∈ (furtherTypes s).value, Parsed t := by
  rw [furtherTypes]
  split
  · exact List.forall_mem_nil _
  · rename_i r h heq
    have hfirst := typeExpr_yields r
    split
    · exact List.forall_mem_nil _
    · rename_i t r' h' heq'
      rw [heq'] at hfirst
      exact List.forall_mem_cons.2 ⟨hfirst, furtherTypes_value r'⟩
termination_by (s.length, 0)

theorem collection_yields (s : List Char) : (collection s).Yields Parsed := by
  rw [collection]
  split
  · trivial
  · rename_i r h heq
    have hfirst := typeExpr_yields r
    split
    · trivial
    · rename_i t r' h' heq'
      rw [heq'] at hfirst
      have hvalue := dictionaryValue_value r'
      split
      rename_i value r'' h'' heq''
      rw [heq''] at hvalue
      split
      · cases value with
        | none => exact .array hfirst
        | some v => exact .dictionary hfirst (hvalue v rfl)
      · trivial
termination_by (s.length, 0)

theorem dictionaryValue_value (s : List Char) : ∀ t ∈ (dictionaryValue s).value, Parsed t := by
  rw [dictionaryValue]
  split
  · exact nofun
  · rename_i r h heq
    have hvalue : (((typeExpr r).map some).after h).Yields fun value => ∀ t ∈ value, Parsed t := by
      rw [Reading.yields_after, Reading.yields_map]
      exact (typeExpr_yields r).mono fun t ht => by simpa using ht
    exact hvalue.orElse nofun
termination_by (s.length, 0)

theorem element_yields (s : List Char) : (element s).Yields ParsedElement := by
  have hwhole : ((typeExpr s).map (⟨none, ·⟩)).Yields ParsedElement := by
    rw [Reading.yields_map]
    exact (typeExpr_yields s).mono fun t ht => ⟨ht, nofun⟩
  rw [element]
  split
  · exact hwhole
  · rename_i label r h heq
    have htype := typeExpr_yields r
    split
    · rename_i heq'
      rw [heq'] at htype
      exact ⟨htype, by simpa using elementLabel_value heq⟩
    · exact hwhole
termination_by (s.length, 6)

theorem elements_value (s : List Char) : ∀ e ∈ (elements s).value, ParsedElement e := by
  have hfirst := element_yields s
  rw [elements]
  split
  · exact List.forall_mem_nil _
  · rename_i e r h heq
    rw [heq] at hfirst
    exact List.forall_mem_cons.2 ⟨hfirst, furtherElements_value r⟩
termination_by (s.length, 7)

theorem furtherElements_value (s : List Char) : ∀ e ∈ (furtherElements s).value, ParsedElement e := by
  rw [furtherElements]
  split
  · exact List.forall_mem_nil _
  · rename_i r h heq
    have hfirst := element_yields r
    split
    · exact List.forall_mem_nil _
    · rename_i e r' h' heq'
      rw [heq'] at hfirst
      exact List.forall_mem_cons.2 ⟨hfirst, furtherElements_value r'⟩
termination_by (s.length, 0)

theorem closureTail_yields (s : List Char) : (closureTail s).Yields fun tail => Parsed tail.2.2 := by
  rw [closureTail]
  split
  rename_i isAsync r h heq
  split
  rename_i canThrow r' h' heq'
  split
  · trivial
  · rename_i r'' h'' heq''
    simp only [Reading.yields_within, Reading.yields_after, Reading.yields_map]
    exact typeExpr_yields r''
termination_by (s.length, 0)
decreasing_by simp [Prod.lex_def]; omega

theorem parenthesized_yields (s : List Char) : (parenthesized s).Yields Parsed := by
  rw [parenthesized]
  split
  · trivial
  · rename_i r h heq
    have helements := elements_value r
    split
    rename_i es r' h' heq'
    rw [heq'] at helements
    split
    · trivial
    · rename_i r'' h'' heq''
      have htail := closureTail_yields r''
      split
      · rename_i isAsync canThrow t rest hrest htailEq
        rw [htailEq] at htail
        refine .closure ?_ htail
        intro t ht
        obtain ⟨e, he, rfl⟩ := List.mem_map.1 ht
        exact (helements e he).value
      · exact parsed_group helements
termination_by (s.length, 0)

end

end Grammar

/-- **The type that a text spells** is one that the grammar makes. -/
theorem parsed_of_parse {text : String} {t : TypeExpr} (h : parse text = .ok t) : Parsed t := by
  have hyields := typeExpr_yields (skipGaps text.toList)
  unfold parse at h
  simp only at h
  split at h
  · cases h
  · split at h
    · cases h
    · rename_i heq
      rw [heq] at hyields
      split at h
      · cases h
        exact hyields
      · cases h

end Wiring.TypeExpr
