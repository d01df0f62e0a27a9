import Wiring.Proofs.Emission.Calls
import Wiring.Proofs.Program
import Wiring.Proofs.Text.Layout
import Wiring.Proofs.TypeExpr.Constructors

/-!
# The code is laid out by depth

Each declaration is a piece of code that leads from the depth zero back to it: a constant is one line, and a
function is a line that opens a brace, its body one step further in, a line that gives a value back, and the
brace that closes it. A closure opens and closes its brace in one line. The labels and types in between can
change nothing, as long as they have no braces and no ends of lines in them.

* `RootEmission.Mentions`: the labels and the types of a root's tree.
* `Emission.laidOut_constant`, `Emission.laidOut_functionCode`, `laidOut_extensionCode`: the pieces;
  `Emission.laidOut_calledCode`, `Emission.laidOut_factoryCode`: what is made of them.
* `laidOut_of_contains`: the code of every body, by way of the bodies inside.
* `Registry.code_laid_out`: the code of a root.
-/

namespace Wiring

open Text (IsInline Leads LaidOut IsLaidOut Begins begins_append isInline_append
  isInline_intercalate indent)

variable {registry : Registry} {limit : Nat} {root c : Component} {g : RootEmission} {p q : Property}
  {e : Emission} {name value text : String} {erased : Bool}

/-! ## The texts of a tree -/

/-- The label and the type of a property. -/
def Property.texts (p : Property) : List String :=
  [p.label, p.type.source]

/-- The type of a component, its properties, and the labels at its call. -/
def Component.texts (c : Component) : List String :=
  c.concreteType.source :: c.dependencies.flatMap (·.property.texts) ++
    c.passed.filterMap (·.outerLabel)

/-- The properties and the component of a declaration. -/
def Emission.texts : Emission → List String
  | .built p c _ _ _ | .recursive p c _ => p.texts ++ c.texts
  | .renamed p fulfilling _ => p.texts ++ fulfilling.texts

/-- **A text is a label or a type in the tree** of a root. -/
inductive RootEmission.Mentions (g : RootEmission) : String → Prop
  | root {text : String} : text ∈ g.component.texts → Mentions g text
  | declared {e : Emission} {text : String} : g.Emits e → text ∈ e.texts → Mentions g text

namespace TypeExpr

variable {t u : TypeExpr}

/-- What a generic argument is laid out as is a part of what all of them are. -/
theorem pieces_subset_genericPieces {gs : List TypeExpr} (h : u ∈ gs) :
    u.pieces ⊆ genericPieces (piecesAll gs) := by
  intro piece hpiece
  have hmem : u.pieces ∈ piecesAll gs := by
    rw [Grammar.piecesAll_eq_map]
    exact List.mem_map_of_mem h
  obtain ⟨first, rest, hgs⟩ := List.exists_cons_of_ne_nil (List.ne_nil_of_mem hmem)
  rw [hgs] at hmem ⊢
  have hcommas : piece ∈ Piece.commaSeparated (first :: rest) := by
    rw [Piece.commaSeparated, intercalate_cons]
    rcases List.mem_cons.1 hmem with rfl | hmem
    · exact List.mem_append_left _ hpiece
    · exact List.mem_append_right _
        (List.mem_flatMap.2 ⟨u.pieces, hmem, List.mem_append_right _ hpiece⟩)
  simp [genericPieces, Piece.enclosed, hcommas]

theorem pieces_subset_of_mem_generics (h : u ∈ t.generics) : u.pieces ⊆ t.pieces := by
  cases t with
  | simple n gs => exact List.subset_cons_of_subset _ (pieces_subset_genericPieces h)
  | nested n parent gs =>
    rw [pieces]
    exact List.subset_append_of_subset_right _
      (List.subset_cons_of_subset _ (pieces_subset_genericPieces h))
  | _ => cases h

/-- The characters of a type are those of its pieces. -/
theorem mem_source {ch : Char} :
    ch ∈ t.source.toList ↔ ∃ piece ∈ t.pieces, ch ∈ piece.usual.toList := by
  simp [source, String.toList_join]

/-- The type that a factory makes is written inside the factory's type. -/
theorem isInline_produced (h : IsInline t.source) : IsInline t.produced.source := by
  have hproduced : t.produced = t ∨ t.produced ∈ t.generics := by
    unfold produced
    split
    · exact List.mem_cons.1 List.getLastD_mem_cons
    · exact .inl rfl
  rcases hproduced with hself | hgeneric
  · rwa [hself]
  · intro ch hch
    obtain ⟨piece, hpiece, hch⟩ := mem_source.1 hch
    exact h ch (mem_source.2 ⟨piece, pieces_subset_of_mem_generics hgeneric hpiece, hch⟩)

end TypeExpr

/-! ## Parts of a line -/

namespace Component

theorem isInline_callee (h : ∀ t ∈ c.texts, IsInline t) : IsInline c.callee := by
  have htype : IsInline c.concreteType.source := h _ List.mem_cons_self
  unfold callee
  split
  · rw [isInline_append]
    exact ⟨htype, by decide⟩
  · exact htype

theorem isInline_dependency (h : ∀ t ∈ c.texts, IsInline t) {d : Dependency} (hd : d ∈ c.dependencies) :
    IsInline d.property.label ∧ IsInline d.property.type.source := by
  have hmem : ∀ t ∈ d.property.texts, IsInline t := by
    intro t ht
    refine h t (List.mem_append_left _ (List.mem_cons_of_mem _ ?_))
    exact List.mem_flatMap.2 ⟨d, hd, ht⟩
  exact ⟨hmem _ (by simp [Property.texts]), hmem _ (by simp [Property.texts])⟩

theorem isInline_forwarded (h : ∀ t ∈ c.texts, IsInline t) (hq : q ∈ c.forwarded) :
    IsInline q.label ∧ IsInline q.type.source := by
  obtain ⟨d, hd, -, rfl⟩ := mem_forwarded.1 hq
  exact isInline_dependency h hd

/-- The arguments of a call are written with labels of the component. -/
theorem isInline_arguments (h : ∀ t ∈ c.texts, IsInline t) (htext : c.arguments = .ok text) :
    IsInline text := by
  have hcall : c.argumentList = .ok text := by
    unfold arguments at htext
    cases hlist : c.argumentList <;> rw [hlist] at htext <;> cases htext
    rfl
  obtain ⟨rfl, hperm⟩ := argumentList_eq_ok hcall
  refine isInline_intercalate (by decide) ?_
  intro part hpart
  obtain ⟨a, ha, rfl⟩ := List.mem_map.1 hpart
  have hinner : IsInline a.innerLabel := by
    obtain ⟨d, hd, hproperty⟩ := List.mem_map.1 (hperm.mem_iff.1 (List.mem_map_of_mem ha))
    have hlabel := (isInline_dependency h hd).1
    rwa [hproperty] at hlabel
  have hcolon : IsInline ": " := by decide
  unfold Argument.call
  cases houter : a.outerLabel with
  | none => simp [hinner, hcolon]
  | some label =>
    have hlabel : IsInline label :=
      h _ (List.mem_append_right _ (List.mem_filterMap.2 ⟨a, ha, houter⟩))
    simp only
    split <;> simp [hinner, hcolon, hlabel]

/-- The call that builds a component. -/
theorem isInline_construction (h : ∀ t ∈ c.texts, IsInline t) (htext : c.arguments = .ok text) :
    IsInline (c.callee ++ "(" ++ text ++ ")") := by
  have hparentheses : IsInline "(" ∧ IsInline ")" := by decide
  simp [isInline_callee h, isInline_arguments h htext, hparentheses]

end Component

namespace Emission

theorem isInline_wrapped {type : TypeExpr} (htype : IsInline type.source) (hvalue : IsInline value) :
    IsInline (wrapped erased type value) := by
  have hparentheses : IsInline "(" ∧ IsInline ")" := by decide
  unfold wrapped
  split <;> simp [htype, hvalue, hparentheses]

/-- A label with its type, if that is written out. -/
theorem isInline_annotated {isAnnotated : Bool} (hlabel : IsInline p.label)
    (htype : IsInline p.type.source) :
    IsInline (p.label ++ if isAnnotated then ": " ++ p.type.source else "") := by
  have hcolon : IsInline ": " ∧ IsInline "" := by decide
  cases isAnnotated <;> simp [hlabel, htype, hcolon]

/-- A closure opens a brace and closes it again. -/
theorem leads_closure {wrapper inside : String} (hwrapper : IsInline wrapper)
    (hinside : IsInline inside) : Leads 0 (wrapper ++ " \x7b " ++ inside ++ ") \x7d") 0 := by
  have hopen : Leads 0 " \x7b " 1 := by decide
  have hclose : Leads 1 ") \x7d" 0 := by decide
  exact ((hwrapper.leads.append hopen).append hinside.leads).append hclose

/-- **A factory is one line**, with a closure if something is passed on. -/
theorem leads_factoryExpression (h : ∀ t ∈ c.texts, IsInline t) (htype : IsInline p.type.source)
    (hname : IsInline name) : Leads 0 (factoryExpression p c name) 0 := by
  have hsigns : IsInline "(" ∧ IsInline ")" ∧ IsInline ": " ∧ IsInline " in " := by decide
  have hlabels : ∀ q ∈ c.forwarded, IsInline q.label := fun q hq =>
    (Component.isInline_forwarded h hq).1
  unfold factoryExpression
  cases hforwarded : c.forwarded with
  | nil =>
    -- the function itself is handed over, without a closure
    refine IsInline.leads ?_
    simp [htype, hname, hsigns]
  | cons q qs =>
    rw [hforwarded] at hlabels
    obtain ⟨hq, hqs⟩ := List.forall_mem_cons.1 hlabels
    cases qs with
    | nil =>
      have hinside : IsInline (q.label ++ " in " ++ name ++ "(" ++ q.label ++ ": " ++ q.label) := by
        simp [hq, hname, hsigns]
      simpa only [String.append_assoc] using leads_closure htype hinside
    | cons q' qs =>
      -- the closure takes a tuple apart
      have hparts : ∀ r ∈ q :: q' :: qs, IsInline (r.label ++ ": forwardedProperties." ++ r.label) := by
        intro r hr
        have hdot : IsInline ": forwardedProperties." := by decide
        simp [hlabels r hr, hdot]
      have hcommas : IsInline (commas ((q :: q' :: qs).map
          fun q => q.label ++ ": forwardedProperties." ++ q.label)) :=
        isInline_intercalate (by decide) (List.forall_mem_map.2 hparts)
      have hword : IsInline "forwardedProperties in " := by decide
      have hinside := isInline_append.2 ⟨isInline_append.2 ⟨isInline_append.2 ⟨hword, hname⟩,
        hsigns.1⟩, hcommas⟩
      have hclosure := leads_closure htype hinside
      have hopen : " \x7b forwardedProperties in " = " \x7b " ++ "forwardedProperties in " := rfl
      rw [hopen]
      simpa only [String.append_assoc] using hclosure

/-! ## Pieces of code -/

/-- **A constant is one line.** -/
theorem laidOut_constant (hname : IsInline name) (hvalue : Leads 0 value 0) :
    LaidOut 0 (constant name value) 0 := by
  have hlet : Begins "let ".toList := ⟨'l', "et ".toList, rfl, by decide⟩
  have hinline : IsInline ("let " ++ name ++ " = ") := by
    have hwords : IsInline "let " ∧ IsInline " = " := by decide
    simp [hname, hwords]
  have hbegins : Begins ("let " ++ name ++ " = " ++ value).toList :=
    begins_append (begins_append (begins_append hlet _) _) _
  have hline : LaidOut 0 ("" ++ ("let " ++ name ++ " = " ++ value) ++ "\n") 0 :=
    LaidOut.single rfl hbegins (hinline.leads.append hvalue)
  rwa [String.empty_append] at hline

/-- **A function** leads into a block, through its body and the value it gives back, and out again. -/
theorem laidOut_functionCode {signature body : String} (hbegins : Begins signature.toList)
    (hsignature : IsInline signature) (hbody : LaidOut 0 body 0) (hvalue : IsInline value) :
    LaidOut 0 (functionCode signature body value) 0 := by
  have hopen : Leads 0 " \x7b" 1 := by decide
  have hword : IsInline "return " ∧ Begins "return ".toList :=
    ⟨by decide, 'r', "eturn ".toList, rfl, by decide⟩
  have hhead : LaidOut 0 ("" ++ (signature ++ " \x7b") ++ "\n") 1 :=
    LaidOut.single rfl (begins_append hbegins _) (hsignature.leads.append hopen)
  have hreturn : LaidOut 1 ("    " ++ ("return " ++ value) ++ "\n") 1 :=
    LaidOut.single rfl (begins_append hword.2 _) (hword.1.leads.append hvalue.leads)
  have hend : LaidOut 1 ("" ++ "\x7d" ++ "\n") 0 := LaidOut.closing rfl
  have hfunction := ((hhead.append (hbody.indent 1)).append hreturn).append hend
  -- the same text, cut where its lines end
  have hparts : functionCode signature body value = "" ++ (signature ++ " \x7b") ++ "\n" ++
      indent 1 body ++ ("    " ++ ("return " ++ value) ++ "\n") ++ ("" ++ "\x7d" ++ "\n") := by
    have hopen : " \x7b\n" = " \x7b" ++ "\n" := rfl
    have hreturn : "    return " = "    " ++ "return " := rfl
    have hclose : "\n\x7d\n" = "\n" ++ ("\x7d" ++ "\n") := rfl
    unfold functionCode
    simp only [hopen, hreturn, hclose, String.append_assoc, String.empty_append]
  rwa [hparts]

end Emission

/-- **An extension** leads into two blocks, through the body of the inner one, and out again. -/
theorem laidOut_extensionCode {type signature body last : String} (htype : IsInline type)
    (hsignature : IsInline signature) (hbody : LaidOut 0 body 0) (hbegins : Begins last.toList)
    (hlast : IsInline last) : LaidOut 0 (extensionCode type signature body last) 0 := by
  have hopen : Leads 0 " \x7b" 1 := by decide
  have hfirst : IsInline "extension " ∧ Begins "extension ".toList :=
    ⟨by decide, 'e', "xtension ".toList, rfl, by decide⟩
  have hsecond : IsInline "public " ∧ Begins "public ".toList :=
    ⟨by decide, 'p', "ublic ".toList, rfl, by decide⟩
  have hextension : LaidOut 0 ("" ++ ("extension " ++ type ++ " \x7b") ++ "\n") 1 :=
    LaidOut.single rfl (begins_append (begins_append hfirst.2 _) _)
      ((hfirst.1.leads.append htype.leads).append hopen)
  have hfunction : LaidOut 1 ("    " ++ ("public " ++ signature ++ " \x7b") ++ "\n") 2 :=
    LaidOut.single rfl (begins_append (begins_append hsecond.2 _) _)
      ((hsecond.1.leads.append hsignature.leads).append hopen)
  have hdelegation : LaidOut 2 ("        " ++ last ++ "\n") 2 := LaidOut.single rfl hbegins hlast.leads
  have hinner : LaidOut 2 ("    " ++ "\x7d" ++ "\n") 1 := LaidOut.closing rfl
  have houter : LaidOut 1 ("" ++ "\x7d" ++ "\n") 0 := LaidOut.closing rfl
  have hcode := ((((hextension.append hfunction).append (hbody.indent 2)).append hdelegation).append
    hinner).append houter
  have hparts : extensionCode type signature body last =
      "" ++ ("extension " ++ type ++ " \x7b") ++ "\n" ++
        ("    " ++ ("public " ++ signature ++ " \x7b") ++ "\n") ++ indent 2 body ++
        ("        " ++ last ++ "\n") ++ ("    " ++ "\x7d" ++ "\n") ++ ("" ++ "\x7d" ++ "\n") := by
    have hfirst : " \x7b\n    public " = " \x7b" ++ ("\n" ++ ("    " ++ "public ")) := rfl
    have hsecond : " \x7b\n" = " \x7b" ++ "\n" := rfl
    have hclose : "\n    \x7d\n\x7d\n" = "\n" ++ ("    " ++ ("\x7d" ++ ("\n" ++ ("\x7d" ++ "\n")))) :=
      rfl
    unfold extensionCode
    simp only [hfirst, hsecond, hclose, String.append_assoc, String.empty_append]
  rwa [hparts]

/-! ## The code of a body -/

/-- The name of a function stands inside a line, as the label in it does. -/
theorem Factory.isInline_freshName {declared : List String} (h : IsInline p.label) :
    IsInline (freshName declared p) := by
  have hcandidate : ∀ n, IsInline (candidate (plainName p) n) := by
    intro n
    have hdigits : IsInline (n + 1).repr := by
      intro ch hch hbreak
      rw [Nat.toList_repr] at hch
      have hdigit := Nat.isDigit_of_mem_toDigits (by decide) (by decide) hch
      simp only [List.mem_cons, List.not_mem_nil, or_false] at hbreak
      rcases hbreak with rfl | rfl | rfl | rfl <;> cases hdigit
    have hwords : IsInline "__wg_" ∧ IsInline "_" := by decide
    unfold candidate plainName
    split <;> simp [h, hwords, hdigits]
  unfold freshName
  simp only
  cases hfound : List.find? _ _ with
  | none => exact hcandidate 0
  | some name =>
    obtain ⟨n, -, rfl⟩ := List.mem_map.1 (List.mem_of_find?_eq_some hfound)
    exact hcandidate n

/-- What a declaration uses is named after the label of a property in the tree. -/
theorem RootEmission.Emits.isInline_function {scope : Scope} (h : scope.emit = .ok g)
    (hinline : ∀ t, g.Mentions t → IsInline t) (he : g.Emits e) (huse : e.use? = some (name, c)) :
    IsInline name := by
  obtain ⟨p, d, erased, body, hdeclared, -⟩ := he.exists_declaration h huse
  have hlabel : IsInline p.label :=
    hinline _ (.declared hdeclared (by simp [Emission.texts, Property.texts]))
  obtain ⟨outer, b, hb, hmem⟩ := hdeclared
  obtain ⟨binding, before, after, hemit⟩ := (lowered_of_contains h hb).exists_emit hmem
  cases binding with
  | built q d bindings erased =>
    rcases Binding.emit_built_eq_ok hemit with ⟨-, -, heq, -⟩ | ⟨_, _, -, -, heq⟩ <;> cases heq
    exact Factory.isInline_freshName hlabel
  | recursive q d =>
    obtain ⟨factory, -, heq, -⟩ := Binding.emit_recursive_eq_ok hemit
    cases heq
  | renamed q fulfilling erased => cases hemit

namespace Emission

/-- **A value built by a function** is the function and a line that calls it. -/
theorem laidOut_calledCode {construction inner : String} (hlabel : IsInline p.label)
    (htype : IsInline p.type.source) (hname : IsInline name) (hconstruction : IsInline construction)
    (hinner : LaidOut 0 inner 0) : LaidOut 0 (calledCode p erased name construction inner) 0 := by
  have hwords : IsInline "func " ∧ IsInline "() -> " ∧ IsInline "()" := by decide
  have hfunc : Begins "func ".toList := ⟨'f', "unc ".toList, rfl, by decide⟩
  have hsignature : IsInline ("func " ++ name ++ "() -> " ++ p.type.source) := by
    simp [hname, htype, hwords]
  have hbegins : Begins ("func " ++ name ++ "() -> " ++ p.type.source).toList :=
    begins_append (begins_append (begins_append hfunc _) _) _
  have hvalue : IsInline (wrapped erased p.type construction) := isInline_wrapped htype hconstruction
  have hcall : IsInline (name ++ "()") := by simp [hname, hwords]
  have hfunction := laidOut_functionCode hbegins hsignature hinner hvalue
  exact hfunction.append (laidOut_constant hlabel hcall.leads)

/-- **A factory** is the function that it is made from and a line that makes it. -/
theorem laidOut_factoryCode {construction inner : String} (hlabel : IsInline p.label)
    (htype : IsInline p.type.source) (hcomponent : ∀ t ∈ c.texts, IsInline t) (hname : IsInline name)
    (hconstruction : IsInline construction) (hinner : LaidOut 0 inner 0) :
    LaidOut 0 (factoryCode p c erased name construction inner) 0 := by
  have hsigns : IsInline "(" ∧ IsInline ") -> " ∧ IsInline ": " := by decide
  have hfunc : ∀ isSendable : Bool, IsInline ((if isSendable then "@Sendable " else "") ++ "func ") ∧
      Begins ((if isSendable then "@Sendable " else "") ++ "func ").toList
    | true => ⟨by decide, '@', "Sendable func ".toList, rfl, by decide⟩
    | false => ⟨by decide, 'f', "unc ".toList, rfl, by decide⟩
  have hparameters : IsInline (commas (c.forwarded.map Property.source)) := by
    refine isInline_intercalate (by decide) (List.forall_mem_map.2 fun q hq => ?_)
    simp [Property.source, Component.isInline_forwarded hcomponent hq, hsigns]
  have hproduced := TypeExpr.isInline_produced htype
  have hbegins : Begins (signature p name c.forwarded).toList :=
    begins_append (begins_append (begins_append (begins_append (begins_append (hfunc _).2 _) _) _) _) _
  have hsignature : IsInline (signature p name c.forwarded) := by
    rw [signature, isInline_append, isInline_append, isInline_append, isInline_append, isInline_append]
    exact ⟨⟨⟨⟨⟨(hfunc _).1, hname⟩, hsigns.1⟩, hparameters⟩, hsigns.2.1⟩, hproduced⟩
  have hvalue : IsInline (wrapped erased p.type.produced construction) :=
    isInline_wrapped hproduced hconstruction
  have hfunction := laidOut_functionCode hbegins hsignature hinner hvalue
  exact hfunction.append (laidOut_constant hlabel (leads_factoryExpression hcomponent htype hname))

/-- A value with its declarations in between, in place or by way of a function. -/
theorem laidOut_built {function : Option String} {body : List Emission} {call inner : String}
    (hproperty : IsInline p.label ∧ IsInline p.type.source) (hcomponent : ∀ t ∈ c.texts, IsInline t)
    (hname : ∀ name ∈ function, IsInline name) (hcall : c.arguments = .ok call)
    (hbody : codeAll body = .ok inner) (hinner : LaidOut 0 inner 0)
    (htext : (Emission.built p c erased function body).code = .ok text) : LaidOut 0 text 0 := by
  obtain ⟨hlabel, htype⟩ := hproperty
  have hconstruction := Component.isInline_construction hcomponent hcall
  cases function with
  | none =>
    -- there is code, so the value is not a factory
    obtain rfl : valueCode p c erased (c.callee ++ "(" ++ call ++ ")") = text := by
      rw [code, hcall] at htext
      simp only [bind, Except.bind] at htext
      split at htext <;> cases htext
      rfl
    exact laidOut_constant (isInline_annotated hlabel htype) (isInline_wrapped htype hconstruction).leads
  | some name =>
    have hname := hname name rfl
    rw [code_built_some hcall hbody] at htext
    cases htext
    split
    · exact laidOut_factoryCode hlabel htype hcomponent hname hconstruction hinner
    · exact laidOut_calledCode hlabel htype hname hconstruction hinner

/-- Declarations stand one after the other. -/
theorem laidOut_codeAll {es : List Emission}
    (h : ∀ e ∈ es, ∀ text, e.code = .ok text → LaidOut 0 text 0) :
    ∀ {text : String}, codeAll es = .ok text → LaidOut 0 text 0 := by
  induction es with
  | nil =>
    intro text htext
    cases htext
    exact .empty
  | cons e es ih =>
    intro text htext
    obtain ⟨hfirst, hrest⟩ := List.forall_mem_cons.1 h
    rw [codeAll] at htext
    obtain ⟨first, hfirst', htext⟩ := bind_eq_ok_iff.1 htext
    obtain ⟨rest, hrest', htext⟩ := bind_eq_ok_iff.1 htext
    cases htext
    exact (hfirst _ hfirst').append (ih hrest hrest')

end Emission

/-- **The code of every body leads from the depth zero back to it**, by way of the bodies inside. -/
theorem laidOut_of_contains (h : registry.build limit root = .ok g)
    (hinline : ∀ t, g.Mentions t → IsInline t) {outer : List Enclosure} {b : Body}
    (hb : g.Contains outer b) {text : String} (htext : Emission.codeAll b.declarations = .ok text) :
    LaidOut 0 text 0 := by
  obtain ⟨scope, -, hemit⟩ := Registry.build_eq_ok h
  refine Emission.laidOut_codeAll (fun e he text htext => ?_) htext
  have hemits : g.Emits e := ⟨outer, b, hb, he⟩
  have htexts : ∀ t ∈ e.texts, IsInline t := fun t ht => hinline t (.declared hemits ht)
  cases e with
  | built p c erased function body =>
    -- the body of the value is one of the root's bodies again
    obtain ⟨earlier, later, hsplit⟩ := List.append_of_mem he
    have hinner := RootEmission.Contains.inner hb hsplit
    have hsmaller := List.sizeOf_lt_of_mem he
    obtain ⟨call, hcall⟩ := (emitted_of_contains h hinner).called
    obtain ⟨inner, hbody⟩ := exists_codeAll_of_contains h hinner
    have hlaid := laidOut_of_contains h hinline hinner hbody
    obtain ⟨hproperty, hcomponent⟩ := List.forall_mem_append.1 htexts
    refine Emission.laidOut_built (by simpa [Property.texts] using hproperty) hcomponent ?_
      (Component.exists_arguments hcall) hbody hlaid htext
    rintro name ⟨⟩
    exact hemits.isInline_function hemit hinline rfl
  | recursive p c function =>
    cases htext
    obtain ⟨hproperty, hcomponent⟩ := List.forall_mem_append.1 htexts
    simp only [Property.texts, List.forall_mem_cons] at hproperty
    exact Emission.laidOut_constant hproperty.1 (Emission.leads_factoryExpression hcomponent
      hproperty.2.1 (hemits.isInline_function hemit hinline rfl))
  | renamed p fulfilling erased =>
    cases htext
    simp only [Emission.texts, Property.texts, List.cons_append, List.nil_append,
      List.forall_mem_cons] at htexts
    obtain ⟨hlabel, htype, hfulfilling, -⟩ := htexts
    exact Emission.laidOut_constant (Emission.isInline_annotated hlabel htype)
      (Emission.isInline_wrapped htype hfulfilling).leads
termination_by sizeOf b.declarations
decreasing_by
  simp at hsmaller ⊢
  omega

/-! ## The code of a root -/

/-- **The code of a root is laid out by depth.** Let a root be built, and let the labels and types in its
tree be without braces and ends of lines. Then it has code; this is empty or ends with a line feed; no
more braces are closed than are open anywhere in it, and at its end none is open; and each line stands as
far to the right as there are braces open before it, or one step less if it begins by closing one. -/
theorem Registry.code_laid_out (h : registry.build limit root = .ok g)
    (hinline : ∀ t, g.Mentions t → IsInline t) :
    ∃ code, g.code = .ok code ∧ registry.rootCode limit root = .ok code ∧ IsLaidOut code := by
  obtain ⟨code, hcode, hroot⟩ := rootCode_of_build h
  refine ⟨code, hcode, hroot, LaidOut.isLaidOut ?_⟩
  obtain ⟨body, hbody⟩ := exists_codeAll_of_contains h .root
  have hlaid : LaidOut 0 body 0 := laidOut_of_contains h hinline .root hbody
  obtain ⟨call, hcall⟩ := (emitted_of_build h).2.called
  have hbody : Emission.codeAll g.body = .ok body := hbody
  have hcall : g.component.arguments = .ok call := Component.exists_arguments hcall
  have htexts : ∀ t ∈ g.component.texts, IsInline t := fun t ht => hinline t (.root ht)
  have htype : IsInline g.component.concreteType.source := htexts _ List.mem_cons_self
  have harguments := Component.isInline_arguments htexts hcall
  have hwords : IsInline "self.init(" ∧ IsInline ")" ∧ IsInline "return " := by decide
  have hself : Begins "self.init(".toList := ⟨'s', "elf.init(".toList, rfl, by decide⟩
  have hreturn : Begins "return ".toList := ⟨'r', "eturn ".toList, rfl, by decide⟩
  have hdelegation : ∀ signature, IsInline signature → LaidOut 0 (extensionCode
      g.component.concreteType.source signature body ("self.init(" ++ call ++ ")")) 0 := by
    intro signature hsignature
    refine laidOut_extensionCode htype hsignature hlaid (begins_append (begins_append hself _) _) ?_
    simp [harguments, hwords]
  unfold RootEmission.code at hcode
  simp only [hbody, hcall, bind, Except.bind] at hcode
  split at hcode
  · cases hcode
    exact .empty
  split at hcode <;> cases hcode
  · have hsignature : IsInline "static func instantiate() -> " := by decide
    have hconstruction := Component.isInline_construction htexts hcall
    refine laidOut_extensionCode htype (by simp [hsignature, htype]) hlaid ?_ ?_
    · exact begins_append (begins_append (begins_append (begins_append hreturn _) _) _) _
    · simpa [String.append_assoc, hwords] using hconstruction
  · exact hdelegation _ (by decide)
  · exact hdelegation _ (by decide)
  · exact hdelegation _ (by decide)

/-- The code of the shop opens a function inside a function, and makes a closure there. -/
theorem shop_laid_out :
    Registry.build ⟨[shop, ledger, counter, till]⟩ 256 shop = .ok shopEmission ∧
      (∀ t, shopEmission.Mentions t → IsInline t) ∧
      ∃ code, shopEmission.code = .ok code ∧ IsLaidOut code := by
  have hbuild : Registry.build ⟨[shop, ledger, counter, till]⟩ 256 shop = .ok shopEmission := by
    with_unfolding_all rfl
  have hroot : ∀ t ∈ shopEmission.component.texts, IsInline t := by decide
  have hdeclared : ∀ e ∈ Emission.nodesAll shopEmission.body, ∀ t ∈ e.texts, IsInline t := by decide
  have hinline : ∀ t, shopEmission.Mentions t → IsInline t := by
    rintro t (ht | ⟨he, ht⟩)
    · exact hroot t ht
    · exact hdeclared _ he.mem_nodesAll t ht
  obtain ⟨code, hcode, -, hlaid⟩ := Registry.code_laid_out hbuild hinline
  exact ⟨hbuild, hinline, code, hcode, hlaid⟩

end Wiring
