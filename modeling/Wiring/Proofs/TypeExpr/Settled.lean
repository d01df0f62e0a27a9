import Wiring.Proofs.TypeExpr.Order
import Wiring.Proofs.TypeExpr.Parsed
import Wiring.Proofs.TypeExpr.Roundtrip

/-!
# Rendering what was read

A text that is read as a type is written again as the type's canonical text. What that text is read as may
be another type: attributes of attributes are joined, and a composition of one member becomes the member.
But it has the same canonical text, from which it is read back.

Some types lose a part of their text, or their text cannot be read at all, because parentheses are
missing. `keepsText` says of which types this does not hold.

* `settled`: the type that is read from the canonical text of a type.
* `keepsText`: where no parentheses are missing.
* `settles`: settling keeps the text; `legible_settled`: what is settled is read back.
* `source_read_back`: rendering is a fixed point on the types that keep their text.
* `constrained_attributes_not_read_back`: on the others it need not be.
-/

namespace Wiring.TypeExpr

open Text Grammar

/-! ## Settled types -/

/-- The type with more attributes in front; those that it has already follow them. -/
def withAttributes (as : List String) : TypeExpr → TypeExpr
  | .attributed t spec as' => .attributed t spec (as ++ as')
  | t => .attributed t none as

mutual

/-- **The type that is read from the canonical text of a type.** -/
def settled : TypeExpr → TypeExpr
  | .simple n gs => .simple n (settledAll gs)
  | .nested n p gs => .nested n (settled p) (settledAll gs)
  | .composition [m] => settled m
  | .composition ms => .composition (settledAll ms)
  | .optional t => .optional (settled t)
  | .forced t => .forced (settled t)
  | .someOf t => .someOf (settled t)
  | .anyOf t => .anyOf (settled t)
  | .metatype t isType => .metatype (settled t) isType
  | .attributed t none as => withAttributes as (settled t)
  | .attributed t (some w) as => .attributed (settled t) (some w) as
  | .array t => .array (settled t)
  | .dictionary k v => .dictionary (settled k) (settled v)
  | .tuple es => .tuple (settledElements es)
  | .closure ts isAsync canThrow t => .closure (settledAll ts) isAsync canThrow (settled t)
  | .unknown text => .unknown text

/-- Settled types of a list. -/
def settledAll : List TypeExpr → List TypeExpr
  | [] => []
  | t :: ts => settled t :: settledAll ts

/-- Tuple elements with settled types. -/
def settledElements : List (Labelled TypeExpr) → List (Labelled TypeExpr)
  | [] => []
  | ⟨label, t⟩ :: es => ⟨label, settled t⟩ :: settledElements es

end

mutual

/-- **No parentheses are missing** in the canonical text of the type, where it stands at `place`. They are
missing around attributes and a specifier directly below `some`, `any` or another specifier, and around
several members if the first one is a name that is taken for a specifier. A composition of one member has
the parentheses of that member, which are lost unless it is an operand. And of two members with the same
text one is lost. -/
def keepsText (place : Place) : TypeExpr → Bool
  | .simple _ gs => allKeepText .whole gs
  | .nested _ p gs => keepsText .operand p && allKeepText .whole gs
  | .composition [m] => (place = .operand || !needsGrouping m) && keepsText .operand m
  | .composition ms =>
    (place = .constraint || !ms.head?.any isSpecifierName) && (ms.map source).Nodup &&
      allKeepText .operand ms
  | .optional t | .forced t | .metatype t _ => keepsText .operand t
  | .someOf t | .anyOf t => !t.isAttributed && keepsText .constraint t
  | .attributed t spec _ => !(spec.isSome && t.isAttributed) && keepsText (.after spec) t
  | .array t => keepsText .whole t
  | .dictionary k v => keepsText .whole k && keepsText .whole v
  | .tuple es => elementsKeepText es
  | .closure ts _ _ t => allKeepText .whole ts && keepsText .whole t
  | .unknown _ => true

/-- No parentheses are missing in several types. -/
def allKeepText (place : Place) : List TypeExpr → Bool
  | [] => true
  | t :: ts => keepsText place t && allKeepText place ts

/-- No parentheses are missing in the elements of a tuple. -/
def elementsKeepText : List (Labelled TypeExpr) → Bool
  | [] => true
  | ⟨_, t⟩ :: es => keepsText .whole t && elementsKeepText es

end

variable {t : TypeExpr} {ts ms : List TypeExpr} {es : List (Labelled TypeExpr)} {place : Place}

theorem settledAll_eq_map (ts : List TypeExpr) : settledAll ts = ts.map settled := by
  induction ts with
  | nil => rfl
  | cons t ts ih => rw [settledAll, ih, List.map_cons]

theorem settledElements_eq_map (es : List (Labelled TypeExpr)) :
    settledElements es = es.map fun e => ⟨e.label, e.value.settled⟩ := by
  induction es with
  | nil => rfl
  | cons e es ih => rw [settledElements, ih, List.map_cons]

theorem allKeepText_iff : allKeepText place ts = true ↔ ∀ t ∈ ts, t.keepsText place = true := by
  induction ts with
  | nil => simp [allKeepText]
  | cons t ts ih => simp [allKeepText, ih]

theorem elementsKeepText_iff :
    elementsKeepText es = true ↔ ∀ e ∈ es, e.value.keepsText .whole = true := by
  induction es with
  | nil => simp [elementsKeepText]
  | cons e es ih => simp [elementsKeepText, ih]

/-- Where a specifier may stand before a type, and it needs no parentheses, most is asked of it. -/
theorem keepsText_of_whole (h : t.keepsText .whole = true) : t.keepsText place = true := by
  unfold keepsText at h ⊢
  split at h <;> simp_all

/-- The place of a type matters only if it is a composition. -/
theorem keepsText_whole (h : t.keepsText place = true) (hplain : t.isComposition = false) :
    t.keepsText .whole = true := by
  cases t <;> first | exact h | cases hplain

/-- Several members settle one by one. -/
theorem settled_composition (m m' : TypeExpr) (ms : List TypeExpr) :
    (composition (m :: m' :: ms)).settled = composition (settledAll (m :: m' :: ms)) := by
  rw [settled]
  exact nofun

/-! ## Settling keeps the kind of a type -/

theorem needsGrouping_tuple (h : isSingle es = false) : needsGrouping (.tuple es) = false := by
  unfold needsGrouping
  split <;> first | rfl | simp_all [isSingle]

theorem isSingle_settledElements (es : List (Labelled TypeExpr)) :
    isSingle (settledElements es) = isSingle es := by
  match es with
  | [] | [⟨none, _⟩] | [⟨some _, _⟩] => rfl
  | _ :: _ :: _ => simp [isSingle, settledElements]

/-- The types agree in what their surroundings see of them. -/
structure SameKind (t u : TypeExpr) : Prop where
  composition : t.isComposition = u.isComposition
  attributed : t.isAttributed = u.isAttributed
  nominal : t.isNominal = u.isNominal
  specifierName : t.isSpecifierName = u.isSpecifierName
  grouping : needsGrouping t = needsGrouping u

/-- **A type that is no composition keeps its kind.** -/
theorem sameKind_settled (hparsed : Parsed t) (hplain : t.isComposition = false) :
    SameKind t.settled t := by
  cases hparsed with
  | composition => cases hplain
  | @simple n gs => cases gs <;> exact ⟨rfl, rfl, rfl, rfl, rfl⟩
  | @attributed t spec as =>
    cases spec with
    | none =>
      rw [settled]
      cases t.settled <;> exact ⟨rfl, rfl, rfl, rfl, rfl⟩
    | some w => exact ⟨rfl, rfl, rfl, rfl, rfl⟩
  | @tuple es hsingle =>
    have hsettled : isSingle (settledElements es) = false := by rw [isSingle_settledElements, hsingle]
    rw [settled]
    exact ⟨rfl, rfl, rfl, rfl, by rw [needsGrouping_tuple hsingle, needsGrouping_tuple hsettled]⟩
  | _ => exact ⟨rfl, rfl, rfl, rfl, rfl⟩

theorem isComposition_of_isNominal (h : t.isNominal = true) : t.isComposition = false := by
  cases t <;> first | rfl | cases h

/-- Settling brings no attributes to the front of a type that keeps its text. -/
theorem isAttributed_settled (hparsed : Parsed t) (hkeeps : t.keepsText place = true)
    (hplace : place ≠ .operand) (hplain : t.isAttributed = false) :
    t.settled.isAttributed = false := by
  by_cases hcomposition : t.isComposition = true
  · cases hparsed with
    | @composition ms hne hmembers _ hms =>
      match ms, hne with
      | [m], _ =>
        -- a single member with attributes would need parentheses
        simp only [keepsText, Bool.and_eq_true, Bool.or_eq_true, decide_eq_true_eq, hplace, false_or,
          Bool.not_eq_true'] at hkeeps
        have hkind := sameKind_settled (hms m List.mem_cons_self) (hmembers m List.mem_cons_self)
        rw [settled, hkind.attributed]
        cases m <;> first | rfl | simp [needsGrouping] at hkeeps
      | _ :: _ :: _, _ => rfl
    | _ => cases hcomposition
  · rw [(sameKind_settled hparsed (by simpa using hcomposition)).attributed, hplain]

/-! ## Settling keeps the layout -/

/-- **What settles keeps its layout** where it stands, up to the parentheses that it needs there. -/
structure Settles (t : TypeExpr) : Prop where
  whole : ∀ {place : Place}, t.keepsText place = true → place ≠ .operand → t.settled.pieces = t.pieces
  operand : t.keepsText .operand = true →
    grouped (needsGrouping t.settled) t.settled.pieces = grouped (needsGrouping t) t.pieces

theorem Settles.of_pieces (hparsed : Parsed t) (hplain : t.isComposition = false)
    (h : t.keepsText .whole = true → t.settled.pieces = t.pieces) : Settles t := by
  refine ⟨fun hkeeps _ => h (keepsText_whole hkeeps hplain), ?_⟩
  intro hkeeps
  rw [(sameKind_settled hparsed hplain).grouping, h (keepsText_whole hkeeps hplain)]

theorem piecesAll_settled (h : ∀ t ∈ ts, Settles t) (hkeeps : allKeepText .whole ts = true) :
    piecesAll (settledAll ts) = piecesAll ts := by
  rw [settledAll_eq_map, piecesAll_eq_map, piecesAll_eq_map, List.map_map]
  exact List.map_congr_left fun t ht => (h t ht).whole (allKeepText_iff.1 hkeeps t ht) (by decide)

theorem groupedAll_settled (h : ∀ t ∈ ts, Settles t) (hkeeps : allKeepText .operand ts = true) :
    groupedAll (settledAll ts) = groupedAll ts := by
  rw [settledAll_eq_map, groupedAll_eq_map, groupedAll_eq_map, List.map_map]
  exact List.map_congr_left fun t ht => (h t ht).operand (allKeepText_iff.1 hkeeps t ht)

theorem elementPieces_settled (h : ∀ e ∈ es, Settles e.value) (hkeeps : elementsKeepText es = true) :
    elementPieces (settledElements es) = elementPieces es := by
  rw [settledElements_eq_map, elementPieces_eq_map, elementPieces_eq_map, List.map_map]
  refine List.map_congr_left ?_
  rintro ⟨_ | label, t⟩ he <;>
    simp [elementLayout, (h _ he).whole (elementsKeepText_iff.1 hkeeps _ he) (by decide)]

theorem pieces_tuple_of_not_single (h : isSingle es = false) :
    (tuple es).pieces = Piece.enclosed "(" ")" (Piece.commaSeparated (elementPieces es)) := by
  refine pieces_tuple ?_
  rintro t rfl
  cases h

theorem pieces_withAttributes (as : List String) (t : TypeExpr) :
    (withAttributes as t).pieces = decorationPieces as none ++ t.pieces := by
  cases t <;> simp [withAttributes, pieces, decorationPieces]

theorem settles_composition {m m' : TypeExpr} (h : ∀ n ∈ m :: m' :: ms, Settles n) :
    Settles (composition (m :: m' :: ms)) := by
  have hpieces : ∀ {place : Place}, (composition (m :: m' :: ms)).keepsText place = true →
      (composition (m :: m' :: ms)).settled.pieces = (composition (m :: m' :: ms)).pieces := by
    intro place hkeeps
    simp only [keepsText, Bool.and_eq_true] at hkeeps
    rw [settled_composition, pieces, pieces, groupedAll_settled h hkeeps.2]
  refine ⟨fun hkeeps _ => hpieces hkeeps, ?_⟩
  intro hkeeps
  rw [hpieces hkeeps]
  rfl

theorem settles_composition_singleton {m : TypeExpr} (hplain : m.isComposition = false)
    (h : Settles m) : Settles (composition [m]) := by
  refine ⟨?_, ?_⟩
  · intro place hkeeps hplace
    simp only [keepsText, Bool.and_eq_true, Bool.or_eq_true, decide_eq_true_eq, hplace, false_or,
      Bool.not_eq_true'] at hkeeps
    have hpieces := h.whole (keepsText_whole hkeeps.2 hplain) (by decide)
    rw [settled, hpieces, pieces_composition_singleton, hkeeps.1]
    rfl
  · intro hkeeps
    simp only [keepsText, Bool.and_eq_true] at hkeeps
    rw [settled, h.operand hkeeps.2, pieces_composition_singleton]
    rfl

theorem Place.after_ne_operand (spec : Option String) : Place.after spec ≠ .operand := by
  cases spec <;> exact nofun

/-- **Every type that the grammar makes settles.** -/
theorem settles (h : Parsed t) : Settles t := by
  -- the place of a type matters only if it is a composition: the other cases are about its pieces alone
  induction h with
  | simple hn hgs ih =>
    refine .of_pieces (.simple hn hgs) rfl ?_
    intro hkeeps
    rw [settled, pieces, pieces, piecesAll_settled ih hkeeps]
  | nested hn htype hprotocol hnominal ht hgs iht ihgs =>
    refine .of_pieces (.nested hn htype hprotocol hnominal ht hgs) rfl ?_
    intro hkeeps
    simp only [keepsText, Bool.and_eq_true] at hkeeps
    have hparent := keepsText_whole hkeeps.1 (isComposition_of_isNominal hnominal)
    rw [settled, pieces, pieces, iht.whole hparent (by decide), piecesAll_settled ihgs hkeeps.2]
  | @composition ms hne hplain hsorted hms ih =>
    match ms, hne with
    | [m], _ =>
      exact settles_composition_singleton (hplain m List.mem_cons_self)
        (ih m List.mem_cons_self)
    | m :: m' :: ms, _ => exact settles_composition ih
  | optional ht ih =>
    refine .of_pieces (.optional ht) rfl ?_
    intro hkeeps
    rw [settled, pieces, pieces, ih.operand hkeeps]
  | forced ht ih =>
    refine .of_pieces (.forced ht) rfl ?_
    intro hkeeps
    rw [settled, pieces, pieces, ih.operand hkeeps]
  | metatype ht ih =>
    refine .of_pieces (.metatype ht) rfl ?_
    intro hkeeps
    rw [settled, pieces, pieces, ih.operand hkeeps]
  | someOf ht ih =>
    refine .of_pieces (.someOf ht) rfl ?_
    intro hkeeps
    simp only [keepsText, Bool.and_eq_true] at hkeeps
    rw [settled, pieces, pieces, ih.whole hkeeps.2 (by decide)]
  | anyOf ht ih =>
    refine .of_pieces (.anyOf ht) rfl ?_
    intro hkeeps
    simp only [keepsText, Bool.and_eq_true] at hkeeps
    rw [settled, pieces, pieces, ih.whole hkeeps.2 (by decide)]
  | @attributed t spec as hsome hspec has ht ih =>
    refine .of_pieces (.attributed hsome hspec has ht) rfl ?_
    intro hkeeps
    simp only [keepsText, Bool.and_eq_true] at hkeeps
    have hbase := ih.whole hkeeps.2 (Place.after_ne_operand spec)
    cases spec with
    | none => rw [settled, pieces_withAttributes, pieces, hbase]
    | some w => rw [settled, pieces, pieces, hbase]
  | array ht ih =>
    refine .of_pieces (.array ht) rfl ?_
    intro hkeeps
    rw [settled, pieces, pieces, ih.whole hkeeps (by decide)]
  | dictionary hk hv ihk ihv =>
    refine .of_pieces (.dictionary hk hv) rfl ?_
    intro hkeeps
    simp only [keepsText, Bool.and_eq_true] at hkeeps
    rw [settled, pieces, pieces, ihk.whole hkeeps.1 (by decide), ihv.whole hkeeps.2 (by decide)]
  | @tuple es hsingle hlabels hes ih =>
    refine .of_pieces (.tuple hsingle hlabels hes) rfl ?_
    intro hkeeps
    have hsettled : isSingle (settledElements es) = false := by rw [isSingle_settledElements, hsingle]
    rw [settled, pieces_tuple_of_not_single hsettled, pieces_tuple_of_not_single hsingle,
      elementPieces_settled ih hkeeps]
  | closure hts ht ihts iht =>
    refine .of_pieces (.closure hts ht) rfl ?_
    intro hkeeps
    simp only [keepsText, Bool.and_eq_true] at hkeeps
    rw [settled, pieces, pieces, piecesAll_settled ihts hkeeps.1, iht.whole hkeeps.2 (by decide)]

/-- **A settled type has the same text.** -/
theorem source_settled (h : Parsed t) (hkeeps : t.keepsText place = true) (hplace : place ≠ .operand) :
    t.settled.source = t.source := by
  rw [source, source, (settles h).whole hkeeps hplace]

/-! ## What is settled is legible -/

/-- Types with different texts are ordered by their texts. -/
theorem compare_eq_of_source_ne {a b : TypeExpr} (h : a.source ≠ b.source) :
    compare a b = Ord.compare a.source b.source := by
  have hne : a ≠ b := by
    rintro rfl
    exact h rfl
  rw [compare, if_neg hne]
  cases hcompare : Ord.compare a.source b.source with
  | eq => exact absurd (Std.LawfulEqOrd.eq_of_compare hcompare) h
  | lt | gt => rfl

/-- Settling leaves the members of a composition in order, if their texts differ. -/
theorem compose_settledAll (hparsed : ∀ m ∈ ms, Parsed m) (hplain : ∀ m ∈ ms, m.isComposition = false)
    (hsorted : sortedSet compare ms = ms) (hne : (ms.map source).Nodup)
    (hkeeps : ∀ m ∈ ms, m.keepsText .operand = true) :
    compose (settledAll ms) = .composition (settledAll ms) := by
  rw [settledAll_eq_map]
  have hmembers : (ms.map settled).flatMap members = ms.map settled := by
    refine flatMap_members (List.forall_mem_map.2 ?_)
    intro m hm
    rw [(sameKind_settled (hparsed m hm) (hplain m hm)).composition, hplain m hm]
  have hascending : ms.Pairwise fun a b => compare a b = .lt := by
    rw [← hsorted]
    exact pairwise_sortedSet ms
  have hsource : ∀ m ∈ ms, m.settled.source = m.source := fun m hm =>
    source_settled (hparsed m hm) (keepsText_whole (hkeeps m hm) (hplain m hm)) (by decide)
  have hsettled : (ms.map settled).Pairwise fun a b => compare a b = .lt := by
    rw [List.pairwise_map]
    refine (hascending.and (List.pairwise_map.1 hne)).imp_of_mem ?_
    rintro a b ha hb ⟨hlt, hne⟩
    rw [compare_eq_of_source_ne (by rwa [hsource a ha, hsource b hb]), hsource a ha, hsource b hb,
      ← compare_eq_of_source_ne hne, hlt]
  -- what ascends is sorted already, and no member occurs twice
  have hset : sortedSet compare (ms.map settled) = ms.map settled := by
    refine sortedSet_eq_self (hsettled.imp fun h => by rw [h]; rfl) ?_
    refine (hsettled.imp ?_).isChain
    rintro a _ hlt rfl
    have hself : compare a a = .eq := Std.ReflCmp.compare_self
    rw [hself] at hlt
    cases hlt
  rw [compose, hmembers, hset]

/-- More attributes are read with those that follow them. -/
theorem legible_withAttributes {as : List String} (h : Legible true .whole t) (hne : as ≠ [])
    (has : ∀ a ∈ as, isIdentifier a = true) : Legible true place (withAttributes as t) := by
  by_cases hattributed : t.isAttributed = true
  · cases h with
    | attributed _ hspec hattributes hplain ht =>
      refine .attributed (.inl (by simp [hne])) hspec ?_ hplain ht
      exact List.forall_mem_append.2 ⟨has, hattributes⟩
    | _ => cases hattributed
  · have hplain : t.isAttributed = false := by simpa using hattributed
    have hself : withAttributes as t = .attributed t none as := by
      cases t <;> first | rfl | cases hplain
    rw [hself]
    exact .attributed (.inl hne) nofun has hplain h

/-- **A composition of several members settles member by member.** -/
theorem legible_composition {m m' : TypeExpr} (hplain : ∀ n ∈ m :: m' :: ms, n.isComposition = false)
    (hsorted : sortedSet compare (m :: m' :: ms) = m :: m' :: ms)
    (hparsed : ∀ n ∈ m :: m' :: ms, Parsed n)
    (hmembers : ∀ n ∈ m :: m' :: ms, n.keepsText .operand = true → Legible true .operand n.settled)
    (hkeeps : (composition (m :: m' :: ms)).keepsText place = true) :
    Legible true place (composition (m :: m' :: ms)).settled := by
  simp only [keepsText, Bool.and_eq_true, Bool.or_eq_true, decide_eq_true_eq, Bool.not_eq_true']
    at hkeeps
  obtain ⟨⟨hfirst, hne⟩, hkept⟩ := hkeeps
  have hall := allKeepText_iff.1 hkept
  rw [settled_composition]
  refine .composition (compose_settledAll hparsed hplain hsorted hne hall)
    (by simp [settledAll]) (hfirst.imp_right ?_) ?_
  · intro hname n hn
    obtain rfl : m.settled = n := by simpa [settledAll] using hn
    rw [(sameKind_settled (hparsed m List.mem_cons_self) (hplain m List.mem_cons_self)).specifierName]
    simpa using hname
  · rw [settledAll_eq_map, List.forall_mem_map]
    exact fun n hn => hmembers n hn (hall n hn)

/-- **What is settled is legible** in the narrow text, wherever the type keeps its text. -/
theorem legible_settled (h : Parsed t) : ∀ {place : Place}, t.keepsText place = true →
    Legible true place t.settled := by
  -- the place is left general: a single member is legible wherever its composition stands
  induction h with
  | simple hn hgs ih =>
    intro place hkeeps
    rw [settled, settledAll_eq_map]
    exact .simple hn (fun _ => rfl)
      (List.forall_mem_map.2 fun t ht => ih t ht (allKeepText_iff.1 hkeeps t ht))
  | nested hn htype hprotocol hnominal ht hgs iht ihgs =>
    intro place hkeeps
    simp only [keepsText, Bool.and_eq_true] at hkeeps
    have hkind := (sameKind_settled ht (isComposition_of_isNominal hnominal)).nominal
    rw [settled, settledAll_eq_map]
    exact .nested hn htype hprotocol (hkind.trans hnominal) (iht hkeeps.1)
      (List.forall_mem_map.2 fun t ht => ihgs t ht (allKeepText_iff.1 hkeeps.2 t ht))
  | @composition ms hne hplain hsorted hms ih =>
    intro place hkeeps
    match ms, hne with
    | [m], _ =>
      simp only [keepsText, Bool.and_eq_true] at hkeeps
      have hwhole := keepsText_whole hkeeps.2 (hplain m List.mem_cons_self)
      exact ih m List.mem_cons_self (keepsText_of_whole hwhole)
    | m :: m' :: ms, _ => exact legible_composition hplain hsorted hms (fun n hn => ih n hn) hkeeps
  | optional _ ih => exact fun hkeeps => .optional (ih hkeeps)
  | forced _ ih => exact fun hkeeps => .forced (ih hkeeps)
  | metatype _ ih => exact fun hkeeps => .metatype (ih hkeeps)
  | array _ ih => exact fun hkeeps => .array (ih hkeeps)
  | someOf ht ih =>
    intro place hkeeps
    simp only [keepsText, Bool.and_eq_true, Bool.not_eq_true'] at hkeeps
    exact .someOf (isAttributed_settled ht hkeeps.2 (by decide) hkeeps.1) (ih hkeeps.2)
  | anyOf ht ih =>
    intro place hkeeps
    simp only [keepsText, Bool.and_eq_true, Bool.not_eq_true'] at hkeeps
    exact .anyOf (isAttributed_settled ht hkeeps.2 (by decide) hkeeps.1) (ih hkeeps.2)
  | @attributed t spec as hsome hspec has ht ih =>
    intro place hkeeps
    simp only [keepsText, Bool.and_eq_true, Bool.not_eq_true'] at hkeeps
    have hbase := ih hkeeps.2
    cases spec with
    | none =>
      have hattributes : as ≠ [] := hsome.resolve_right (by simp)
      exact legible_withAttributes hbase hattributes has
    | some w =>
      have hplain : t.isAttributed = false := by simpa using hkeeps.1
      have hsettled := isAttributed_settled ht hkeeps.2 (Place.after_ne_operand _) hplain
      exact .attributed hsome hspec has hsettled hbase
  | dictionary _ _ ihk ihv =>
    intro place hkeeps
    simp only [keepsText, Bool.and_eq_true] at hkeeps
    exact .dictionary (ihk hkeeps.1) (ihv hkeeps.2)
  | @tuple es hsingle hlabels _ ih =>
    intro place hkeeps
    have hsettled : isSingle (settledElements es) = false := by rw [isSingle_settledElements, hsingle]
    rw [settled]
    refine .tuple hsettled ?_ ?_ <;> rw [settledElements_eq_map, List.forall_mem_map]
    · exact hlabels
    · exact fun e he => ih e he (elementsKeepText_iff.1 hkeeps e he)
  | closure _ _ ihts iht =>
    intro place hkeeps
    simp only [keepsText, Bool.and_eq_true] at hkeeps
    rw [settled, settledAll_eq_map]
    exact .closure (List.forall_mem_map.2 fun t ht => ihts t ht (allKeepText_iff.1 hkeeps.1 t ht))
      (iht hkeeps.2)

/-! ## The text of a type that was read -/

/-- **The settled type is read from the canonical text.** -/
theorem parse_source_settled (h : Parsed t) (hkeeps : t.keepsText .whole = true) :
    parse t.source = .ok t.settled := by
  have hwhole := ((legible_settled h hkeeps).readsAt.readable nofun).whole
  have htext : SpellsIn true t.settled.pieces t.source.toList := by
    rw [(settles h).whole hkeeps (by decide)]
    exact spellsIn_source true t
  have hparse : parse ("" ++ t.source ++ "") = .ok t.settled :=
    parse_of_isWhole hwhole (by decide) (by decide) (fun _ => rfl) htext
  rwa [String.empty_append, String.append_empty] at hparse

/-- **Rendering is a fixed point on types that were read** and keep their text: the canonical text is read
as a type with the same canonical text. -/
theorem source_read_back {text : String} (h : parse text = .ok t) (hkeeps : t.keepsText .whole = true) :
    ∃ u, parse t.source = .ok u ∧ u.source = t.source := by
  have hparsed := parsed_of_parse h
  exact ⟨t.settled, parse_source_settled hparsed hkeeps, source_settled hparsed hkeeps (by decide)⟩

/-- A type with names that are specifiers as well, in a place where one may stand and in one where none
may. -/
def portTable : TypeExpr :=
  .dictionary (.simple "inout" [])
    (.attributed (.someOf (.composition [.simple "inout" [], .simple "zone" []])) none ["a", "b"])

/-- Names that are specifiers are kept where nothing takes them for one. -/
theorem portTable_read_back :
    parse "[inout: @a @b some inout & zone]" = .ok portTable ∧ portTable.keepsText .whole = true ∧
      ∃ u, parse portTable.source = .ok u ∧ u.source = portTable.source := by
  have hsorted : sortedSet compare [.simple "inout" [], .simple "zone" []] =
      [.simple "inout" [], .simple "zone" []] :=
    sortedSet_eq_self (by decide +kernel) (by decide)
  have hname : ∀ n, isIdentifier n = true → Parsed (.simple n []) :=
    fun n hn => .simple hn (List.forall_mem_nil _)
  have hmembers : Parsed (.composition [.simple "inout" [], .simple "zone" []]) :=
    .composition (by decide) (by decide) hsorted
      (List.forall_mem_cons.2
        ⟨hname _ (by decide), List.forall_mem_singleton.2 (hname _ (by decide))⟩)
  have hparsed : Parsed portTable :=
    .dictionary (hname _ (by decide))
      (.attributed (.inl (by decide)) nofun (by decide) (.someOf hmembers))
  have hkeeps : portTable.keepsText .whole = true := by decide
  have hsource : portTable.source = "[inout: @a @b some inout & zone]" := by decide
  have hparse := parse_source_settled hparsed hkeeps
  rw [hsource] at hparse
  exact ⟨hparse, hkeeps, source_read_back hparse hkeeps⟩

/-! ## Missing parentheses -/

/-- A type with an attribute. -/
def taggedView : TypeExpr :=
  .attributed (.simple "View" []) none ["a"]

/-- Below `some`, a type with an attribute is read from parentheses. -/
theorem parse_some_taggedView : parse "some (@a View)" = .ok (.someOf taggedView) := by
  have hview : Readable false taggedView := readable taggedView (by decide) (by decide)
  have hspells : SpellsIn false (grouped (needsGrouping taggedView) taggedView.pieces)
      "(@a View)".toList := by
    show Spells _ _
    decide
  have hgroup := (hview.operand.constrained_readsBack hspells ends_nil).2
  have hbase := composition_of_constrained hgroup follows_nil
  have hsome : (constrained "some (@a View)".toList).Reads (.someOf taggedView) [] :=
    constrained_reads (constraint_some (g := [' ']) (by decide) (by decide) rfl) hbase
  have htype := typeExpr_reads (attributes_nothing (by decide)) (specifier_nothing (by decide))
    (composition_of_constrained hsome follows_nil)
  exact parse_reads (by decide) htype rfl

/-- Without the parentheses `some` is read as a name, and the rest is left over. -/
theorem parse_some_without_parentheses (u : TypeExpr) : parse "some @a View" ≠ .ok u := by
  have hname : (suffixed "some @a View".toList).Reads (.simple "some" []) " @a View".toList :=
    suffixed_reads_name (n := "some") (by decide)
      (endsWord_append (g := [' ']) (by decide) (by decide) _) (by decide) (memberName_fails (by decide))
      (suffix_eq_none (by decide) (by decide) (by decide))
  obtain ⟨_, hfound⟩ : ∃ h, constraint "some @a View".toList = some (.someOf, ⟨"@a View".toList, h⟩) :=
    constraint_some (g := [' ']) (by decide) (by decide) rfl
  -- what stands after the word begins with an attribute, and so it is no composition
  have hfails : (Grammar.composition "@a View".toList).Fails := by
    refine composition_fails ?_
    intro c hc
    obtain rfl : '@' = c := by simpa using hc
    decide
  have hconstrained := constrained_of_fails hfound hfails hname
  have hcomposition :=
    composition_reads hconstrained (furtherMembers_nothing (separator_eq_none (by decide)))
  have hleft := typeExpr_reads (attributes_nothing (by decide)) (specifier_nothing (by decide))
    hcomposition
  have hskip : skipGaps "some @a View".toList = "some @a View".toList := by decide
  rw [← hskip] at hleft
  exact parse_ne_ok hleft (by decide) u

/-- **Attributes directly below `some` are not read back**: they are written without the parentheses that
they were read from. -/
theorem constrained_attributes_not_read_back :
    ¬ ∀ text t, parse text = .ok t → ∃ u, parse t.source = .ok u ∧ u.source = t.source := by
  intro h
  obtain ⟨u, hu, -⟩ := h _ _ parse_some_taggedView
  have hsource : (TypeExpr.someOf taggedView).source = "some @a View" := by decide
  rw [hsource] at hu
  exact parse_some_without_parentheses u hu

end Wiring.TypeExpr
