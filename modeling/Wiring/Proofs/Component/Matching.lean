import Mathlib.Data.List.Induction
import Wiring.Proofs.Component.Arguments
import Wiring.Proofs.Sorted
import Wiring.Proofs.TypeExpr.Order

/-!
# Matching arguments by counting

An initializer hands its arguments the dependencies one by one, and keeps what is left. Which argument gets
one can be told without going through them: an argument is matched if there are more dependencies of its
label and type than arguments of the same before it. What is left after some arguments is, for each label
and type, what the dependencies have more of it than the arguments.

* `Initializer.IsMatched`, `Initializer.matched`: the arguments that get a dependency, by counting.
* `Initializer.assign_append`: arguments one after the other; `Initializer.assign_of_isServed`: what has
  been handed out, and what is left.
* `Initializer.Answers`: what is to be answered, as four rules; `Initializer.argumentList_iff_answers`: it
  is what is answered.
-/

namespace Wiring

namespace Initializer

variable {ds : List Dependency} {arguments earlier later taken : List Argument} {a : Argument}
  {left properties : List Property} {i : Initializer}

/-! ## Counting -/

/-- **An argument is matched** behind some others if fewer of them have its label and type than there are
dependencies with these. -/
def IsMatched (ds : List Dependency) (earlier : List Argument) (a : Argument) : Prop :=
  (earlier.map Argument.property).count a.property < (ds.map (·.property)).count a.property

instance : Decidable (IsMatched ds earlier a) :=
  inferInstanceAs (Decidable (_ < _))

/-- The arguments that are matched, in order. -/
def matched (ds : List Dependency) (arguments : List Argument) : List Argument :=
  (arguments.zipIdx.filter fun entry => IsMatched ds (arguments.take entry.2) entry.1).map (·.1)

/-- Every argument is matched or has a default value. -/
def IsServed (ds : List Dependency) (arguments : List Argument) : Prop :=
  ∀ earlier a later, arguments = earlier ++ a :: later → IsMatched ds earlier a ∨ a.hasDefault = true

theorem matched_concat : matched ds (arguments ++ [a]) =
    matched ds arguments ++ if IsMatched ds arguments a then [a] else [] := by
  -- the arguments before an earlier one are the same in both lists
  have hearlier : arguments.zipIdx.filter
        (fun entry => IsMatched ds ((arguments ++ [a]).take entry.2) entry.1) =
      arguments.zipIdx.filter fun entry => IsMatched ds (arguments.take entry.2) entry.1 := by
    refine List.filter_congr fun entry hentry => ?_
    have hindex : entry.2 < arguments.length := by simpa using List.snd_lt_of_mem_zipIdx hentry
    rw [List.take_append_of_le_length hindex.le]
  simp only [matched, List.zipIdx_append, List.filter_append, List.map_append, hearlier]
  by_cases h : IsMatched ds arguments a <;> simp [h]

theorem isServed_concat_iff : IsServed ds (arguments ++ [a]) ↔
    IsServed ds arguments ∧ (IsMatched ds arguments a ∨ a.hasDefault = true) := by
  constructor
  · intro h
    refine ⟨fun earlier b later hsplit => h earlier b (later ++ [a]) (by simp [hsplit]), ?_⟩
    exact h arguments a [] rfl
  · rintro ⟨harguments, ha⟩ earlier b later hsplit
    rcases List.eq_nil_or_concat later with rfl | ⟨later, c, rfl⟩
    · obtain ⟨rfl, hb⟩ := List.append_inj' hsplit rfl
      cases hb
      exact ha
    · rw [List.concat_eq_append, ← List.cons_append, ← List.append_assoc] at hsplit
      exact harguments earlier b later (List.append_inj_left' hsplit rfl)

/-- Every argument is served, or there is a first one that is not. -/
theorem isServed_or_exists (ds : List Dependency) (arguments : List Argument) :
    IsServed ds arguments ∨ ∃ earlier a later, arguments = earlier ++ a :: later ∧
      IsServed ds earlier ∧ ¬IsMatched ds earlier a ∧ a.hasDefault = false := by
  induction arguments using List.reverseRecOn with
  | nil => exact .inl fun earlier a later h => by simp at h
  | append_singleton arguments b ih =>
    rcases ih with hserved | ⟨earlier, a, later, rfl, ha⟩
    · by_cases hb : IsMatched ds arguments b ∨ b.hasDefault = true
      · exact .inl (isServed_concat_iff.2 ⟨hserved, hb⟩)
      · obtain ⟨hmatched, hdefault⟩ := not_or.1 hb
        exact .inr ⟨arguments, b, [], rfl, hserved, hmatched, by simpa using hdefault⟩
    · exact .inr ⟨earlier, a, later ++ [b], by simp, ha⟩

/-! ## Handing out the dependencies -/

/-- Arguments that come one after the other are handed what those before have left. -/
theorem assign_append (h : assign earlier properties = .ok (taken, left)) :
    assign (earlier ++ later) properties =
      (assign later left).map fun (more, left) => (taken ++ more, left) := by
  induction earlier generalizing properties taken with
  | nil =>
    cases h
    rw [List.nil_append]
    cases assign later left <;> rfl
  | cons a earlier ih =>
    rw [List.cons_append, assign]
    rw [assign] at h
    split at h
    · rename_i hmem
      obtain ⟨⟨taken', left'⟩, hrest, hpair⟩ := map_eq_ok_iff.1 h
      cases hpair
      rw [if_pos hmem, ih hrest]
      cases assign later left <;> rfl
    · rename_i hmem
      rw [if_neg hmem]
      split at h
      · rename_i hdefault
        rw [if_pos hdefault, ih h]
      · cases h

/-- What is left of a property, if one more argument takes it. -/
theorem count_left_concat {p : Property} (hcount : ∀ p, left.count p =
      (ds.map (·.property)).count p - (arguments.map Argument.property).count p) :
    (left.erase a.property).count p =
      (ds.map (·.property)).count p - ((arguments ++ [a]).map Argument.property).count p := by
  rw [List.count_erase, hcount, List.map_append, List.count_append, List.map_singleton,
    List.count_singleton, Nat.sub_sub]

/-- **What the arguments get**, if each of them is served: those that are matched get a dependency, and what
is left is what the dependencies have more of than the arguments. -/
theorem assign_of_isServed (h : IsServed ds arguments) :
    ∃ left, assign arguments (ds.map (·.property)) = .ok (matched ds arguments, left) ∧
      ∀ p, left.count p =
        (ds.map (·.property)).count p - (arguments.map Argument.property).count p := by
  induction arguments using List.reverseRecOn with
  | nil => exact ⟨ds.map (·.property), rfl, fun p => rfl⟩
  | append_singleton arguments a ih =>
    obtain ⟨hserved, ha⟩ := isServed_concat_iff.1 h
    obtain ⟨left, hassign, hcount⟩ := ih hserved
    have hmem : a.property ∈ left ↔ IsMatched ds arguments a := by
      rw [← List.count_pos_iff, hcount, IsMatched, Nat.sub_pos_iff_lt]
    rw [assign_append hassign, matched_concat]
    by_cases hmatched : IsMatched ds arguments a
    · refine ⟨left.erase a.property, ?_, fun p => count_left_concat hcount⟩
      rw [assign, if_pos (hmem.2 hmatched), if_pos hmatched]
      rfl
    · refine ⟨left, ?_, fun p => ?_⟩
      · rw [assign, if_neg (mt hmem.1 hmatched), if_pos (ha.resolve_left hmatched), if_neg hmatched]
        rfl
      · -- nothing of the argument's label and type was left before
        rw [← count_left_concat hcount, List.erase_of_not_mem (mt hmem.1 hmatched)]

/-- **The first argument that is not served** is the reason why there is no call. -/
theorem assign_of_not_served (hserved : IsServed ds earlier) (ha : ¬IsMatched ds earlier a)
    (hdefault : a.hasDefault = false) :
    assign (earlier ++ a :: later) (ds.map (·.property)) =
      .error (.unexpectedArgument a.declaration) := by
  obtain ⟨left, hassign, hcount⟩ := assign_of_isServed hserved
  have hmem : a.property ∉ left := by
    rw [← List.count_pos_iff, hcount, Nat.sub_pos_iff_lt]
    exact ha
  rw [assign_append hassign, assign, if_neg hmem, hdefault]
  rfl

/-! ## What is answered -/

/-- **What is to be answered** for some arguments and dependencies, told by counting. -/
inductive Answers (ds : List Dependency) (arguments : List Argument) :
    Except InitializerError String → Prop
  /-- There is nothing to be passed to an argument that needs something. -/
  | noDependencies : ds = [] → (∃ a ∈ arguments, a.hasDefault = false) →
    Answers ds arguments (.error .noDependencies)
  /-- The first argument that is neither matched nor has a default value. -/
  | unexpected {earlier later : List Argument} {a : Argument} : ds ≠ [] →
    arguments = earlier ++ a :: later → IsServed ds earlier → ¬IsMatched ds earlier a →
    a.hasDefault = false → Answers ds arguments (.error (.unexpectedArgument a.declaration))
  /-- The dependencies that exceed the arguments, in ascending order. -/
  | missing {properties : List Property} : IsServed ds arguments → properties ≠ [] →
    properties.Pairwise (fun p q => (Property.compare p q).isLE = true) →
    (∀ p, properties.count p =
      (ds.map (·.property)).count p - (arguments.map Argument.property).count p) →
    Answers ds arguments (.error (.missingArguments properties))
  /-- The arguments that are matched, if no dependency is missing. -/
  | passed : IsServed ds arguments →
    (∀ p, (ds.map (·.property)).count p ≤ (arguments.map Argument.property).count p) →
    Answers ds arguments (.ok (", ".intercalate ((matched ds arguments).map Argument.call)))

/-- Without dependencies no argument is matched, so all of them have default values if they are served. -/
theorem IsServed.hasDefault (h : IsServed [] arguments) : ∀ a ∈ arguments, a.hasDefault = true := by
  intro a ha
  obtain ⟨earlier, later, hsplit⟩ := List.append_of_mem ha
  exact (h earlier a later hsplit).resolve_left (Nat.not_lt_zero _)

/-- Some rule gives an answer. -/
theorem exists_answers (ds : List Dependency) (arguments : List Argument) :
    ∃ result, Answers ds arguments result := by
  rcases isServed_or_exists ds arguments with hserved | ⟨earlier, a, later, hsplit, hserved, ha, hdefault⟩
  · obtain ⟨left, -, hcount⟩ := assign_of_isServed hserved
    by_cases hleft : left = []
    · subst hleft
      exact ⟨_, .passed hserved fun p => Nat.sub_eq_zero_iff_le.1 (hcount p).symm⟩
    · have hperm := sorted_perm Property.compare left
      refine ⟨_, .missing hserved ?_ (pairwise_sorted left) fun p => ?_⟩
      · intro hnil
        rw [hnil] at hperm
        exact hleft hperm.nil_eq.symm
      · rw [hperm.count_eq, hcount]
  · by_cases hds : ds = []
    · exact ⟨_, .noDependencies hds ⟨a, by simp [hsplit], hdefault⟩⟩
    · exact ⟨_, .unexpected hds hsplit hserved ha hdefault⟩

/-- An initializer that passes validation goes on to its arguments, unless it has some for which there is
nothing. -/
theorem argumentList_of_validate (hvalid : i.validate = .ok ())
    (h : ds = [] → ∀ a ∈ i.arguments, a.hasDefault = true) :
    i.argumentList ds =
      assign i.arguments (ds.map (·.property)) >>= fun (taken, left) =>
        if left.isEmpty then .ok (", ".intercalate (taken.map Argument.call))
        else .error (.missingArguments (sorted Property.compare left)) := by
  have hrefused : (ds.isEmpty && i.arguments.any (!·.hasDefault)) = false := by
    cases ds with
    | nil => simpa using h rfl
    | cons d ds => rfl
  rw [argumentList, hvalid, hrefused]
  rfl

/-- What the rules say is answered. -/
theorem argumentList_of_answers {result : Except InitializerError String}
    (hvalid : i.validate = .ok ()) (h : Answers ds i.arguments result) :
    i.argumentList ds = result := by
  cases h with
  | noDependencies hds harguments =>
    subst hds
    have hrefused : i.arguments.any (!·.hasDefault) = true := by simpa using harguments
    rw [argumentList, hvalid, hrefused]
    rfl
  | unexpected hds hsplit hserved ha hdefault =>
    rw [argumentList_of_validate hvalid fun hnil => absurd hnil hds, hsplit,
      assign_of_not_served hserved ha hdefault]
    rfl
  | missing hserved hne hsorted hcount =>
    obtain ⟨left, hassign, hleft⟩ := assign_of_isServed hserved
    have hperm : left.Perm _ := List.perm_iff_count.2 fun p => (hleft p).trans (hcount p).symm
    have hascending : sorted Property.compare left = _ :=
      (sorted_eq_of_perm hperm).trans (List.mergeSort_of_pairwise hsorted)
    have hsome : left.isEmpty = false := by
      rw [hperm.isEmpty_eq]
      simpa using hne
    rw [argumentList_of_validate hvalid (by rintro rfl; exact hserved.hasDefault), hassign]
    simp only [bind, Except.bind, hsome, hascending]
    rfl
  | passed hserved hcount =>
    obtain ⟨left, hassign, hleft⟩ := assign_of_isServed hserved
    obtain rfl : left = [] := by
      refine List.eq_nil_iff_forall_not_mem.2 fun p hp => ?_
      have hpos := List.count_pos_iff.2 hp
      rw [hleft, Nat.sub_pos_iff_lt] at hpos
      exact absurd (hcount p) hpos.not_ge
    rw [argumentList_of_validate hvalid (by rintro rfl; exact hserved.hasDefault), hassign]
    rfl

/-- **What is answered is told by counting.** An initializer that passes validation answers exactly what
the rules say, for any dependencies; and if it answers with a call, the arguments of the call take each
dependency once. -/
theorem argumentList_iff_answers (hvalid : i.validate = .ok ()) (ds : List Dependency)
    (result : Except InitializerError String) :
    (i.argumentList ds = result ↔ Answers ds i.arguments result) ∧
      ∀ text, i.argumentList ds = .ok text →
        ((matched ds i.arguments).map Argument.property).Perm (ds.map (·.property)) := by
  have hiff : ∀ r, i.argumentList ds = r ↔ Answers ds i.arguments r := by
    intro r
    refine ⟨?_, argumentList_of_answers hvalid⟩
    rintro rfl
    obtain ⟨r, hr⟩ := exists_answers ds i.arguments
    rwa [argumentList_of_answers hvalid hr]
  refine ⟨hiff result, fun text htext => ?_⟩
  cases (hiff _).1 htext with
  | passed hserved hcount =>
    obtain ⟨left, hassign, hleft⟩ := assign_of_isServed hserved
    obtain ⟨taken, htaken, -⟩ := argumentList_eq_ok htext
    rw [hassign] at htaken
    cases htaken
    simpa using assign_perm hassign

/-- An initializer with an unlabelled lamp, a spare lamp that may be left out, a shade, and a fuse of which
there is always one. -/
def lampInitializer : Initializer :=
  ⟨[⟨some "_", "lamp", .simple "Lamp" [], false⟩, ⟨some "spare", "lamp", .simple "Lamp" [], true⟩,
    ⟨none, "fuse", .simple "Fuse" [], true⟩, ⟨none, "shade", .simple "Shade" [], false⟩],
    false, false, false, false, false⟩

/-- A shade and two lamps. -/
def lampParts : List Dependency :=
  [⟨⟨"shade", .simple "Shade" []⟩, .received⟩, ⟨⟨"lamp", .simple "Lamp" []⟩, .forwarded⟩,
    ⟨⟨"lamp", .simple "Lamp" []⟩, .received⟩]

/-- Two lamps and a shade are passed, the second lamp to the spare argument. With a third lamp, that one is
missing. -/
theorem lamps_matched :
    lampInitializer.validate = .ok () ∧
      lampInitializer.argumentList lampParts = .ok "lamp, spare: lamp, shade: shade" ∧
      Answers lampParts lampInitializer.arguments (.ok "lamp, spare: lamp, shade: shade") ∧
      ((matched lampParts lampInitializer.arguments).map Argument.property).Perm
        (lampParts.map (·.property)) ∧
      Answers (⟨⟨"lamp", .simple "Lamp" []⟩, .received⟩ :: lampParts) lampInitializer.arguments
        (.error (.missingArguments [⟨"lamp", .simple "Lamp" []⟩])) := by
  have hvalid : lampInitializer.validate = .ok () := rfl
  have hcall : lampInitializer.argumentList lampParts = .ok "lamp, spare: lamp, shade: shade" := by
    decide
  obtain ⟨hiff, hpassed⟩ := argumentList_iff_answers hvalid lampParts _
  exact ⟨hvalid, hcall, hiff.1 hcall, hpassed _ hcall,
    (argumentList_iff_answers hvalid _ _).1.1 (by with_unfolding_all rfl)⟩

end Initializer

end Wiring
