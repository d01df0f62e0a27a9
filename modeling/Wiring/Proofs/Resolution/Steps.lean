import Mathlib.Data.List.TakeWhile
import Wiring.Resolution

/-!
# One step down

From a component at the end of a chain, an instantiated dependency leads on to its producer, which is
then entered.

* `producer_eq_ok_iff`, `cases_of_producer`: when a dependency has a producer, and why it has none.
* `Resolution.LeadsTo`: resolution goes on from a dependency to its producer.
* `enter_eq_ok_iff`, `enter_eq_error_iff`, `eagerCycle?_ne_none`: what entering a component does to the
  chain, and when it is refused.
-/

namespace Wiring

variable {registry : Registry} {chain next : Chain} {c q : Component} {via : Option Property}

namespace Resolution

/-- **The producer of an instantiated property** is the registered component, if that can be built where
the property stands: a component that has something forwarded to it needs a wrapper, and a wrapper with
arguments needs the right ones. -/
theorem producer_eq_ok_iff {p : Property} {type : TypeExpr} :
    producer registry c p type = .ok q ↔
      registry.fulfilling type = some q ∧ (p.isDeferred = false → q.hasForwarded = false) ∧
        (p.type.wrapper?.any (·.forwards) = true → p.type.generics.head? = some q.forwardedType) := by
  unfold producer
  cases registry.fulfilling type with
  | none => simp
  | some r =>
    simp only [Option.some.injEq]
    split
    · rename_i h
      simp only [Bool.and_eq_true, Bool.not_eq_true'] at h
      constructor
      · intro hr; cases hr
      · rintro ⟨rfl, hforwarded, -⟩
        rw [hforwarded h.1] at h
        cases h.2
    · rename_i h
      split
      · rename_i hgeneric
        simp only [Bool.and_eq_true, decide_eq_true_eq] at hgeneric
        constructor
        · intro hr; cases hr
        · rintro ⟨rfl, -, harguments⟩
          exact absurd (harguments hgeneric.1) hgeneric.2
      · rename_i hgeneric
        simp only [Bool.and_eq_true, decide_eq_true_eq, not_and, not_not] at hgeneric
        simp only [Except.ok.injEq]
        constructor
        · rintro rfl
          exact ⟨rfl, by simpa using h, hgeneric⟩
        · exact And.left

/-- **Why an instantiated property has no producer**: nothing is registered for it, or what is registered
has something forwarded to it that the property does not pass on, or not as it should. -/
theorem cases_of_producer {p : Property} {type : TypeExpr} {fault : Fault}
    (h : producer registry c p type = .error fault) :
    (registry.fulfilling type = none ∧ fault = .unfulfillableType p c.concreteType type) ∨
      ∃ q, registry.fulfilling type = some q ∧
        ((p.isDeferred = false ∧ q.hasForwarded = true ∧
            fault = .forwardedOnInstantiated p c.concreteType
              (.simple Wrapper.instantiator.name [p.type])) ∨
          (p.type.wrapper?.any (·.forwards) = true ∧
            p.type.generics.head? ≠ some q.forwardedType ∧
            fault = .genericMismatch p c.concreteType
              (p.type.withGeneric 0 q.forwardedType))) := by
  unfold producer at h
  cases hq : registry.fulfilling type with
  | none =>
    rw [hq] at h
    cases h
    exact .inl ⟨rfl, rfl⟩
  | some q =>
    simp only [hq] at h
    refine .inr ⟨q, rfl, ?_⟩
    split at h
    · rename_i hforwarded
      simp only [Bool.and_eq_true, Bool.not_eq_true'] at hforwarded
      cases h
      exact .inl ⟨hforwarded.1, hforwarded.2, rfl⟩
    · split at h
      · rename_i hgeneric
        simp only [Bool.and_eq_true, decide_eq_true_eq] at hgeneric
        cases h
        exact .inr ⟨hgeneric.1, hgeneric.2, rfl⟩
      · cases h

/-- **The dependency `d` of `c` leads on to the producer `q`**, where `c` ends the chain. -/
def LeadsTo (registry : Registry) (chain : Chain) (c : Component) (d : Dependency) (q : Component) :
    Prop :=
  ∃ fulfilling erased, d.origin = .instantiated fulfilling erased ∧
    producer registry c d.property (fulfilling.getD d.property.type.produced) = .ok q ∧
    chain.hasDeferredStep d.property q.concreteType = false

/-- What a dependency leads to is what the registry holds for it. -/
theorem LeadsTo.fulfilling {d : Dependency} (h : LeadsTo registry chain c d q) :
    ∃ type, d.producedType? = some type ∧ registry.fulfilling type = some q := by
  obtain ⟨fulfilling, erased, horigin, hproducer, -⟩ := h
  refine ⟨_, ?_, (producer_eq_ok_iff.1 hproducer).1⟩
  simp [Dependency.producedType?, horigin]

end Resolution

namespace Chain

/-- A component that is entered comes last in the chain, which has one place less. -/
theorem enter_eq_ok_iff :
    chain.enter c via = .ok next ↔
      eagerCycle? chain.frames c via = none ∧ chain.room = next.room + 1 ∧
        next.frames = ⟨c, via⟩ :: chain.frames := by
  obtain ⟨frames, room⟩ := chain
  obtain ⟨nextFrames, nextRoom⟩ := next
  cases room with
  | zero => simp [enter]
  | succ room =>
    cases h : eagerCycle? frames c via <;> simp [enter, h, eq_comm, and_comm]

/-- **Entering a component is refused** if the chain is full, or if it would close a cycle. -/
theorem enter_eq_error_iff {fault : Fault} :
    chain.enter c via = .error fault ↔
      (chain.room = 0 ∧ fault = overflow chain.frames c) ∨
      0 < chain.room ∧ ∃ cycle, eagerCycle? chain.frames c via = some cycle ∧
        fault = .structuralCycle cycle := by
  obtain ⟨frames, room⟩ := chain
  cases room with
  | zero => simp [enter, eq_comm]
  | succ room => cases h : eagerCycle? frames c via <;> simp [enter, h, eq_comm]

theorem room_lt_of_enter (h : chain.enter c via = .ok next) : next.room < chain.room := by
  have := (enter_eq_ok_iff.1 h).2.1
  omega

theorem frames_of_enter (h : chain.enter c via = .ok next) :
    next.frames = ⟨c, via⟩ :: chain.frames :=
  (enter_eq_ok_iff.1 h).2.2

/-- **Eager steps back to a component of the same concrete type are refused.** -/
theorem eagerCycle?_ne_none {newer older : List Frame} {f : Frame}
    (hnewer : ∀ g ∈ newer, isEager g.via) (hvia : isEager via)
    (htype : f.component.concreteType = c.concreteType) :
    eagerCycle? (newer ++ f :: older) c via ≠ none := by
  set isOther : Frame → Bool := fun g => g.component.concreteType ≠ c.concreteType with hother
  have hf : isOther f = false := by simp [hother, htype]
  -- the latest frame of that type is `f` or a later one, so all frames after it are eager
  have htake : ∀ g ∈ (newer ++ f :: older).takeWhile isOther, g ∈ newer := by
    intro g hg
    rw [List.takeWhile_append] at hg
    split at hg
    · simpa [hf] using hg
    · exact List.takeWhile_subset _ hg
  have hall : ((newer ++ f :: older).takeWhile isOther).all (isEager ·.via) = true :=
    List.all_eq_true.2 fun g hg => hnewer g (htake g hg)
  cases hdrop : (newer ++ f :: older).dropWhile isOther with
  | nil =>
    have := List.dropWhile_eq_nil_iff.1 hdrop f (by simp)
    simp [hf] at this
  | cons start rest =>
    simp only [eagerCycle?, ← hother, hdrop, hall, hvia]
    simp

/-- Whether a factory step was made before can be read off the steps of the chain. -/
theorem hasDeferredStep_eq_true_iff {p : Property} {type : TypeExpr} :
    chain.hasDeferredStep p type = true ↔ p.isDeferred = true ∧
      ∃ f ∈ chain.frames, f.via = some p ∧ f.component.concreteType = type := by
  simp [hasDeferredStep]

end Chain

end Wiring
