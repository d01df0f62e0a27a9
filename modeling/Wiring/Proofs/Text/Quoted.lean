import Mathlib.Data.List.Basic
import Wiring.Text.Quoted

/-!
# Quoted text ends by itself

In quoted text the end can be found without knowing what comes after it, and what stands before the end
can be read back. So a text that is put together from quoted parts and fixed words has one reading only.

* `IsDelimited`: a text that ends by itself.
* `isDelimited_quoted`: quoted text does.
-/

namespace Wiring.Text

/-- **The text of `a` ends by itself**: whatever follows it, no other value has a text that begins in the
same way. -/
def IsDelimited {α : Type} (text : α → String) (a : α) : Prop :=
  ∀ (b : α) (r s : List Char), (text a).toList ++ r = (text b).toList ++ s → a = b ∧ r = s

/-! ## Numbers -/

/-- The sixteen digits are different. -/
theorem digitChar_injective {m n : Nat} (hm : m < 16) (hn : n < 16)
    (h : m.digitChar = n.digitChar) : m = n := by
  have hall : ∀ a b : Fin 16, a.val.digitChar = b.val.digitChar → a = b := by decide
  exact congrArg Fin.val (hall ⟨m, hm⟩ ⟨n, hn⟩ h)

/-- The digits of a number determine it. -/
theorem toDigits_injective (m : Nat) :
    ∀ n, Nat.toDigits 16 m = Nat.toDigits 16 n → m = n := by
  induction m using Nat.strongRecOn with
  | ind m ih =>
    intro n h
    rw [Nat.toDigits_eq_if (by omega), Nat.toDigits_eq_if (n := n) (by omega)] at h
    have hm : m % 16 < 16 := Nat.mod_lt _ (by omega)
    have hn : n % 16 < 16 := Nat.mod_lt _ (by omega)
    split at h <;> split at h
    · exact digitChar_injective (by omega) (by omega) (List.singleton_inj.1 h)
    · have hlength := congrArg List.length h
      simp at hlength
    · have hlength := congrArg List.length h
      simp at hlength
    · -- the last digits agree, and so do the ones before them
      obtain ⟨hinit, hlast⟩ := List.append_inj' h rfl
      have hquotient := ih (m / 16) (by omega) (n / 16) hinit
      have hdigit := digitChar_injective hm hn (List.singleton_inj.1 hlast)
      omega

/-- No digit is a closing brace. -/
theorem ne_brace_of_mem_toDigits (n : Nat) : ∀ c ∈ Nat.toDigits 16 n, c ≠ '\x7d' := by
  have hall : ∀ a : Fin 16, a.val.digitChar ≠ '\x7d' := by decide
  induction n using Nat.strongRecOn with
  | ind n ih =>
    intro c hc
    rw [Nat.toDigits_eq_if (by omega)] at hc
    have hn : n % 16 < 16 := Nat.mod_lt _ (by omega)
    split at hc
    · rename_i hsmall
      rw [List.mem_singleton.1 hc]
      exact hall ⟨n, hsmall⟩
    · rcases List.mem_append.1 hc with hc | hc
      · exact ih (n / 16) (by omega) c hc
      · rw [List.mem_singleton.1 hc]
        exact hall ⟨n % 16, hn⟩

/-- Digits end at the brace after them. -/
theorem toDigits_append_inj {m n : Nat} {r s : List Char}
    (h : Nat.toDigits 16 m ++ '\x7d' :: r = Nat.toDigits 16 n ++ '\x7d' :: s) : m = n ∧ r = s := by
  have htake : ∀ (k : Nat) (t : List Char),
      (Nat.toDigits 16 k ++ '\x7d' :: t).takeWhile (· ≠ '\x7d') = Nat.toDigits 16 k := by
    intro k t
    rw [List.takeWhile_append_of_pos]
    · simp
    · intro c hc
      simpa using ne_brace_of_mem_toDigits k c hc
  have hdigits : Nat.toDigits 16 m = Nat.toDigits 16 n := by
    rw [← htake m r, h, htake n s]
  obtain rfl := toDigits_injective m n hdigits
  exact ⟨rfl, (List.cons.inj (List.append_cancel_left h)).2⟩

/-! ## Characters -/

/-- The character that a letter after the backslash stands for. -/
def ofLetter : Char → Char
  | 'n' => '\n'
  | 'r' => '\r'
  | 't' => '\t'
  | '0' => '\x00'
  | c => c

/-- **A character is written as it is, by a letter or by its number**, and no letter is the sign of a
number. -/
theorem quotedChar_cases (c : Char) :
    (quotedChar c = [c] ∧ c ≠ '"' ∧ c ≠ '\\') ∨
      (∃ letter, quotedChar c = ['\\', letter] ∧ ofLetter letter = c ∧ letter ≠ 'u') ∨
      quotedChar c = '\\' :: 'u' :: '\x7b' :: (Nat.toDigits 16 c.toNat ++ ['\x7d']) := by
  unfold quotedChar
  split
  · exact .inr (.inl ⟨'"', rfl, rfl, by decide⟩)
  · exact .inr (.inl ⟨'\\', rfl, rfl, by decide⟩)
  · exact .inr (.inl ⟨'n', rfl, rfl, by decide⟩)
  · exact .inr (.inl ⟨'r', rfl, rfl, by decide⟩)
  · exact .inr (.inl ⟨'t', rfl, rfl, by decide⟩)
  · exact .inr (.inl ⟨'0', rfl, rfl, by decide⟩)
  · rename_i hquote hbackslash _ _ _ _
    split
    · exact .inl ⟨rfl, hquote, hbackslash⟩
    · exact .inr (.inr rfl)

/-- No written character begins with a quote. -/
theorem quotedChar_append_ne_quote (c : Char) (r s : List Char) : quotedChar c ++ r ≠ '"' :: s := by
  rcases quotedChar_cases c with ⟨h, hquote, -⟩ | ⟨letter, h, -⟩ | h
  · rw [h]
    intro heq
    exact hquote (List.cons.inj heq).1
  · rw [h]
    simp
  · rw [h]
    simp

/-- **A written character ends by itself.** -/
theorem quotedChar_append_inj {c d : Char} {r s : List Char}
    (h : quotedChar c ++ r = quotedChar d ++ s) : c = d ∧ r = s := by
  rcases quotedChar_cases c with ⟨hc, -, hplain⟩ | ⟨letter, hc, hletter, hsign⟩ | hc <;>
    rcases quotedChar_cases d with ⟨hd, -, hplain'⟩ | ⟨letter', hd, hletter', hsign'⟩ | hd <;>
    rw [hc, hd] at h <;> simp only [List.cons_append, List.nil_append, List.cons.injEq] at h
  · exact h
  · exact absurd h.1 hplain
  · exact absurd h.1 hplain
  · exact absurd h.1.symm hplain'
  · obtain ⟨-, rfl, hrest⟩ := h
    exact ⟨hletter.symm.trans hletter', hrest⟩
  · obtain ⟨-, rfl, -⟩ := h
    exact absurd rfl hsign
  · exact absurd h.1.symm hplain'
  · obtain ⟨-, rfl, -⟩ := h
    exact absurd rfl hsign'
  · obtain ⟨-, -, -, hnumber⟩ := h
    simp only [List.append_assoc, List.cons_append, List.nil_append] at hnumber
    obtain ⟨hvalue, hrest⟩ := toDigits_append_inj hnumber
    exact ⟨Char.toNat_inj.1 hvalue, hrest⟩

/-! ## Texts -/

/-- Characters that are written one after the other end at the quote after them. -/
theorem flatMap_quotedChar_append_inj :
    ∀ {cs ds r s : List Char}, cs.flatMap quotedChar ++ '"' :: r = ds.flatMap quotedChar ++ '"' :: s →
      cs = ds ∧ r = s
  | [], [], _, _, h => ⟨rfl, (List.cons.inj h).2⟩
  | [], d :: ds, _, _, h => by
    rw [List.flatMap_cons, List.append_assoc] at h
    exact absurd h.symm (quotedChar_append_ne_quote d _ _)
  | c :: cs, [], _, _, h => by
    rw [List.flatMap_cons, List.append_assoc] at h
    exact absurd h (quotedChar_append_ne_quote c _ _)
  | c :: cs, d :: ds, _, _, h => by
    rw [List.flatMap_cons, List.flatMap_cons, List.append_assoc, List.append_assoc] at h
    obtain ⟨rfl, hrest⟩ := quotedChar_append_inj h
    obtain ⟨rfl, hafter⟩ := flatMap_quotedChar_append_inj hrest
    exact ⟨rfl, hafter⟩

theorem toList_quoted (text : String) :
    (quoted text).toList = '"' :: (text.toList.flatMap quotedChar ++ ['"']) := by
  simp [quoted]

/-- **Quoted text ends by itself**, and it can be read back. -/
theorem isDelimited_quoted (text : String) : IsDelimited quoted text := by
  intro other r s h
  rw [toList_quoted, toList_quoted] at h
  simp only [List.cons_append, List.append_assoc, List.nil_append, List.cons.injEq, true_and] at h
  obtain ⟨hchars, hrest⟩ := flatMap_quotedChar_append_inj h
  exact ⟨String.toList_inj.1 hchars, hrest⟩

end Wiring.Text
