import Wiring.Settings.Basic

/-!
# What variables set

A variable sets a key if it is named after it. Each variable that sets a key is checked, also if a later one
sets the key again; of those that are accepted the last one for a key counts.

* `Settings.Key.IsSetBy`, `Settings.Key.IsMalformed`: the variables that count, and what is wrong with them.
* `Settings.Key.value_eq_error_iff`: a text is refused exactly if it is malformed.
* `Settings.variableFields_eq_error_iff`, `Settings.get?_variableFields`: what several variables give.
* `Settings.variableFields_insert`: variables that set no key.
-/

namespace Wiring.Settings

/-! ## Keys and texts of variables -/

/-- **A variable sets a key** if its name is the start of all such names and then the word for the key, in
any case. -/
def Key.IsSetBy (key : Key) (name : String) : Prop :=
  ∃ rest, name.toList = variableStart.toList ++ rest ∧ lowerCase rest = key.word.toList

/-- **The text of a variable is malformed** for a key: it is no number of 64 bits, with or without a plus
sign, or no truth value. White space around it does not count. Texts and lists cannot be malformed. -/
def Key.IsMalformed (key : Key) (text : String) : Prop :=
  match key with
  | .output | .dotOutput | .additionalImports => False
  | .limit => ¬ ∃ digits : List Char, (Text.trimChars text.toList = digits ∨
      Text.trimChars text.toList = '+' :: digits) ∧ digits ≠ [] ∧
      (∀ c ∈ digits, c.isDigit = true) ∧ Json.ofDigits digits < limitBound
  | .parallel => String.ofList (lowerCase (Text.trimChars text.toList)) ∉
      ["true", "1", "yes", "on"] ++ ["false", "0", "no", "off"]

/-- **The first variable at fault**: it sets a key and its text is malformed, and no variable before it is
at fault. -/
def IsFirstFault (env : List (String × String)) (name text : String) (fault : ValueFault) : Prop :=
  ∃ (key : Key) (before after : List (String × String)), env = before ++ (name, text) :: after ∧
    key.IsSetBy name ∧ key.IsMalformed text ∧ key.value text = .error fault ∧
    ∀ pair ∈ before, ∀ other : Key, other.IsSetBy pair.1 → ¬ other.IsMalformed pair.2

/-- **What the variables set a key to**: the value of the last one that sets it. -/
def IsSetTo (env : List (String × String)) (key : Key) (json : Json) : Prop :=
  ∃ name text before after, env = before ++ (name, text) :: after ∧ key.IsSetBy name ∧
    key.value text = .ok json ∧ ∀ pair ∈ after, ¬ key.IsSetBy pair.1

variable {key : Key} {name text : String} {env : List (String × String)} {json : Json}
  {fields : Json.Fields}

theorem Key.word_injective : ∀ {key other : Key}, key.word.toList = other.word.toList → key = other := by
  intro key other h
  cases key <;> cases other <;> first | rfl | exact absurd h (by decide)

/-- The key that a variable sets is found. -/
theorem Key.ofVariable?_eq_some_iff : ofVariable? name = some key ↔ key.IsSetBy name := by
  unfold ofVariable? IsSetBy
  rw [Option.bind_eq_some_iff]
  refine exists_congr fun rest => ?_
  rw [Text.afterWord_eq_some_iff]
  refine and_congr_right fun _ => ?_
  constructor
  · intro h
    have hword : key.word.toList = lowerCase rest := by simpa using List.find?_some h
    exact hword.symm
  · intro h
    rw [h]
    cases key <;> decide

theorem Key.IsSetBy.eq {other : Key} (h : key.IsSetBy name) (hother : other.IsSetBy name) :
    key = other :=
  Option.some.inj ((ofVariable?_eq_some_iff.2 h).symm.trans (ofVariable?_eq_some_iff.2 hother))

/-! ## What the text of a variable gives -/

theorem le_foldl_digits (cs : List Char) (n : Nat) :
    n ≤ cs.foldl (fun n c => 10 * n + (c.toNat - '0'.toNat)) n := by
  induction cs generalizing n with
  | nil => exact Nat.le_refl n
  | cons c cs ih => exact Nat.le_trans (show n ≤ 10 * n + (c.toNat - '0'.toNat) by omega) (ih _)

/-- Digits are read as long as the number stays below its bound. -/
theorem digitsAfter_eq_ok_iff {cs : List Char} {n m : Nat} (hn : n < limitBound) :
    digitsAfter n cs = .ok m ↔ (∀ c ∈ cs, c.isDigit = true) ∧
      cs.foldl (fun n c => 10 * n + (c.toNat - '0'.toNat)) n = m ∧ m < limitBound := by
  induction cs generalizing n with
  | nil =>
    rw [digitsAfter]
    constructor
    · rintro ⟨⟩
      exact ⟨by simp, rfl, hn⟩
    · rintro ⟨-, rfl, -⟩
      rfl
  | cons c cs ih =>
    rw [digitsAfter, List.forall_mem_cons, List.foldl_cons, and_assoc]
    by_cases hdigit : c.isDigit = true
    · rw [if_pos hdigit]
      by_cases hnext : 10 * n + (c.toNat - '0'.toNat) < limitBound
      · simp only [hnext, if_true, ih hnext, hdigit, true_and]
      · simp only [hnext, if_false]
        constructor
        · rintro ⟨⟩
        · rintro ⟨-, -, rfl, hbound⟩
          exact absurd (Nat.lt_of_le_of_lt (le_foldl_digits cs _) hbound) hnext
    · simp [hdigit]

/-- **A number in a variable** is made of digits, before which a plus sign may stand, and has 64 bits. -/
theorem number_eq_ok_iff {cs : List Char} {n : Nat} :
    number cs = .ok n ↔ ∃ digits : List Char, (cs = digits ∨ cs = '+' :: digits) ∧ digits ≠ [] ∧
      (∀ c ∈ digits, c.isDigit = true) ∧ Json.ofDigits digits = n ∧ n < limitBound := by
  have hread : ∀ digits : List Char, digitsAfter 0 digits = .ok n ↔
      (∀ c ∈ digits, c.isDigit = true) ∧ Json.ofDigits digits = n ∧ n < limitBound :=
    fun digits => digitsAfter_eq_ok_iff (by decide)
  have hplus : ('+' : Char).isDigit ≠ true := by decide
  constructor
  · intro h
    unfold number at h
    split at h
    · cases h
    · cases h
    · rename_i rest hsingle
      exact ⟨rest, .inr rfl, fun hempty => hsingle (by rw [hempty]), (hread rest).1 h⟩
    · rename_i hempty _ _
      exact ⟨cs, .inl rfl, hempty, (hread cs).1 h⟩
  · rintro ⟨digits, rfl | rfl, hempty, hdigits⟩
    · unfold number
      split
      · exact absurd rfl hempty
      · exact absurd (hdigits.1 '+' (by simp)) hplus
      · exact absurd (hdigits.1 '+' (by simp)) hplus
      · exact (hread cs).2 hdigits
    · unfold number
      split
      · rename_i heq
        cases heq
      · rename_i heq
        exact absurd (List.cons.inj heq).2 hempty
      · rename_i rest _ heq
        rw [← (List.cons.inj heq).2]
        exact (hread digits).2 hdigits
      · rename_i _ _ hother
        exact absurd rfl (hother digits)

theorem truth_eq_error_iff {cs : List Char} :
    (∃ fault, truth cs = .error fault) ↔
      String.ofList (lowerCase cs) ∉ ["true", "1", "yes", "on"] ++ ["false", "0", "no", "off"] := by
  rw [List.mem_append, not_or]
  simp only [truth]
  split
  · rename_i hyes
    constructor
    · rintro ⟨fault, ⟨⟩⟩
    · exact fun h => absurd hyes h.1
  · rename_i hyes
    split
    · rename_i hno
      constructor
      · rintro ⟨fault, ⟨⟩⟩
      · exact fun h => absurd hno h.2
    · rename_i hno
      exact ⟨fun _ => ⟨hyes, hno⟩, fun _ => ⟨_, rfl⟩⟩

/-- **A text is refused exactly if it is malformed.** -/
theorem Key.value_eq_error_iff : (∃ fault, key.value text = .error fault) ↔ key.IsMalformed text := by
  cases key with
  | output | dotOutput | additionalImports => simp [value, IsMalformed]
  | limit =>
    cases hnumber : number (Text.trimChars text.toList) with
    | ok n =>
      have hvalue : Key.limit.value text = .ok (.integer n) := by
        rw [value, hnumber]
        rfl
      obtain ⟨digits, hcs, hempty, hdigits, hn, hbound⟩ := number_eq_ok_iff.1 hnumber
      constructor
      · rintro ⟨fault, hfault⟩
        rw [hvalue] at hfault
        cases hfault
      · intro hmalformed
        exact absurd ⟨digits, hcs, hempty, hdigits, hn ▸ hbound⟩ hmalformed
    | error fault =>
      have hvalue : Key.limit.value text = .error fault := by
        rw [value, hnumber]
        rfl
      refine ⟨fun _ => ?_, fun _ => ⟨fault, hvalue⟩⟩
      rintro ⟨digits, hcs, hempty, hdigits, hbound⟩
      have hok := number_eq_ok_iff.2 ⟨digits, hcs, hempty, hdigits, rfl, hbound⟩
      rw [hnumber] at hok
      cases hok
  | parallel =>
    unfold IsMalformed value
    rw [← truth_eq_error_iff]
    cases truth (Text.trimChars text.toList) <;> simp [Except.map]

theorem Key.not_isMalformed_of_value (h : key.value text = .ok json) : ¬ key.IsMalformed text := by
  intro hmalformed
  obtain ⟨fault, hfault⟩ := value_eq_error_iff.2 hmalformed
  rw [h] at hfault
  cases hfault

/-! ## What the variables give -/

theorem isFirstFault_cons {pair : String × String} {fault : ValueFault} :
    IsFirstFault (pair :: env) name text fault ↔
      (pair = (name, text) ∧
          ∃ key : Key, key.IsSetBy name ∧ key.IsMalformed text ∧ key.value text = .error fault) ∨
        (∀ key : Key, key.IsSetBy pair.1 → ¬ key.IsMalformed pair.2) ∧
          IsFirstFault env name text fault := by
  constructor
  · rintro ⟨key, before, after, henv, hset, hmalformed, hfault, hbefore⟩
    cases before with
    | nil => exact .inl ⟨(List.cons.inj henv).1, key, hset, hmalformed, hfault⟩
    | cons first before =>
      obtain ⟨rfl, rfl⟩ := List.cons.inj henv
      obtain ⟨hfirst, hbefore⟩ := List.forall_mem_cons.1 hbefore
      exact .inr ⟨hfirst, key, before, after, rfl, hset, hmalformed, hfault, hbefore⟩
  · rintro (⟨rfl, key, hset, hmalformed, hfault⟩ |
      ⟨hpair, key, before, after, rfl, hset, hmalformed, hfault, hbefore⟩)
    · exact ⟨key, [], env, rfl, hset, hmalformed, hfault, by simp⟩
    · exact ⟨key, pair :: before, after, rfl, hset, hmalformed, hfault,
        List.forall_mem_cons.2 ⟨hpair, hbefore⟩⟩

/-- **Variables are refused for the first one at fault.** -/
theorem variableFields_eq_error_iff {cause : Error} :
    variableFields env = .error cause ↔
      ∃ name text fault, cause = .invalidValue name text fault ∧ IsFirstFault env name text fault := by
  induction env with
  | nil => simp [variableFields, IsFirstFault]
  | cons pair env ih =>
    obtain ⟨name, text⟩ := pair
    simp only [isFirstFault_cons]
    rw [variableFields]
    cases hkey : Key.ofVariable? name with
    | none =>
      have hunset : ∀ key : Key, ¬ key.IsSetBy name := by
        intro key hset
        rw [Key.ofVariable?_eq_some_iff.2 hset] at hkey
        cases hkey
      simp only [ih]
      constructor
      · rintro ⟨name', text', fault, rfl, hfault⟩
        exact ⟨name', text', fault, rfl, .inr ⟨fun key hset => absurd hset (hunset key), hfault⟩⟩
      · rintro ⟨name', text', fault, rfl, ⟨hpair, key, hset, -⟩ | ⟨-, hfault⟩⟩
        · cases hpair
          exact absurd hset (hunset key)
        · exact ⟨name', text', fault, rfl, hfault⟩
    | some key =>
      have hset := Key.ofVariable?_eq_some_iff.1 hkey
      cases hvalue : key.value text with
      | error fault =>
        have hmalformed := Key.value_eq_error_iff.1 ⟨fault, hvalue⟩
        simp only [hvalue]
        constructor
        · rintro ⟨⟩
          exact ⟨name, text, fault, rfl, .inl ⟨rfl, key, hset, hmalformed, hvalue⟩⟩
        · rintro ⟨name', text', fault', rfl, ⟨hpair, other, hother, -, hfault⟩ | ⟨hgood, -⟩⟩
          · cases hpair
            obtain rfl := hset.eq hother
            rw [hvalue] at hfault
            cases hfault
            rfl
          · exact absurd hmalformed (hgood key hset)
      | ok json =>
        have hgood : ∀ other : Key, other.IsSetBy name → ¬ other.IsMalformed text := by
          intro other hother
          obtain rfl := hset.eq hother
          exact Key.not_isMalformed_of_value hvalue
        have hmap : (variableFields env).map ((key.word, json) :: ·) = .error cause ↔
            variableFields env = .error cause := by
          cases variableFields env <;> simp [Except.map]
        simp only [hvalue, hmap, ih]
        constructor
        · rintro ⟨name', text', fault, rfl, hfault⟩
          exact ⟨name', text', fault, rfl, .inr ⟨hgood, hfault⟩⟩
        · rintro ⟨name', text', fault, rfl, ⟨hpair, other, hother, hmalformed, -⟩ | ⟨-, hfault⟩⟩
          · cases hpair
            exact absurd hmalformed (hgood other hother)
          · exact ⟨name', text', fault, rfl, hfault⟩

theorem isSetTo_cons {pair : String × String} :
    IsSetTo (pair :: env) key json ↔ IsSetTo env key json ∨
      (∀ later ∈ env, ¬ key.IsSetBy later.1) ∧ key.IsSetBy pair.1 ∧ key.value pair.2 = .ok json := by
  constructor
  · rintro ⟨name, text, before, after, henv, hset, hvalue, hafter⟩
    cases before with
    | nil =>
      obtain ⟨rfl, rfl⟩ := List.cons.inj henv
      exact .inr ⟨hafter, hset, hvalue⟩
    | cons first before =>
      obtain ⟨-, rfl⟩ := List.cons.inj henv
      exact .inl ⟨name, text, before, after, rfl, hset, hvalue, hafter⟩
  · rintro (⟨name, text, before, after, rfl, hset, hvalue, hafter⟩ | ⟨hafter, hset, hvalue⟩)
    · exact ⟨name, text, pair :: before, after, rfl, hset, hvalue, hafter⟩
    · exact ⟨pair.1, pair.2, [], env, rfl, hset, hvalue, hafter⟩

theorem get?_append (below above : Json.Fields) (word : String) :
    Json.Fields.get? (above ++ below) word =
      (Json.Fields.get? above word).or (Json.Fields.get? below word) := by
  unfold Json.Fields.get?
  rw [List.find?_append]
  cases above.find? fun entry => decide (entry.1 = word) <;> rfl

/-- **What the variables give to a key** is what they set it to. -/
theorem get?_variableFields (h : variableFields env = .ok fields) (key : Key) :
    (∃ json, Json.Fields.get? fields.reverse key.word = some json ∧ IsSetTo env key json) ∨
      Json.Fields.get? fields.reverse key.word = none ∧ ∀ pair ∈ env, ¬ key.IsSetBy pair.1 := by
  induction env generalizing fields with
  | nil =>
    cases h
    exact .inr ⟨rfl, by simp⟩
  | cons pair env ih =>
    obtain ⟨name, text⟩ := pair
    rw [variableFields] at h
    cases hother : Key.ofVariable? name with
    | none =>
      rw [hother] at h
      have hunset : ¬ key.IsSetBy name := by
        intro hset
        rw [Key.ofVariable?_eq_some_iff.2 hset] at hother
        cases hother
      rcases ih h with ⟨json, hjson, hset⟩ | ⟨hnone, henv⟩
      · exact .inl ⟨json, hjson, isSetTo_cons.2 (.inl hset)⟩
      · exact .inr ⟨hnone, List.forall_mem_cons.2 ⟨hunset, henv⟩⟩
    | some other =>
      simp only [hother] at h
      cases hvalue : other.value text with
      | error fault =>
        rw [hvalue] at h
        cases h
      | ok json =>
        simp only [hvalue] at h
        cases hrest : variableFields env with
        | error cause =>
          rw [hrest] at h
          cases h
        | ok rest =>
          rw [hrest] at h
          cases h
          have hset := Key.ofVariable?_eq_some_iff.1 hother
          rw [List.reverse_cons, get?_append]
          -- what a later variable gives comes first
          rcases ih hrest with ⟨later, hlater, hsetlater⟩ | ⟨hnone, henv⟩
          · rw [hlater]
            exact .inl ⟨later, rfl, isSetTo_cons.2 (.inl hsetlater)⟩
          · rw [hnone, Option.none_or]
            by_cases hkey : other = key
            · subst hkey
              exact .inl ⟨json, by simp [Json.Fields.get?], isSetTo_cons.2 (.inr ⟨henv, hset, hvalue⟩)⟩
            · have hword : other.word ≠ key.word := fun heq =>
                hkey (Key.word_injective (congrArg String.toList heq))
              refine .inr ⟨by simp [Json.Fields.get?, hword], List.forall_mem_cons.2 ⟨?_, henv⟩⟩
              exact fun hkeyset => hkey (hset.eq hkeyset)

/-- **A variable that sets no key changes nothing.** -/
theorem variableFields_insert {pair : String × String} (h : ∀ key : Key, ¬ key.IsSetBy pair.1)
    (before after : List (String × String)) :
    variableFields (before ++ pair :: after) = variableFields (before ++ after) := by
  induction before with
  | nil =>
    have hnone : Key.ofVariable? pair.1 = none := by
      cases hkey : Key.ofVariable? pair.1 with
      | none => rfl
      | some key => exact absurd (Key.ofVariable?_eq_some_iff.1 hkey) (h key)
    rw [List.nil_append, List.nil_append, variableFields, hnone]
  | cons first before ih =>
    rw [List.cons_append, List.cons_append, variableFields, variableFields, ih]

end Wiring.Settings
