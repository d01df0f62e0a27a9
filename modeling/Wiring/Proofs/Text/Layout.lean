import Mathlib.Data.List.Basic
import Wiring.Proofs.Text.Reading
import Wiring.Text.Lines

/-!
# Code laid out by depth

How far a line of code is indented says how many braces are open there. This is kept when code is moved to
the right as a whole, if the depth outside grows by as much; so it can be shown for each piece of code on its
own, from the depth before the piece to the depth behind it.

* `depthAfter`, `Leads`: the depth inside a line; `IsInline`: a text that cannot change it.
* `Fits`, `LaidOut`: lines from a depth to a depth; `LaidOut.indent`: the same lines further in.
* `IsLaidOut`: what is to be read off the text alone; `LaidOut.isLaidOut`: it holds of all such lines.
-/

namespace Wiring.Text

variable {d d' d'' n k : Nat} {c : Char} {cs front back before after line : List Char}
  {lines ls ls' : List (List Char)} {s t code code' : String}

/-! ## Braces -/

/-- How many more braces are opened than closed. -/
def depth (cs : List Char) : Int :=
  cs.count '\x7b' - cs.count '\x7d'

@[simp]
theorem depth_nil : depth [] = 0 :=
  rfl

@[simp]
theorem depth_append (cs ds : List Char) : depth (cs ++ ds) = depth cs + depth ds := by
  simp only [depth, List.count_append]
  omega

theorem depth_cons (c : Char) (cs : List Char) : depth (c :: cs) = depth [c] + depth cs :=
  depth_append [c] cs

theorem depth_open : depth ['\x7b'] = 1 :=
  rfl

theorem depth_close : depth ['\x7d'] = -1 :=
  rfl

theorem depth_lineFeed : depth ['\n'] = 0 :=
  rfl

theorem depth_of_ne (hopen : c ≠ '\x7b') (hclose : c ≠ '\x7d') : depth [c] = 0 := by
  simp [depth, hopen, hclose]

/-- The depth behind a part of a line that begins at the depth `d`. There is none if more braces are
closed than are open, or if the line ends in the part. -/
def depthAfter : (d : Nat) → List Char → Option Nat
  | d, [] => some d
  | d, c :: cs =>
    if c = '\x7b' then depthAfter (d + 1) cs
    else if c = '\x7d' then
      match d with
      | 0 => none
      | d + 1 => depthAfter d cs
    else if c = '\n' ∨ c = '\r' then none
    else depthAfter d cs

/-- **A part of a line leads from a depth to a depth.** -/
def Leads (d : Nat) (s : String) (d' : Nat) : Prop :=
  depthAfter d s.toList = some d'

instance : Decidable (Leads d s d') :=
  inferInstanceAs (Decidable (_ = _))

theorem depthAfter_append {ds : List Char} :
    depthAfter d (cs ++ ds) = (depthAfter d cs).bind (depthAfter · ds) := by
  fun_induction depthAfter d cs <;> simp_all [depthAfter]

/-- The depth is what is counted, from the one before. -/
theorem eq_add_depth (h : depthAfter d cs = some d') : (d' : Int) = d + depth cs := by
  fun_induction depthAfter d cs with
  | case1 d =>
    obtain rfl := Option.some.inj h
    simp
  | case2 d cs ih =>
    rw [ih h, depth_cons, depth_open]
    omega
  | case3 => cases h
  | case4 cs _ d ih =>
    rw [ih h, depth_cons, depth_close]
    omega
  | case5 => cases h
  | case6 d c cs hopen hclose _ ih =>
    rw [ih h, depth_cons, depth_of_ne hopen hclose]
    omega

theorem Leads.append (h : Leads d s d') (h' : Leads d' t d'') : Leads d (s ++ t) d'' := by
  rw [Leads, String.toList_append, depthAfter_append, h, Option.bind_some]
  exact h'

/-- No more braces are closed than are open, at no place of the line. -/
theorem depth_front_nonneg (h : depthAfter d cs = some d') (hfront : cs = front ++ back) :
    0 ≤ d + depth front := by
  rw [hfront, depthAfter_append] at h
  obtain ⟨between, hbetween, -⟩ := Option.bind_eq_some_iff.1 h
  rw [← eq_add_depth hbetween]
  exact Int.natCast_nonneg _

/-- The line does not end in a part of it. -/
theorem not_mem_of_depthAfter (h : depthAfter d cs = some d') : '\n' ∉ cs ∧ '\r' ∉ cs := by
  fun_induction depthAfter d cs with
  | case1 => simp
  | case2 d cs ih => simpa using ih h
  | case3 => cases h
  | case4 cs _ d ih => simpa using ih h
  | case5 => cases h
  | case6 d c cs _ _ hbreak ih =>
    obtain ⟨hfeed, hreturn⟩ := not_or.1 hbreak
    simpa [Ne.symm hfeed, Ne.symm hreturn] using ih h

/-! ## Texts inside a line -/

/-- **A text inside a line**, such as a label or a type, has no braces and no ends of lines. -/
def IsInline (s : String) : Prop :=
  ∀ c ∈ s.toList, c ∉ ['\x7b', '\x7d', '\n', '\r']

instance : Decidable (IsInline s) :=
  decidable_of_iff (s.toList.all (· ∉ ['\x7b', '\x7d', '\n', '\r']) = true) (by simp [IsInline])

@[simp]
theorem isInline_append : IsInline (s ++ t) ↔ IsInline s ∧ IsInline t := by
  simp only [IsInline, String.toList_append, List.forall_mem_append]

theorem isInline_intercalate {texts : List String} (hs : IsInline s) (h : ∀ t ∈ texts, IsInline t) :
    IsInline (s.intercalate texts) := by
  induction texts with
  | nil => simp [IsInline]
  | cons t texts ih =>
    obtain ⟨ht, htexts⟩ := List.forall_mem_cons.1 h
    cases texts with
    | nil => rwa [String.intercalate_singleton]
    | cons t' texts =>
      rw [String.intercalate_cons_cons, isInline_append, isInline_append]
      exact ⟨⟨ht, hs⟩, ih htexts⟩

/-- A text inside a line leaves the depth as it is. -/
theorem IsInline.leads (h : IsInline s) : Leads d s d := by
  have hchars : ∀ cs : List Char, (∀ c ∈ cs, c ∉ ['\x7b', '\x7d', '\n', '\r']) →
      depthAfter d cs = some d := by
    intro cs hcs
    induction cs with
    | nil => rfl
    | cons c cs ih =>
      obtain ⟨hc, hcs⟩ := List.forall_mem_cons.1 hcs
      simp only [List.mem_cons, List.not_mem_nil, or_false, not_or] at hc
      simp [depthAfter, hc, ih hcs]
  exact hchars _ h

/-- What a text begins with, it begins with when something is written behind it. -/
theorem begins_append (h : Begins s.toList) (t : String) : Begins (s ++ t).toList := by
  rw [String.toList_append]
  exact h.append _

/-! ## Lines -/

/-- **A line stands at a depth**: four blanks for each step, and then something that is no blank. A line
that begins with a closing brace stands where the brace was opened. -/
def StandsAt (d : Int) (line : List Char) : Prop :=
  ∃ (steps : Nat) (c : Char) (rest : List Char),
    line = List.replicate (4 * steps) ' ' ++ c :: rest ∧ c ≠ ' ' ∧
      (steps : Int) = if c = '\x7d' then d - 1 else d

/-- **A line leads from a depth to a depth.** It stands at the first one. -/
inductive Fits : Nat → List Char → Nat → Prop
  | content {d n : Nat} {s : String} : Begins s.toList → Leads 0 s n →
    Fits d (List.replicate (4 * d) ' ' ++ s.toList) (d + n)
  | closing {d : Nat} : Fits (d + 1) (List.replicate (4 * d) ' ' ++ ['\x7d']) d

/-- **Lines lead from a depth to a depth**, one after the other. -/
inductive Nest : Nat → List (List Char) → Nat → Prop
  | nil {d : Nat} : Nest d [] d
  | cons {d d' d'' : Nat} {line : List Char} {lines : List (List Char)} :
    Fits d line d' → Nest d' lines d'' → Nest d (line :: lines) d''

theorem depth_replicate_blank (n : Nat) : depth (List.replicate n ' ') = 0 := by
  simp [depth, List.count_replicate]

theorem Fits.eq_add_depth (h : Fits d line d') : (d' : Int) = d + depth line := by
  cases h with
  | content _ hleads =>
    have hn := Text.eq_add_depth hleads
    rw [depth_append, depth_replicate_blank]
    omega
  | closing =>
    rw [depth_append, depth_replicate_blank, depth_close]
    omega

theorem Fits.standsAt (h : Fits d line d') : StandsAt d line := by
  cases h with
  | content hbegins hleads =>
    obtain ⟨c, cs, hs, hc⟩ := hbegins
    refine ⟨d, c, cs, by rw [hs], ?_, ?_⟩
    · rintro rfl
      exact absurd hc (by decide)
    · -- nothing is open yet that a brace in front could close
      rw [if_neg]
      rintro rfl
      rw [Leads, hs] at hleads
      cases hleads
  | closing => exact ⟨d', '\x7d', [], rfl, by decide, by simp⟩

theorem Fits.not_mem (h : Fits d line d') : '\n' ∉ line ∧ '\r' ∉ line := by
  cases h with
  | content _ hleads =>
    obtain ⟨hfeed, hreturn⟩ := not_mem_of_depthAfter hleads
    simp [hfeed, hreturn]
  | closing => simp

theorem Fits.ne_nil (h : Fits d line d') : line ≠ [] := by
  obtain ⟨steps, c, rest, rfl, -⟩ := h.standsAt
  simp

/-- The depth of a part of a line does not depend on the blanks before it. -/
theorem exists_depth_front (h : List.replicate n ' ' ++ cs = front ++ back) :
    ∃ part rest, cs = part ++ rest ∧ depth front = depth part := by
  rcases List.append_eq_append_iff.1 h with ⟨part, rfl, hcs⟩ | ⟨part, hblanks, -⟩
  · exact ⟨part, back, hcs, by rw [depth_append, depth_replicate_blank, Int.zero_add]⟩
  · -- the part ends among the blanks
    have hfront : front = List.replicate front.length ' ' :=
      List.eq_replicate_of_mem fun c hc =>
        List.eq_of_mem_replicate (hblanks ▸ List.mem_append_left _ hc)
    exact ⟨[], cs, rfl, by rw [hfront, depth_replicate_blank, depth_nil]⟩

/-- No more braces are closed in a part of the line than are open. -/
theorem Fits.depth_front_nonneg (h : Fits d line d') (hfront : line = front ++ back) :
    0 ≤ d + depth front := by
  cases h with
  | content _ hleads =>
    obtain ⟨part, rest, hs, hdepth⟩ := exists_depth_front hfront
    have hpart := Text.depth_front_nonneg hleads hs
    omega
  | closing =>
    obtain ⟨part, rest, hbrace, hdepth⟩ := exists_depth_front hfront
    have hpart : depth part = 0 ∨ depth part = -1 := by
      rcases List.append_eq_singleton_iff.1 hbrace.symm with ⟨rfl, -⟩ | ⟨rfl, -⟩
      · exact .inl rfl
      · exact .inr rfl
    omega

/-- The same line further in. -/
theorem Fits.indent (h : Fits d line d') (k : Nat) :
    Fits (d + k) (List.replicate (4 * k) ' ' ++ line) (d' + k) := by
  cases h with
  | content hbegins hleads =>
    have hline := Fits.content (d := d + k) hbegins hleads
    rw [Nat.add_right_comm] at hline
    rwa [← List.append_assoc, List.replicate_append_replicate, ← Nat.mul_add, Nat.add_comm k]
  | closing =>
    have hline : Fits (d' + k + 1) _ (d' + k) := .closing
    rw [Nat.add_right_comm] at hline
    rwa [← List.append_assoc, List.replicate_append_replicate, ← Nat.mul_add, Nat.add_comm k]

theorem Nest.append (h : Nest d ls d') (h' : Nest d' ls' d'') : Nest d (ls ++ ls') d'' := by
  induction h with
  | nil => exact h'
  | cons hline _ ih => exact .cons hline (ih h')

theorem Nest.indent (h : Nest d ls d') (k : Nat) :
    Nest (d + k) (ls.map (List.replicate (4 * k) ' ' ++ ·)) (d' + k) := by
  induction h with
  | nil => exact .nil
  | cons hline _ ih => exact .cons (hline.indent k) ih

theorem Nest.fits (h : Nest d ls d') (hline : line ∈ ls) : ∃ d d', Fits d line d' := by
  induction h with
  | nil => cases hline
  | cons hfirst _ ih =>
    rcases List.mem_cons.1 hline with rfl | hline
    · exact ⟨_, _, hfirst⟩
    · exact ih hline

/-! ## Texts of lines -/

/-- The text of some lines, each with its line feed. -/
def unlines (ls : List (List Char)) : List Char :=
  ls.flatMap (· ++ ['\n'])

/-- **Code leads from a depth to a depth.** -/
def LaidOut (d : Nat) (code : String) (d' : Nat) : Prop :=
  ∃ ls, code.toList = unlines ls ∧ Nest d ls d'

/-- A line is read up to its line feed. -/
theorem lines_append (hline : '\n' ∉ line ∧ '\r' ∉ line) :
    Text.lines (line ++ '\n' :: cs) = line :: Text.lines cs := by
  induction line with
  | nil => rw [List.nil_append, Text.lines]
  | cons c line ih =>
    simp only [List.mem_cons, not_or] at hline
    obtain ⟨⟨hfeed, hline⟩, hreturn, hline'⟩ := hline
    rw [List.cons_append, Text.lines, ih ⟨hline, hline'⟩]
    · exact fun h => hfeed h.symm
    · exact fun _ h => absurd h.symm hreturn

theorem lines_unlines (h : ∀ line ∈ ls, '\n' ∉ line ∧ '\r' ∉ line) :
    Text.lines (unlines ls) = ls := by
  induction ls with
  | nil => rw [unlines, List.flatMap_nil, Text.lines]
  | cons line ls ih =>
    obtain ⟨hline, hls⟩ := List.forall_mem_cons.1 h
    rw [unlines, List.flatMap_cons, List.append_assoc, List.singleton_append, lines_append hline]
    exact congrArg _ (ih hls)

/-- A line with something in it is moved to the right by four blanks for each level. -/
theorem indentLine_of_ne_nil (h : line ≠ []) :
    indentLine k line = List.replicate (4 * k) ' ' ++ line ++ ['\n'] := by
  have hindentation : indentation = List.replicate 4 ' ' := rfl
  rw [indentLine, if_neg (by simpa using h), hindentation, List.flatten_replicate_replicate,
    Nat.mul_comm]

namespace LaidOut

theorem empty : LaidOut d "" d :=
  ⟨[], rfl, .nil⟩

theorem append (h : LaidOut d code d') (h' : LaidOut d' code' d'') : LaidOut d (code ++ code') d'' := by
  obtain ⟨ls, hcode, hls⟩ := h
  obtain ⟨ls', hcode', hls'⟩ := h'
  refine ⟨ls ++ ls', ?_, hls.append hls'⟩
  rw [String.toList_append, hcode, hcode', unlines, unlines, unlines, List.flatMap_append]

/-- A line behind its blanks. -/
theorem single {blanks : String} (hblanks : blanks.toList = List.replicate (4 * d) ' ')
    (hbegins : Begins s.toList) (hleads : Leads 0 s n) : LaidOut d (blanks ++ s ++ "\n") (d + n) := by
  refine ⟨[List.replicate (4 * d) ' ' ++ s.toList], ?_, .cons (.content hbegins hleads) .nil⟩
  simp [unlines, hblanks]

/-- A closing brace behind its blanks. -/
theorem closing {blanks : String} (hblanks : blanks.toList = List.replicate (4 * d) ' ') :
    LaidOut (d + 1) (blanks ++ "\x7d" ++ "\n") d := by
  refine ⟨[List.replicate (4 * d) ' ' ++ ['\x7d']], ?_, .cons .closing .nil⟩
  simp [unlines, hblanks]

/-- **Code that is moved to the right** stands as deep as it is moved. -/
theorem indent (h : LaidOut d code d') (k : Nat) : LaidOut (d + k) (Text.indent k code) (d' + k) := by
  obtain ⟨ls, hcode, hls⟩ := h
  refine ⟨ls.map (List.replicate (4 * k) ' ' ++ ·), ?_, hls.indent k⟩
  have hlines : Text.lines (unlines ls) = ls := by
    refine lines_unlines fun line hline => ?_
    obtain ⟨_, _, hfits⟩ := hls.fits hline
    exact hfits.not_mem
  rw [Text.indent, String.toList_ofList, hcode, hlines, unlines, List.flatMap_map]
  refine List.flatMap_congr fun line hline => ?_
  obtain ⟨_, _, hfits⟩ := hls.fits hline
  exact indentLine_of_ne_nil hfits.ne_nil

end LaidOut

/-! ## What is read off the text -/

/-- **Code is laid out by depth.** A line is what stands between two line feeds, or before the first one. -/
structure IsLaidOut (code : String) : Prop where
  /-- The last line ends too. -/
  ends : code = "" ∨ code.toList.getLast? = some '\n'
  balanced : depth code.toList = 0
  /-- Nowhere are more braces closed than opened. -/
  nested : ∀ front back, code.toList = front ++ back → 0 ≤ depth front
  /-- Every line stands at the depth of what comes before it. -/
  placed : ∀ before line after, code.toList = before ++ (line ++ '\n' :: after) →
    before = [] ∨ before.getLast? = some '\n' → '\n' ∉ line → StandsAt (depth before) line

theorem Nest.eq_add_depth (h : Nest d ls d') : (d' : Int) = d + depth (unlines ls) := by
  induction h with
  | nil => simp [unlines]
  | cons hline _ ih =>
    have hfirst := hline.eq_add_depth
    rw [unlines, List.flatMap_cons, depth_append, depth_append, depth_lineFeed, ← unlines]
    omega

/-- At no place are more braces closed than are open. -/
theorem Nest.depth_front_nonneg (h : Nest d ls d') :
    ∀ {front back : List Char}, unlines ls = front ++ back → 0 ≤ d + depth front := by
  induction h with
  | nil =>
    intro front back hsplit
    obtain ⟨rfl, -⟩ := List.append_eq_nil_iff.1 hsplit.symm
    simp
  | @cons d d' d'' line ls hline _ ih =>
    intro front back hsplit
    rw [unlines, List.flatMap_cons, ← unlines] at hsplit
    rcases List.append_eq_append_iff.1 hsplit with ⟨part, rfl, hrest⟩ | ⟨part, hfirst, -⟩
    · -- the whole line, and a part of what follows
      have hfirst := hline.eq_add_depth
      have hpart := ih hrest
      rw [depth_append, depth_append, depth_lineFeed]
      omega
    · -- the line with its line feed, or a part of the line only
      rcases List.eq_nil_or_concat part with rfl | ⟨part, c, rfl⟩
      · have hfirst' := hline.eq_add_depth
        rw [List.append_nil] at hfirst
        rw [← hfirst, depth_append, depth_lineFeed]
        omega
      · rw [List.concat_eq_append, ← List.append_assoc] at hfirst
        exact hline.depth_front_nonneg (List.append_inj_left' hfirst rfl)

/-- A line ends at its line feed, whatever follows. -/
theorem line_inj {line' after' : List Char} (hline : '\n' ∉ line) (hline' : '\n' ∉ line')
    (h : line ++ '\n' :: after = line' ++ '\n' :: after') : line = line' ∧ after = after' := by
  rcases List.append_eq_append_iff.1 h with ⟨part, rfl, hrest⟩ | ⟨part, rfl, hrest⟩ <;>
    cases part <;> simp_all

/-- **Every line stands at the depth of what comes before it.** -/
theorem Nest.standsAt (h : Nest d ls d') :
    ∀ {before line after : List Char}, unlines ls = before ++ (line ++ '\n' :: after) →
      before = [] ∨ before.getLast? = some '\n' → '\n' ∉ line → StandsAt (d + depth before) line := by
  induction h with
  | nil =>
    intro before line after hsplit
    simp [unlines] at hsplit
  | @cons d d' d'' first ls hfirst _ ih =>
    intro before line after hsplit hbefore hline
    rw [unlines, List.flatMap_cons, List.append_assoc, List.singleton_append, ← unlines] at hsplit
    rcases hbefore with rfl | hbefore
    · -- it is the first line
      obtain ⟨rfl, -⟩ := line_inj hfirst.not_mem.1 hline hsplit
      rw [depth_nil, Int.add_zero]
      exact hfirst.standsAt
    · -- the first line is a part of what comes before
      obtain ⟨part, rest, rfl, hpart⟩ := List.eq_append_cons_of_mem (List.mem_of_getLast? hbefore)
      rw [List.append_assoc, List.cons_append] at hsplit
      obtain ⟨rfl, hbehind⟩ := line_inj hfirst.not_mem.1 hpart hsplit
      have hrest : rest = [] ∨ rest.getLast? = some '\n' := by
        rcases List.eq_nil_or_concat rest with rfl | ⟨rest, c, rfl⟩
        · exact .inl rfl
        · rw [List.concat_eq_append, ← List.cons_append, ← List.append_assoc, List.getLast?_concat]
            at hbefore
          exact .inr (by rw [List.concat_eq_append, List.getLast?_concat, hbefore])
      have hdepth : (d : Int) + depth (first ++ '\n' :: rest) = d' + depth rest := by
        have hcount := hfirst.eq_add_depth
        rw [depth_append, depth_cons, depth_lineFeed]
        omega
      rw [hdepth]
      exact ih hbehind hrest hline

/-- **Code that leads from the depth zero back to it** is laid out by depth. -/
theorem LaidOut.isLaidOut (h : LaidOut 0 code 0) : IsLaidOut code := by
  obtain ⟨ls, hcode, hls⟩ := h
  refine ⟨?_, ?_, ?_, ?_⟩
  · rcases List.eq_nil_or_concat ls with rfl | ⟨ls, line, rfl⟩
    · exact .inl (String.toList_inj.1 hcode)
    · refine .inr ?_
      rw [hcode, unlines, List.concat_eq_append, List.flatMap_append]
      simp
  · have hdepth := hls.eq_add_depth
    rw [hcode]
    omega
  · intro front back hsplit
    have hfront := hls.depth_front_nonneg (hcode ▸ hsplit)
    omega
  · intro before line after hsplit hbefore hline
    have hstands := hls.standsAt (hcode ▸ hsplit) hbefore hline
    rwa [Int.natCast_zero, Int.zero_add] at hstands

end Wiring.Text
