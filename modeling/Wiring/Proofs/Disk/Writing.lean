import Wiring.Disk.Writing

/-!
# What writing a file changes

A text is written beside its place first and moved there, so that two places change: the one that the text
is for, and the one beside it, which is empty afterwards whatever was there before. Apart from these two,
the disk only gains the directories that were missing on the way.

* `Disk.descend_mono`, `Disk.locate_mono`: more directories lead to the same places.
* `Disk.get?_makeDirectories`: what making directories changes.
* `Disk.writeIfChanged_eq_ok`: how a text is written.
* `Disk.writeIfChanged_leaves_others`: what the disk is afterwards.
* `Disk.draft_is_lost`: a file beside the place can be lost.
-/

namespace Wiring.Disk

variable {disk later : Disk} {p : Path} {content : String} {location goal : Location}
  {entry : Entry} {steps : List Path.Step}

/-! ## Places -/

theorem get?_nil (disk : Disk) : disk.get? [] = some .directory := by
  simp [get?]

theorem get?_remove_self (h : location ≠ []) : (disk.remove location).get? location = none := by
  simp [get?, remove, h]

theorem ne_nil_of_not_isDirectory (h : disk.isDirectory location = false) : location ≠ [] := by
  rintro rfl
  simp [isDirectory, get?_nil] at h

/-- Where steps lead is the same on a disk with more directories. -/
theorem descend_mono (h : ∀ l, disk.isDirectory l = true → later.isDirectory l = true)
    (hgoal : disk.descend location steps = some goal) : later.descend location steps = some goal := by
  induction steps generalizing location with
  | nil => exact hgoal
  | cons step steps ih =>
    rw [descend] at hgoal
    split at hgoal
    · rename_i hdirectory
      rw [descend, if_pos (h location hdirectory)]
      exact ih hgoal
    · cases hgoal

theorem locate_mono (hgoal : disk.locate p = some goal) (hhome : later.home = disk.home)
    (h : ∀ l, disk.isDirectory l = true → later.isDirectory l = true) :
    later.locate p = some goal := by
  unfold locate at hgoal ⊢
  split at hgoal
  · cases hgoal
  · rename_i husable
    rw [if_neg husable, hhome]
    exact descend_mono h hgoal

/-- What a path leads to, if it can stand for a file. -/
theorem text?_of_locate (hgoal : disk.locate p = some goal) (hdirectory : p.isDirectoryOnly = false)
    (htext : disk.get? goal = some (.text content)) : disk.text? p = some content := by
  have hlookup : disk.lookup p = some (.text content) := by
    rw [lookup, hgoal, Option.bind_some, htext, hdirectory]
    rfl
  rw [text?, hlookup]

/-! ## Directories on the way -/

/-- **The locations that some steps pass through.** -/
def way (location : Location) : List Path.Step → List Location
  | [] => []
  | step :: steps => step.from location :: way (step.from location) steps

/-- **Making directories** puts one wherever nothing is on the way, and changes nothing else. -/
theorem get?_makeDirectories (h : disk.makeDirectories location steps = (.ok (), later)) :
    later.home = disk.home ∧ ∀ l, later.get? l =
      if disk.get? l = none ∧ l ∈ way location steps then some .directory else disk.get? l := by
  induction steps generalizing disk location with
  | nil =>
    cases h
    exact ⟨rfl, fun l => by simp [way]⟩
  | cons step steps ih =>
    rw [makeDirectories] at h
    split at h
    · rename_i hnext
      obtain ⟨hhome, hget⟩ := ih h
      refine ⟨hhome, fun l => ?_⟩
      rw [hget l, way]
      by_cases hl : l = step.from location
      · subst hl
        simp [hnext]
      · simp [hl]
    · cases h
    · rename_i hnext
      split at h
      · have hne : step.from location ≠ [] := by
          intro hnil
          rw [hnil, get?_nil] at hnext
          cases hnext
        obtain ⟨hhome, hget⟩ := ih h
        refine ⟨hhome, fun l => ?_⟩
        rw [hget l, way]
        by_cases hl : l = step.from location
        · subst hl
          simp [get?_put_self _ _ hne, hnext]
        · simp [get?_put_of_ne _ _ hl, hl]
      · cases h

theorem get?_makeParents (h : disk.makeParents p = (.ok (), later)) :
    later.home = disk.home ∧ ∀ l, later.get? l =
      if disk.get? l = none ∧ l ∈ way disk.home p.parent.steps then some .directory
      else disk.get? l := by
  unfold makeParents at h
  split at h
  · exact get?_makeDirectories h
  · cases h

/-! ## Writing and moving -/

/-- A text is put where its path leads, if no directory lies there. -/
theorem write_eq_ok (h : disk.write p content = .ok later) :
    ∃ goal, disk.locate p = some goal ∧ disk.isDirectory goal = false ∧
      later = disk.put goal (.text content) := by
  unfold write at h
  split at h
  · cases h
  · rename_i goal hgoal
    split at h
    · cases h
    · rename_i hfree
      cases h
      simp only [Bool.or_eq_true, not_or, Bool.not_eq_true] at hfree
      exact ⟨goal, hgoal, hfree.1, rfl⟩

/-- What is moved takes the place of whatever lies there, unless that is a directory. -/
theorem move_eq_ok {source target : Path} (h : disk.move source target = .ok later) :
    ∃ start goal entry, disk.locate source = some start ∧ disk.locate target = some goal ∧
      disk.get? start = some entry ∧ disk.isDirectory goal = false ∧
      target.isDirectoryOnly = false ∧ later = (disk.remove start).put goal entry := by
  unfold move at h
  split at h
  · cases h
  · cases h
  · rename_i start goal hstart hgoal
    split at h
    · cases h
    · rename_i entry hentry
      split at h
      · cases h
      · rename_i hfree
        split at h
        · cases h
        · rename_i hfile
          cases h
          simp only [Bool.or_eq_true, not_or, Bool.not_eq_true] at hfree hfile
          exact ⟨start, goal, entry, hstart, hgoal, hentry, hfree.2, hfile, rfl⟩

/-- What lies where after something has gone to its place by way of another one. -/
theorem get?_carried {beside : Location} (hbeside : beside ≠ []) (hgoal : goal ≠ []) (l : Location) :
    (((disk.put beside entry).remove beside).put goal entry).get? l =
      if l = goal then some entry else if l = beside then none else disk.get? l := by
  by_cases hl : l = goal
  · rw [if_pos hl, hl, get?_put_self _ _ hgoal]
  · rw [if_neg hl, get?_put_of_ne _ _ hl]
    by_cases hl' : l = beside
    · rw [if_pos hl', hl', get?_remove_self hbeside]
    · rw [if_neg hl', get?_remove_of_ne _ hl', get?_put_of_ne _ _ hl']

/-- **A text has gone to its place by way of another one**, which is empty afterwards. Neither place was a
directory, and nothing else has changed. -/
structure Carried (earlier later : Disk) (beside goal : Location) (content : String) : Prop where
  home : later.home = earlier.home
  beside_free : earlier.isDirectory beside = false
  goal_free : earlier.isDirectory goal = false
  get? : ∀ l, later.get? l =
    if l = goal then some (.text content) else if l = beside then none else earlier.get? l

/-- Nothing is left at the place beside. -/
theorem Carried.beside_empty {beside : Location} (h : Carried disk later beside goal content)
    (hne : beside ≠ goal) : later.get? beside = none := by
  rw [h.get?, if_neg hne, if_pos rfl]

/-- What lay somewhere lies there still, if it was not at one of the two places. -/
theorem Carried.kept {beside : Location} (h : Carried disk later beside goal content)
    (hentry : disk.get? location = some entry) :
    later.get? location = some entry ∨
      entry ≠ .directory ∧ (location = goal ∨ location = beside ∧ later.get? location = none) := by
  have hnot : ∀ {l : Location}, disk.isDirectory l = false → location = l → entry ≠ .directory := by
    rintro l hfree rfl rfl
    rw [isDirectory, hentry] at hfree
    cases hfree
  by_cases hplace : location = goal
  · exact .inr ⟨hnot h.goal_free hplace, .inl hplace⟩
  · by_cases hdraft : location = beside
    · have hgone : later.get? location = none := hdraft ▸ h.beside_empty (hdraft ▸ hplace)
      exact .inr ⟨hnot h.beside_free hdraft, .inr ⟨hdraft, hgone⟩⟩
    · left
      rw [h.get?, if_neg hplace, if_neg hdraft, hentry]

/-- What lies somewhere lay there before, or it has been put there. -/
theorem Carried.added {beside : Location} (h : Carried disk later beside goal content)
    (hentry : later.get? location = some entry) :
    location = goal ∨ disk.get? location = some entry := by
  by_cases hplace : location = goal
  · exact .inl hplace
  · rw [h.get?, if_neg hplace] at hentry
    split at hentry
    · cases hentry
    · exact .inr hentry

theorem exists_carried {drafted : Disk}
    (hwrite : disk.write (p.sibling temporaryExtension) content = .ok drafted)
    (hmove : drafted.move (p.sibling temporaryExtension) p = .ok later) :
    ∃ beside goal, Carried disk later beside goal content ∧ p.isDirectoryOnly = false ∧
      later.locate (p.sibling temporaryExtension) = some beside ∧ later.locate p = some goal := by
  obtain ⟨beside, hbeside, hfree, rfl⟩ := write_eq_ok hwrite
  obtain ⟨start, goal, entry, hstart, hgoal, hentry, hopen, hfile, rfl⟩ := move_eq_ok hmove
  have hbesideNe := ne_nil_of_not_isDirectory hfree
  have hgoalNe := ne_nil_of_not_isDirectory hopen
  -- the directories on the way to the two places are neither of them, so that they stay
  have hdrafted : ∀ l, (disk.put beside (.text content)).isDirectory l = disk.isDirectory l := by
    intro l
    by_cases hl : l = beside
    · subst hl
      rw [hfree, isDirectory, get?_put_self _ _ hbesideNe]
      rfl
    · rw [isDirectory, get?_put_of_ne _ _ hl, isDirectory]
  have hsame : (disk.put beside (.text content)).locate (p.sibling temporaryExtension) = some beside :=
    locate_mono hbeside rfl fun l hl => (hdrafted l).trans hl
  rw [hstart] at hsame
  cases hsame
  rw [get?_put_self _ _ hbesideNe] at hentry
  cases hentry
  rw [hdrafted] at hopen
  have hget : ∀ l, (((disk.put beside (.text content)).remove beside).put goal (.text content)).get? l =
      if l = goal then some (.text content) else if l = beside then none else disk.get? l :=
    get?_carried hbesideNe hgoalNe
  have hlater : ∀ l, disk.isDirectory l = true →
      (((disk.put beside (.text content)).remove beside).put goal (.text content)).isDirectory l =
        true := by
    intro l hl
    have hne : ∀ {free : Location}, disk.isDirectory free = false → l ≠ free := by
      rintro free hfree rfl
      rw [hl] at hfree
      cases hfree
    rwa [isDirectory, hget, if_neg (hne hopen), if_neg (hne hfree)]
  exact ⟨beside, goal, ⟨rfl, hfree, hopen, hget⟩, hfile, locate_mono hbeside rfl hlater,
    locate_mono hgoal rfl fun l hl => hlater l ((hdrafted l).symm.trans hl)⟩

/-- **How a text is written**: it is there already, or the directories above it are made and it is carried
to its place. -/
theorem writeIfChanged_eq_ok {written : Bool}
    (h : disk.writeIfChanged p content = (.ok written, later)) :
    (disk.text? p = some content ∧ written = false ∧ later = disk) ∨
      disk.text? p ≠ some content ∧ written = true ∧ p.isDirectoryOnly = false ∧
        ∃ ready beside goal, disk.makeParents p = (.ok (), ready) ∧
          Carried ready later beside goal content ∧
          later.locate (p.sibling temporaryExtension) = some beside ∧ later.locate p = some goal := by
  unfold writeIfChanged at h
  split at h
  · rename_i htext
    cases h
    exact .inl ⟨htext, rfl, rfl⟩
  · rename_i htext
    split at h
    · cases h
    · rename_i ready hready
      simp only at h
      split at h
      · cases h
      · rename_i drafted hdrafted
        split at h
        · rename_i moved hmoved
          cases h
          obtain ⟨beside, goal, hcarried, hfile, hbeside, hgoal⟩ := exists_carried hdrafted hmoved
          exact .inr ⟨htext, rfl, hfile, ready, beside, goal, hready, hcarried, hbeside, hgoal⟩
        · cases h

/-- **What the disk is after a text was put into the file of a path.** The file holds the text. Whatever lay
anywhere else lies there still, but for a file at the place beside it, at the path with the extension of
temporary files: if something was written, nothing is at that place any more, unless it is the place of the
file itself. What is new elsewhere are directories on the way. Nothing is written exactly if the file held
the text before, and then nothing has changed, as if the text is put there once more. -/
theorem writeIfChanged_leaves_others {written : Bool}
    (h : disk.writeIfChanged p content = (.ok written, later)) :
    later.text? p = some content ∧ later.home = disk.home ∧
      (∀ location entry, disk.get? location = some entry → later.get? location = some entry ∨
        entry ≠ .directory ∧ (later.locate p = some location ∨
          written = true ∧ later.locate (p.sibling temporaryExtension) = some location ∧
            later.get? location = none)) ∧
      (written = true → ∃ beside, later.locate (p.sibling temporaryExtension) = some beside ∧
        (later.locate p = some beside ∨ later.get? beside = none)) ∧
      (∀ location entry, disk.get? location = none → later.get? location = some entry →
        later.locate p = some location ∨
          entry = .directory ∧ location ∈ way disk.home p.parent.steps) ∧
      (written = false ↔ disk.text? p = some content) ∧ (written = false → later = disk) ∧
      later.writeIfChanged p content = (.ok false, later) := by
  have hagain : later.text? p = some content → later.writeIfChanged p content = (.ok false, later) := by
    intro htext
    rw [writeIfChanged, if_pos htext]
  rcases writeIfChanged_eq_ok h with ⟨htext, rfl, rfl⟩ |
    ⟨hchanged, rfl, hfile, ready, beside, goal, hready, hcarried, hbeside, hgoal⟩
  · refine ⟨htext, rfl, fun location entry hentry => .inl hentry, by simp, ?_, by simp [htext],
      fun _ => rfl, hagain htext⟩
    intro location entry hnone hsome
    rw [hnone] at hsome
    cases hsome
  · obtain ⟨hhome, hmade⟩ := get?_makeParents hready
    have htext : later.text? p = some content := by
      refine text?_of_locate hgoal hfile ?_
      rw [hcarried.get?, if_pos rfl]
    refine ⟨htext, hcarried.home.trans hhome, ?_, fun _ => ⟨beside, hbeside, ?_⟩, ?_,
      by simp [hchanged], by simp, hagain htext⟩
    · intro location entry hentry
      have hready : ready.get? location = some entry := by
        rw [hmade, if_neg (by simp [hentry]), hentry]
      rcases hcarried.kept hready with hkept | ⟨hfile, hplace | ⟨hdraft, hgone⟩⟩
      · exact .inl hkept
      · exact .inr ⟨hfile, .inl (hplace ▸ hgoal)⟩
      · exact .inr ⟨hfile, .inr ⟨rfl, hdraft ▸ hbeside, hgone⟩⟩
    · by_cases hplace : beside = goal
      · exact .inl (hplace ▸ hgoal)
      · exact .inr (hcarried.beside_empty hplace)
    · intro location entry hnone hsome
      rcases hcarried.added hsome with hplace | hready
      · exact .inl (hplace ▸ hgoal)
      · rw [hmade] at hready
        split at hready
        · rename_i hway
          cases hready
          exact .inr ⟨rfl, hway.2⟩
        · rw [hnone] at hready
          cases hready

/-- A disk with a note, and with a file whose name differs from that of a generated file in its extension. -/
def deskDisk : Disk :=
  ⟨[(["notes.txt"], .text "keep\n"), (["Wiring.tmp"], .text "mine\n")], []⟩

/-- The disk after the generated file was put beside the note. -/
def sweptDesk : Disk :=
  ⟨[(["Wiring.swift"], .text "// wiring\n"), (["drafts"], .directory), (["notes.txt"], .text "keep\n")],
    []⟩

/-- A path to the generated file; on the way there is a directory that has to be made. -/
def windingPath : Path := ⟨"drafts/../Wiring.swift"⟩

/-- The note is left alone, and the file of the same name as the generated one is gone. -/
theorem sweptDesk_leaves_notes :
    deskDisk.writeIfChanged windingPath "// wiring\n" = (.ok true, sweptDesk) ∧
      sweptDesk.text? windingPath = some "// wiring\n" ∧
      sweptDesk.text? ⟨"notes.txt"⟩ = some "keep\n" ∧ sweptDesk.get? ["Wiring.tmp"] = none ∧
      sweptDesk.writeIfChanged windingPath "// wiring\n" = (.ok false, sweptDesk) := by
  have hwritten : deskDisk.writeIfChanged windingPath "// wiring\n" = (.ok true, sweptDesk) := by
    with_unfolding_all rfl
  obtain ⟨htext, -, hkept, hswept, -, -, -, hagain⟩ := writeIfChanged_leaves_others hwritten
  have hplace : sweptDesk.locate ⟨"notes.txt"⟩ = some ["notes.txt"] := by with_unfolding_all rfl
  have hgoal : sweptDesk.locate windingPath = some ["Wiring.swift"] := by with_unfolding_all rfl
  have hbeside : sweptDesk.locate (windingPath.sibling temporaryExtension) = some ["Wiring.tmp"] := by
    with_unfolding_all rfl
  refine ⟨hwritten, htext, ?_, ?_, hagain⟩
  · rcases hkept ["notes.txt"] (.text "keep\n") rfl with hkept | ⟨-, hlost | ⟨-, hlost, -⟩⟩
    · exact text?_of_locate hplace (by decide) hkept
    · rw [hgoal] at hlost
      exact absurd (Option.some.inj hlost) (by decide)
    · rw [hbeside] at hlost
      exact absurd (Option.some.inj hlost) (by decide)
  · obtain ⟨beside, hplace, hgone⟩ := hswept rfl
    cases hbeside.symm.trans hplace
    refine hgone.resolve_left fun hsame => ?_
    rw [hgoal] at hsame
    exact absurd (Option.some.inj hsame) (by decide)

/-- **A file can be lost that is not the one written**: the text goes through the place beside it, whatever
lies there. -/
theorem draft_is_lost :
    ¬ ∀ (disk later : Disk) (p : Path) (content : String) (written : Bool) (location : Location)
        (entry : Entry), disk.writeIfChanged p content = (.ok written, later) →
      disk.get? location = some entry → later.locate p ≠ some location →
      later.get? location = some entry := by
  intro h
  have hwritten : writeIfChanged ⟨[(["Wiring.tmp"], .text "mine\n")], []⟩ ⟨"Wiring.swift"⟩
      "// wiring\n" = (.ok true, ⟨[(["Wiring.swift"], .text "// wiring\n")], []⟩) := by
    with_unfolding_all rfl
  have hgoal : locate ⟨[(["Wiring.swift"], .text "// wiring\n")], []⟩ ⟨"Wiring.swift"⟩ =
      some ["Wiring.swift"] := by with_unfolding_all rfl
  have hkept := h _ _ _ _ _ ["Wiring.tmp"] (.text "mine\n") hwritten rfl (by rw [hgoal]; decide)
  cases hkept

end Wiring.Disk
