import EightBit.Text.Basic
import Mathlib.Data.List.DropRight
import Mathlib.Data.List.TakeWhile

/-!
# Cutting Off Blanks

Every text is blanks, a core, and blanks again, and trimming finds the core. The functions of
`Text.Blank` are used through the equations of this module only.

## Main Statements

- `exists_eq_append_trim`: a text is its core between blanks.
- `trim_between_blanks`: the core between blanks is found whatever the blanks are.
-/

namespace EightBit.Text

/-! ## Blank and trimmed texts -/

/-- All characters of the text are blank. -/
def AllBlank (text : List Char) : Prop :=
  ∀ c ∈ text, isBlank c = true

instance (text : List Char) : Decidable (AllBlank text) :=
  decidable_of_iff (text.all isBlank = true) List.all_eq_true

theorem AllBlank.nil : AllBlank [] := by
  intro c mem
  cases mem

theorem allBlank_space : AllBlank [' '] := by decide

/-- No character of the text is blank. -/
def NoBlank (text : List Char) : Prop :=
  ∀ c ∈ text, isBlank c = false

/-- The text has no blank at either end. -/
structure Trimmed (text : List Char) : Prop where
  first : ∀ c ∈ text.head?, isBlank c = false
  last : ∀ c ∈ text.getLast?, isBlank c = false

theorem NoBlank.trimmed {text : List Char} (h : NoBlank text) : Trimmed text where
  first c mem := h c (List.mem_of_mem_head? mem)
  last c mem := h c (List.mem_of_mem_getLast? mem)

/-- A text that starts and ends with characters that are not blank is trimmed. -/
theorem trimmed_of_ends {c d : Char} {text middle : List Char} (shape : text = c :: middle ++ [d])
    (first : isBlank c = false) (last : isBlank d = false) : Trimmed text := by
  subst shape
  constructor
  · intro x mem
    simp only [List.cons_append, List.head?_cons, Option.mem_def, Option.some.injEq] at mem
    exact mem ▸ first
  · intro x mem
    simp only [List.getLast?_append, List.getLast?_singleton, Option.some_or, Option.mem_def,
      Option.some.injEq] at mem
    exact mem ▸ last

/-! ## The start -/

/-- A run of characters of one kind ends where the first of another kind stands. -/
theorem takeWhile_append_of_stop {p : Char → Bool} {run rest : List Char}
    (inRun : ∀ c ∈ run, p c = true) (stops : ∀ c ∈ rest.head?, p c = false) :
    (run ++ rest).takeWhile p = run ∧ (run ++ rest).dropWhile p = rest := by
  rw [List.takeWhile_append_of_pos inRun, List.dropWhile_append_of_pos inRun]
  cases rest with
  | nil => simp
  | cons c rest => simp [stops c rfl]

/-- Blanks at the start are cut off. -/
theorem trimStart_append {lead : List Char} (blank : AllBlank lead) (text : List Char) :
    trimStart (lead ++ text) = trimStart text :=
  List.dropWhile_append_of_pos blank

/-- A text that starts with a character that is not blank keeps its start. -/
@[simp] theorem trimStart_cons {c : Char} (h : isBlank c = false) (text : List Char) :
    trimStart (c :: text) = c :: text := by
  simp [trimStart, h]

theorem trimStart_of_first {text : List Char} (h : ∀ c ∈ text.head?, isBlank c = false) :
    trimStart text = text := by
  cases text with
  | nil => rfl
  | cons c rest => exact trimStart_cons (h c rfl) rest

/-- What is left of the start is not blank. -/
theorem first_trimStart (text : List Char) : ∀ c ∈ (trimStart text).head?, isBlank c = false := by
  intro c mem
  cases kept : trimStart text with
  | nil => simp [kept] at mem
  | cons d rest =>
    have := List.head?_dropWhile_not isBlank text
    simp_all [trimStart]

theorem takeWhile_append_trimStart (text : List Char) :
    text.takeWhile isBlank ++ trimStart text = text :=
  List.takeWhile_append_dropWhile

theorem allBlank_takeWhile (text : List Char) : AllBlank (text.takeWhile isBlank) :=
  fun _ mem => List.mem_takeWhile_imp mem

/-! ## The end -/

theorem trimEnd_eq_rdropWhile (text : List Char) : trimEnd text = text.rdropWhile isBlank :=
  rfl

/-- Blanks at the end are cut off. -/
theorem trimEnd_append {trail : List Char} (blank : AllBlank trail) (text : List Char) :
    trimEnd (text ++ trail) = trimEnd text := by
  have : AllBlank trail.reverse := fun c mem => blank c (List.mem_reverse.1 mem)
  simp only [trimEnd, List.reverse_append]
  rw [List.dropWhile_append_of_pos this]

theorem trimEnd_of_last {text : List Char} (h : ∀ c ∈ text.getLast?, isBlank c = false) :
    trimEnd text = text := by
  rw [trimEnd_eq_rdropWhile, List.rdropWhile_eq_self_iff]
  intro nonempty
  simp [h _ (List.getLast?_eq_some_getLast nonempty)]

/-- What is left of the end is not blank. -/
theorem last_trimEnd (text : List Char) : ∀ c ∈ (trimEnd text).getLast?, isBlank c = false := by
  intro c mem
  have first := first_trimStart text.reverse c
  rw [trimEnd, List.getLast?_reverse] at mem
  exact first mem

/-- A text is what is left of its end, and blanks. -/
theorem exists_eq_trimEnd_append (text : List Char) :
    ∃ trail, AllBlank trail ∧ text = trimEnd text ++ trail := by
  refine ⟨(text.reverse.takeWhile isBlank).reverse, ?_, ?_⟩
  · intro c mem
    exact allBlank_takeWhile _ c (List.mem_reverse.1 mem)
  · have reversed := congrArg List.reverse (takeWhile_append_trimStart text.reverse)
    rw [List.reverse_append, List.reverse_reverse] at reversed
    exact reversed.symm

/-! ## Both ends -/

theorem trim_of_trimmed {text : List Char} (h : Trimmed text) : trim text = text := by
  rw [trim, trimStart_of_first h.first, trimEnd_of_last h.last]

/-- The core of a text between blanks. -/
theorem trim_between_blanks {lead core trail : List Char} (blankLead : AllBlank lead)
    (trimmed : Trimmed core) (blankTrail : AllBlank trail) :
    trim (lead ++ core ++ trail) = core := by
  rw [trim, List.append_assoc, trimStart_append blankLead]
  cases core with
  | nil =>
    -- nothing but blanks: trimming takes all of them from the start
    have cut : trimEnd (trimStart trail) = [] := by
      have : trimStart trail = [] := by
        rw [trimStart, List.dropWhile_eq_nil_iff]
        exact blankTrail
      rw [this]
      rfl
    exact cut
  | cons c rest =>
    rw [List.cons_append, trimStart_cons (trimmed.first c rfl), ← List.cons_append,
      trimEnd_append blankTrail, trimEnd_of_last trimmed.last]

/-- **Every text is its core between blanks**, and the core is trimmed. -/
theorem exists_eq_append_trim (text : List Char) :
    ∃ lead trail, AllBlank lead ∧ AllBlank trail ∧ Trimmed (trim text) ∧
      text = lead ++ trim text ++ trail := by
  obtain ⟨trail, blankTrail, split⟩ := exists_eq_trimEnd_append (trimStart text)
  refine ⟨text.takeWhile isBlank, trail, allBlank_takeWhile text, blankTrail, ⟨?_, ?_⟩, ?_⟩
  · -- the core starts where the text does behind its blanks
    intro c mem
    refine first_trimStart text c ?_
    rw [split]
    cases core : trimEnd (trimStart text) with
    | nil => simp [trim, core] at mem
    | cons d rest =>
      rw [trim, core] at mem
      simpa using mem
  · exact last_trimEnd (trimStart text)
  · rw [trim, List.append_assoc, ← split, takeWhile_append_trimStart]

/-- A text that starts with a character that is not blank still does when it is trimmed. -/
theorem exists_trim_cons {c : Char} (noBlank : isBlank c = false) (text : List Char) :
    ∃ more, trim (c :: text) = c :: more := by
  obtain ⟨trail, blank, split⟩ := exists_eq_trimEnd_append (c :: text)
  rw [trim, trimStart_cons noBlank]
  cases core : trimEnd (c :: text) with
  | nil =>
    -- the whole text would be blank
    rw [core, List.nil_append] at split
    have := blank c (split ▸ List.mem_cons_self)
    rw [noBlank] at this
    cases this
  | cons d more =>
    rw [core, List.cons_append, List.cons.injEq] at split
    exact ⟨more, by rw [split.1]⟩

theorem trimmed_trim (text : List Char) : Trimmed (trim text) := by
  obtain ⟨_, _, _, _, trimmed, _⟩ := exists_eq_append_trim text
  exact trimmed

/-- The two ends can be cut off in either order. -/
theorem trim_eq_trimStart_trimEnd (text : List Char) : trim text = trimStart (trimEnd text) := by
  obtain ⟨lead, trail, blankLead, blankTrail, trimmed, split⟩ := exists_eq_append_trim text
  generalize trim text = core at trimmed split
  subst split
  rw [trimEnd_append blankTrail]
  -- a text of blanks only has no last character to stop at
  cases core with
  | nil =>
    have : trimEnd (lead ++ []) = [] := by
      rw [List.append_nil, ← List.nil_append lead, trimEnd_append blankLead]
      rfl
    rw [this]
    rfl
  | cons c rest =>
    have last : ∀ d ∈ (lead ++ c :: rest).getLast?, isBlank d = false := by
      intro d mem
      exact trimmed.last d (by simpa using mem)
    rw [trimEnd_of_last last, trimStart_append blankLead, trimStart_of_first trimmed.first]

theorem trim_append_left {lead : List Char} (blank : AllBlank lead) (text : List Char) :
    trim (lead ++ text) = trim text := by
  rw [trim, trimStart_append blank]
  rfl

theorem trim_append_right {trail : List Char} (blank : AllBlank trail) (text : List Char) :
    trim (text ++ trail) = trim text := by
  rw [trim_eq_trimStart_trimEnd, trimEnd_append blank, ← trim_eq_trimStart_trimEnd]

end EightBit.Text
