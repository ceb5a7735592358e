import EightBit.Text.Basic
import Mathlib.Data.List.Basic
import Mathlib.Data.List.TakeWhile

/-!
# Lines and Their Breaks

Cutting a text into lines can be undone in two ways: lines that are joined by line feeds are found
again, and a text can be changed line by line with its breaks left where they are.

## Main Definitions

- `mapLines`: applies a function to every line of a text and keeps the breaks.
- `extendLine`: adds to the end of one line of a text and keeps the breaks.

## Main Statements

- `splitLines_joinLines`: joined lines are found again.
- `splitLines_append_feed`: a line feed separates the lines of two texts.
- `splitLines_mapLines`: the lines of a text that was changed line by line are the changed lines.
- `splitLines_extendLine`: the lines of a text of which one was made longer.
-/

namespace EightBit.Text

/-! ## Lines and what follows them -/

/-- No character of the line ends it. -/
def NoBreak (line : List Char) : Prop :=
  ∀ c ∈ line, isLineBreak c = false

instance (line : List Char) : Decidable (NoBreak line) :=
  decidable_of_iff (line.any isLineBreak = false) (by simp [NoBreak])

theorem NoBreak.nil : NoBreak [] := by
  intro c mem
  cases mem

theorem NoBreak.append {left right : List Char} (hl : NoBreak left) (hr : NoBreak right) :
    NoBreak (left ++ right) := by
  intro c mem
  rcases List.mem_append.1 mem with inLeft | inRight
  · exact hl c inLeft
  · exact hr c inRight

/-- A break ends a line, unless it is the first half of a break of two characters. -/
theorem splitLines_break {c : Char} {rest : List Char} (breaks : isLineBreak c = true)
    (single : c = '\r' → ∀ more, rest ≠ '\n' :: more) :
    splitLines (c :: rest) = [] :: splitLines rest := by
  rw [splitLines.eq_def]
  split
  · next nothing => cases nothing
  · next more shape =>
    obtain ⟨isReturn, rfl⟩ := List.cons.inj shape
    exact absurd rfl (single isReturn more)
  · next d after _ shape =>
    obtain ⟨rfl, rfl⟩ := List.cons.inj shape
    rw [if_pos breaks]

/-- A character that is no break belongs to the first line. -/
theorem splitLines_cons {c : Char} {rest : List Char} (noBreak : isLineBreak c = false) :
    splitLines (c :: rest) = consLine c (splitLines rest) := by
  rw [splitLines.eq_def]
  split
  · next nothing => cases nothing
  · next more shape =>
    obtain ⟨rfl, -⟩ := List.cons.inj shape
    cases noBreak
  · next d after _ shape =>
    obtain ⟨rfl, rfl⟩ := List.cons.inj shape
    rw [if_neg (by simp [noBreak])]

/-- Puts characters in front of the first line. -/
theorem splitLines_append {line rest first : List Char} {others : List (List Char)}
    (noBreak : NoBreak line) (lines : splitLines rest = first :: others) :
    splitLines (line ++ rest) = (line ++ first) :: others := by
  induction line with
  | nil => simpa using lines
  | cons c line ih =>
    rw [List.cons_append, splitLines_cons (noBreak c List.mem_cons_self),
      ih fun d mem => noBreak d (List.mem_cons_of_mem c mem)]
    rfl

/-- A text without breaks is one line, unless it is empty. -/
theorem splitLines_of_noBreak {line : List Char} (noBreak : NoBreak line) (nonempty : line ≠ []) :
    splitLines line = [line] := by
  induction line with
  | nil => exact absurd rfl nonempty
  | cons c rest ih =>
    rw [splitLines_cons (noBreak c List.mem_cons_self)]
    cases rest with
    | nil => rfl
    | cons d rest =>
      rw [ih (fun x mem => noBreak x (List.mem_cons_of_mem c mem)) (by simp)]
      rfl

/-- A line that is followed by a break. -/
theorem splitLines_append_break {line rest : List Char} {c : Char} (noBreak : NoBreak line)
    (breaks : isLineBreak c = true) (single : c = '\r' → ∀ more, rest ≠ '\n' :: more) :
    splitLines (line ++ c :: rest) = line :: splitLines rest := by
  simpa using splitLines_append noBreak (splitLines_break breaks single)

/-- A line that is followed by a break of two characters. -/
theorem splitLines_append_return {line : List Char} (rest : List Char) (noBreak : NoBreak line) :
    splitLines (line ++ '\r' :: '\n' :: rest) = line :: splitLines rest := by
  have ends : splitLines ('\r' :: '\n' :: rest) = [] :: splitLines rest := rfl
  simpa using splitLines_append noBreak ends

theorem NoBreak.cons {c : Char} {line : List Char} (hc : isLineBreak c = false)
    (hl : NoBreak line) : NoBreak (c :: line) := by
  intro d mem
  rcases List.mem_cons.1 mem with rfl | inLine
  · exact hc
  · exact hl d inLine

/-- Putting a character in front keeps every other line. -/
theorem mem_consLine {c : Char} {lines : List (List Char)} {line : List Char}
    (mem : line ∈ consLine c lines) :
    (∃ rest, line = c :: rest ∧ (rest = [] ∨ rest ∈ lines)) ∨ line ∈ lines := by
  cases lines with
  | nil =>
    rw [consLine, List.mem_singleton] at mem
    exact .inl ⟨[], mem, .inl rfl⟩
  | cons first others =>
    rcases List.mem_cons.1 mem with isFirst | later
    · exact .inl ⟨first, isFirst, .inr List.mem_cons_self⟩
    · exact .inr (List.mem_cons_of_mem first later)

/-- No line of a text holds a break. -/
theorem noBreak_of_mem_splitLines {text line : List Char} (mem : line ∈ splitLines text) :
    NoBreak line := by
  -- the cases are the end, a return with its feed, another break, and any other character
  induction text using splitLines.induct generalizing line with
  | case1 => cases mem
  | case2 rest ih =>
    change line ∈ [] :: splitLines rest at mem
    rcases List.mem_cons.1 mem with rfl | later
    · exact NoBreak.nil
    · exact ih later
  | case3 c rest single breaks ih =>
    rw [splitLines_break breaks fun isReturn more shape => single more isReturn shape] at mem
    rcases List.mem_cons.1 mem with rfl | later
    · exact NoBreak.nil
    · exact ih later
  | case4 c rest single inLine ih =>
    have hc : isLineBreak c = false := Bool.eq_false_iff.2 inLine
    rw [splitLines_cons hc] at mem
    rcases mem_consLine mem with ⟨after, rfl, rfl | first⟩ | other
    · exact NoBreak.cons hc NoBreak.nil
    · exact NoBreak.cons hc (ih first)
    · exact ih other

/-- **Joined lines are found again.** An empty line at the end would be lost. -/
theorem splitLines_joinLines {lines : List (List Char)} (noBreak : ∀ line ∈ lines, NoBreak line)
    (nonempty : ∀ line ∈ lines, line ≠ []) : splitLines (joinLines lines) = lines := by
  induction lines with
  | nil => rfl
  -- the break behind each line but the last cuts there
  | cons line rest ih =>
    have here := noBreak line List.mem_cons_self
    cases rest with
    | nil =>
      have alone : joinLines [line] = line := by simp [joinLines]
      rw [alone, splitLines_of_noBreak here (nonempty line List.mem_cons_self)]
    | cons next others =>
      have joined : joinLines (line :: next :: others) =
          line ++ '\n' :: joinLines (next :: others) := by
        simp [joinLines, List.intercalate]
      rw [joined, splitLines_append_break here rfl (by simp),
        ih (fun l mem => noBreak l (List.mem_cons_of_mem line mem))
          (fun l mem => nonempty l (List.mem_cons_of_mem line mem))]

/-- **Any lines are the lines of a text**, if each of them is followed by a line feed. -/
theorem exists_splitLines_eq {lines : List (List Char)} (noBreak : ∀ line ∈ lines, NoBreak line) :
    ∃ text, splitLines text = lines := by
  induction lines with
  | nil => exact ⟨[], rfl⟩
  | cons line rest ih =>
    rw [List.forall_mem_cons] at noBreak
    obtain ⟨text, isRest⟩ := ih noBreak.2
    refine ⟨line ++ '\n' :: text, ?_⟩
    rw [splitLines_append_break noBreak.1 rfl fun isReturn => absurd isReturn (by decide), isRest]

/-! ## A text behind a line feed -/

theorem consLine_append (c : Char) {front : List (List Char)} (begun : front ≠ [])
    (back : List (List Char)) : consLine c (front ++ back) = consLine c front ++ back := by
  cases front with
  | nil => exact absurd rfl begun
  | cons line rest => rfl

theorem splitLines_ne_nil {text : List Char} (nonempty : text ≠ []) : splitLines text ≠ [] := by
  rw [splitLines.eq_def]
  split
  · exact absurd rfl nonempty
  · exact List.cons_ne_nil _ _
  · next c rest _ =>
    split
    · exact List.cons_ne_nil _ _
    · cases splitLines rest <;> exact List.cons_ne_nil _ _

/-- A break ends its line in front of a line feed too, unless it is a return that the feed joins. -/
theorem splitLines_break_feed {c : Char} {more : List Char} (breaks : isLineBreak c = true)
    (single : c = '\r' → ∀ after, more ≠ '\n' :: after) (apart : ¬(c = '\r' ∧ more = []))
    (rest : List Char) :
    splitLines (c :: (more ++ '\n' :: rest)) = [] :: splitLines (more ++ '\n' :: rest) := by
  refine splitLines_break breaks fun isReturn after same => ?_
  cases more with
  | nil => exact apart ⟨isReturn, rfl⟩
  | cons d others => exact single isReturn others (by rw [(List.cons.inj same).1])

/-- **A line feed separates**: what stands behind it has lines of its own. -/
theorem splitLines_append_feed (text rest : List Char) :
    splitLines (text ++ '\n' :: rest) = splitLines (text ++ ['\n']) ++ splitLines rest := by
  have feed : ∀ rest, splitLines ('\n' :: rest) = [] :: splitLines rest := fun rest =>
    splitLines_break rfl fun isReturn => absurd isReturn (by decide)
  induction text using splitLines.induct with
  | case1 => rw [List.nil_append, List.nil_append, feed, feed]; rfl
  | case2 more ih => exact congrArg (List.cons []) ih
  | case3 c more single breaks ih =>
    by_cases returns : c = '\r' ∧ more = []
    -- a return at the end takes the feed with it
    · rw [returns.1, returns.2]
      rfl
    · have alone : c = '\r' → ∀ after, more ≠ '\n' :: after :=
        fun isReturn after same => single after isReturn same
      rw [List.cons_append, List.cons_append, splitLines_break_feed breaks alone returns,
        splitLines_break_feed breaks alone returns, ih, List.cons_append]
  | case4 c more single inLine ih =>
    have noBreak : isLineBreak c = false := Bool.eq_false_iff.2 inLine
    rw [List.cons_append, List.cons_append, splitLines_cons noBreak, splitLines_cons noBreak, ih,
      consLine_append c (splitLines_ne_nil (by simp))]

/-- A line feed at the end ends the last line, or is an empty line itself. -/
theorem splitLines_feed (text : List Char) :
    splitLines (text ++ ['\n']) = splitLines text ∨
      splitLines (text ++ ['\n']) = splitLines text ++ [[]] := by
  induction text using splitLines.induct with
  | case1 => exact .inr rfl
  | case2 more ih => exact ih.imp (congrArg (List.cons [])) (congrArg (List.cons []))
  | case3 c more single breaks ih =>
    have alone : c = '\r' → ∀ after, more ≠ '\n' :: after :=
      fun isReturn after same => single after isReturn same
    by_cases returns : c = '\r' ∧ more = []
    · rw [returns.1, returns.2]
      exact .inl rfl
    · rw [List.cons_append, splitLines_break breaks alone,
        splitLines_break_feed breaks alone returns]
      exact ih.imp (congrArg (List.cons [])) (congrArg (List.cons []))
  | case4 c more single inLine ih =>
    have noBreak : isLineBreak c = false := Bool.eq_false_iff.2 inLine
    rw [List.cons_append, splitLines_cons noBreak, splitLines_cons noBreak]
    rcases ih with same | longer
    · exact .inl (congrArg (consLine c) same)
    · rw [longer]
      -- the character opens a line if there is none
      by_cases begun : splitLines more = []
      · rw [begun]
        exact .inl rfl
      · exact .inr (consLine_append c begun _)

/-! ## Changing a text line by line -/

/-- Applies a function to every line of a text, whose first line goes on after `line`. -/
def mapLinesFrom (f : List Char → List Char) (line : List Char) : List Char → List Char
  | [] => if line.isEmpty then [] else f line
  | '\r' :: '\n' :: rest => f line ++ '\r' :: '\n' :: mapLinesFrom f [] rest
  | c :: rest =>
    if isLineBreak c then f line ++ c :: mapLinesFrom f [] rest
    else mapLinesFrom f (line ++ [c]) rest

/-- Applies a function to every line of a text and keeps the breaks. -/
def mapLines (f : List Char → List Char) (text : List Char) : List Char :=
  mapLinesFrom f [] text

theorem mapLinesFrom_break (f : List Char → List Char) (line : List Char) {c : Char}
    {rest : List Char} (breaks : isLineBreak c = true)
    (single : c = '\r' → ∀ more, rest ≠ '\n' :: more) :
    mapLinesFrom f line (c :: rest) = f line ++ c :: mapLinesFrom f [] rest := by
  rw [mapLinesFrom.eq_def]
  split
  · next nothing => cases nothing
  · next more shape =>
    obtain ⟨isReturn, rfl⟩ := List.cons.inj shape
    exact absurd rfl (single isReturn more)
  · next d after _ shape =>
    obtain ⟨rfl, rfl⟩ := List.cons.inj shape
    rw [if_pos breaks]

theorem mapLinesFrom_cons (f : List Char → List Char) (line : List Char) {c : Char}
    (rest : List Char) (noBreak : isLineBreak c = false) :
    mapLinesFrom f line (c :: rest) = mapLinesFrom f (line ++ [c]) rest := by
  rw [mapLinesFrom.eq_def]
  split
  · next nothing => cases nothing
  · next more shape =>
    obtain ⟨rfl, -⟩ := List.cons.inj shape
    cases noBreak
  · next d after _ shape =>
    obtain ⟨rfl, rfl⟩ := List.cons.inj shape
    rw [if_neg (by simp [noBreak])]

/-- The function keeps lines: it makes no break, and it makes no line empty. -/
structure KeepsLines (f : List Char → List Char) : Prop where
  noBreak : ∀ {line}, NoBreak line → NoBreak (f line)
  nonempty : ∀ {line}, f line = [] → line = []

section KeepsLines

variable {f : List Char → List Char} (keeps : KeepsLines f)
include keeps

/-- A line that has begun has begun after the change as well. -/
theorem KeepsLines.exists_cons {line : List Char} (noBreak : NoBreak line) (begun : line ≠ [])
    (more : List Char) : ∃ c rest, isLineBreak c = false ∧ f line ++ more = c :: rest := by
  obtain ⟨c, rest, shape⟩ := List.exists_cons_of_ne_nil fun empty => begun (keeps.nonempty empty)
  have hc : isLineBreak c = false := keeps.noBreak noBreak c (shape ▸ List.mem_cons_self)
  exact ⟨c, rest ++ more, hc, by rw [shape]; rfl⟩

/-- What a line becomes is followed by no line feed that was not there. -/
theorem KeepsLines.append_cons_ne {line : List Char} (noBreak : NoBreak line) {c : Char}
    (other : c ≠ '\n') (after more : List Char) : f line ++ c :: after ≠ '\n' :: more := by
  intro eq
  cases started : f line with
  | nil =>
    rw [started, List.nil_append, List.cons.injEq] at eq
    exact other eq.1
  | cons d rest =>
    rw [started, List.cons_append, List.cons.injEq] at eq
    have := keeps.noBreak noBreak d (started ▸ List.mem_cons_self)
    rw [eq.1] at this
    cases this

/-- The changed text starts with a line feed only if the text does. -/
theorem KeepsLines.mapLinesFrom_ne {line text : List Char} (noBreak : NoBreak line)
    (begun : line ≠ [] ∨ ∀ more, text ≠ '\n' :: more) (more : List Char) :
    mapLinesFrom f line text ≠ '\n' :: more := by
  have front : ∀ after, line ≠ [] → f line ++ after ≠ '\n' :: more := by
    intro after nonempty eq
    obtain ⟨c, rest, hc, shape⟩ := keeps.exists_cons noBreak nonempty after
    rw [shape, List.cons.injEq] at eq
    rw [eq.1] at hc
    cases hc
  induction line, text using mapLinesFrom.induct with
  | case1 line empty =>
    change (if line.isEmpty then [] else f line) ≠ _
    rw [if_pos empty]
    simp
  | case2 line nonempty =>
    change (if line.isEmpty then [] else f line) ≠ _
    rw [if_neg nonempty]
    simpa using front [] (by simpa using nonempty)
  | case3 line rest => exact keeps.append_cons_ne noBreak (by decide) _ _
  | case4 line c rest single breaks =>
    rw [mapLinesFrom_break f line breaks fun isReturn after shape => single after isReturn shape]
    -- a feed that stands there itself is behind a line that has begun
    by_cases isFeed : c = '\n'
    · exact front _ (begun.resolve_right fun h => h rest (by rw [isFeed]))
    · exact keeps.append_cons_ne noBreak isFeed _ _
  | case5 line c rest single inLine ih =>
    have hc : isLineBreak c = false := Bool.eq_false_iff.2 inLine
    have longer : NoBreak (line ++ [c]) := noBreak.append (NoBreak.cons hc NoBreak.nil)
    rw [mapLinesFrom_cons f line rest hc]
    refine ih longer (.inl (by simp)) fun after _ eq => ?_
    obtain ⟨d, rest, hd, shape⟩ := keeps.exists_cons longer (by simp) after
    rw [shape, List.cons.injEq] at eq
    rw [eq.1] at hd
    cases hd

/-- The lines of a changed text whose first line has begun. -/
theorem KeepsLines.splitLines_mapLinesFrom {line text : List Char} (noBreak : NoBreak line) :
    splitLines (mapLinesFrom f line text) = (splitLines (line ++ text)).map f := by
  induction line, text using mapLinesFrom.induct with
  | case1 line empty =>
    rw [List.isEmpty_iff] at empty
    subst empty
    rfl
  | case2 line nonempty =>
    have begun : line ≠ [] := by simpa using nonempty
    change splitLines (if line.isEmpty then [] else f line) = _
    rw [if_neg nonempty, List.append_nil, splitLines_of_noBreak noBreak begun,
      splitLines_of_noBreak (keeps.noBreak noBreak) fun empty => begun (keeps.nonempty empty)]
    rfl
  | case3 line rest ih =>
    change splitLines (f line ++ '\r' :: '\n' :: mapLinesFrom f [] rest) = _
    rw [splitLines_append_return _ (keeps.noBreak noBreak),
      splitLines_append_return _ noBreak, ih NoBreak.nil]
    rfl
  | case4 line c rest single breaks ih =>
    have same : c = '\r' → ∀ more, rest ≠ '\n' :: more :=
      fun isReturn more shape => single more isReturn shape
    -- a return must not come to stand in front of a feed, or two breaks would become one
    rw [mapLinesFrom_break f line breaks same,
      splitLines_append_break (keeps.noBreak noBreak) breaks
        (fun isReturn => keeps.mapLinesFrom_ne NoBreak.nil (.inr (same isReturn))),
      splitLines_append_break noBreak breaks same, ih NoBreak.nil]
    rfl
  | case5 line c rest single inLine ih =>
    have hc : isLineBreak c = false := Bool.eq_false_iff.2 inLine
    rw [mapLinesFrom_cons f line rest hc, ih (noBreak.append (NoBreak.cons hc NoBreak.nil)),
      List.append_assoc]
    rfl

/-- **The lines of a text that was changed line by line are the changed lines.** -/
theorem splitLines_mapLines (text : List Char) :
    splitLines (mapLines f text) = (splitLines text).map f :=
  keeps.splitLines_mapLinesFrom NoBreak.nil

end KeepsLines

/-! ## Adding to a line -/

/-- The text with more characters at the end of the line at an index. The breaks stay as they
are. -/
def extendLine (more : List Char) : Nat → List Char → List Char
  | 0, text =>
    text.takeWhile (fun c => !isLineBreak c) ++ (more ++ text.dropWhile fun c => !isLineBreak c)
  | _ + 1, [] => []
  | index + 1, '\r' :: '\n' :: rest => '\r' :: '\n' :: extendLine more index rest
  | index + 1, c :: rest =>
    if isLineBreak c then c :: extendLine more index rest
    else c :: extendLine more (index + 1) rest

theorem extendLine_zero (more text : List Char) :
    extendLine more 0 text = text.takeWhile (fun c => !isLineBreak c) ++
      (more ++ text.dropWhile fun c => !isLineBreak c) := by
  cases text <;> rfl

theorem extendLine_succ (more : List Char) (index : Nat) {c : Char} {rest : List Char}
    (single : c = '\r' → ∀ after, rest ≠ '\n' :: after) :
    extendLine more (index + 1) (c :: rest) =
      if isLineBreak c then c :: extendLine more index rest
      else c :: extendLine more (index + 1) rest := by
  rw [extendLine.eq_def]
  split
  · next nothing => cases nothing
  · next nothing => cases nothing
  · next isIndex shape =>
    obtain ⟨isReturn, isFeed⟩ := List.cons.inj shape
    exact absurd isFeed (single isReturn _)
  · next isIndex shape =>
    obtain ⟨rfl, rfl⟩ := List.cons.inj shape
    rw [Nat.succ.inj isIndex]

/-- A text that starts with a break starts with an empty line. -/
theorem exists_splitLines_break {c : Char} (breaks : isLineBreak c = true) (rest : List Char) :
    ∃ others, splitLines (c :: rest) = [] :: others := by
  rw [splitLines.eq_def]
  split
  · next nothing => cases nothing
  · exact ⟨_, rfl⟩
  · next d after _ shape =>
    obtain ⟨rfl, rfl⟩ := List.cons.inj shape
    exact ⟨_, if_pos breaks⟩

section Extend

variable {more : List Char} (noBreak : NoBreak more) (begun : more ≠ [])
include noBreak begun

/-- What is added ends no line, so it starts with no line feed. -/
theorem extendLine_ne {text : List Char} (noFeed : ∀ after, text ≠ '\n' :: after) (index : Nat)
    (after : List Char) : extendLine more index text ≠ '\n' :: after := by
  obtain ⟨d, others, rfl⟩ := List.exists_cons_of_ne_nil begun
  -- what is added does not begin with a line break
  have noFeed' : ∀ rest, d :: rest ≠ '\n' :: after := by
    intro rest same
    have inLine := noBreak d List.mem_cons_self
    rw [(List.cons.inj same).1] at inLine
    cases inLine
  -- the first line is extended, or one behind it, and the first character stays in both cases
  cases text with
  | nil =>
    cases index with
    | zero => exact noFeed' _
    | succ index => exact List.cons_ne_nil _ _ ∘ Eq.symm
  | cons c rest =>
    have keeps : ∀ rest', c :: rest' ≠ '\n' :: after := fun rest' same =>
      noFeed rest (by rw [(List.cons.inj same).1])
    cases index with
    | zero =>
      rw [extendLine_zero, List.takeWhile_cons, List.dropWhile_cons]
      split
      · exact keeps _
      · exact noFeed' _
    | succ index =>
      rw [extendLine.eq_def]
      split
      · next nothing => cases nothing
      · next nothing => cases nothing
      · next shape =>
        obtain ⟨rfl, -⟩ := List.cons.inj shape
        exact keeps _
      · next shape =>
        obtain ⟨rfl, -⟩ := List.cons.inj shape
        split
        · exact keeps _
        · exact keeps _

theorem splitLines_extendLine_zero {text first : List Char} {others : List (List Char)}
    (lines : splitLines text = first :: others) :
    splitLines (extendLine more 0 text) = (first ++ more) :: others := by
  -- the first line of the text is what stands before its first break
  have split : text = text.takeWhile (fun c => !isLineBreak c) ++
      text.dropWhile fun c => !isLineBreak c := List.takeWhile_append_dropWhile.symm
  have inLine : NoBreak (text.takeWhile fun c => !isLineBreak c) := fun c mem => by
    simpa using List.mem_takeWhile_imp mem
  rw [extendLine_zero]
  generalize text.takeWhile (fun c => !isLineBreak c) = line at split inLine
  -- there is no break in it, or the rest begins with one
  cases rest : text.dropWhile fun c => !isLineBreak c with
  | nil =>
    rw [rest, List.append_nil] at split
    rw [split] at lines
    have nonempty : line ≠ [] := by
      rintro rfl
      cases lines
    rw [splitLines_of_noBreak inLine nonempty] at lines
    obtain ⟨rfl, rfl⟩ := List.cons.inj lines
    rw [List.append_nil]
    exact splitLines_of_noBreak (inLine.append noBreak) (by simp [begun])
  | cons c after =>
    have breaks : isLineBreak c = true := by
      have stops := List.head?_dropWhile_not (fun c => !isLineBreak c) text
      rw [rest] at stops
      simpa using stops
    obtain ⟨behind, isBehind⟩ := exists_splitLines_break breaks after
    rw [rest] at split
    rw [split, splitLines_append inLine isBehind, List.append_nil] at lines
    obtain ⟨rfl, rfl⟩ := List.cons.inj lines
    rw [← List.append_assoc, splitLines_append (inLine.append noBreak) isBehind, List.append_nil]

/-- **The line is longer, and all others are the same.** -/
theorem splitLines_extendLine {text line : List Char} {index : Nat}
    (isLine : (splitLines text)[index]? = some line) :
    splitLines (extendLine more index text) = (splitLines text).set index (line ++ more) := by
  -- the cases are the line itself, the end, a return with its feed, and any other character
  induction index, text using extendLine.induct with
  | case1 text =>
    cases lines : splitLines text with
    | nil =>
      rw [lines] at isLine
      cases isLine
    | cons first others =>
      rw [lines] at isLine
      cases isLine
      exact splitLines_extendLine_zero noBreak begun lines
  | case2 index => cases isLine
  | case3 index rest ih =>
    show [] :: splitLines (extendLine more index rest) = _
    rw [ih isLine]
    rfl
  | case4 index c rest single breaks ih =>
    have alone : c = '\r' → ∀ after, rest ≠ '\n' :: after :=
      fun isReturn after same => single after isReturn same
    rw [splitLines_break breaks alone] at isLine ⊢
    rw [extendLine_succ more index alone, if_pos breaks,
      splitLines_break breaks fun isReturn => extendLine_ne noBreak begun (alone isReturn) index,
      ih isLine]
    rfl
  | case5 index c rest single inLine ih =>
    have hc : isLineBreak c = false := Bool.eq_false_iff.2 inLine
    have alone : c = '\r' → ∀ after, rest ≠ '\n' :: after :=
      fun isReturn after same => single after isReturn same
    rw [splitLines_cons hc] at isLine ⊢
    rw [extendLine_succ more index alone, if_neg inLine, splitLines_cons hc]
    cases lines : splitLines rest with
    | nil =>
      rw [lines] at isLine
      cases isLine
    | cons first others =>
      rw [lines] at isLine ih
      rw [ih isLine]
      rfl

end Extend
end EightBit.Text
