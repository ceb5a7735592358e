import EightBit.Proofs.Assembly.FirstError
import EightBit.Proofs.Assembly.Renaming

/-!
# Comments

A comment that is added to a line changes nothing about the line but how it is written. The code of
the line must leave no quote open, for a semicolon inside of quotes starts no comment. What the
comment holds does not matter, and neither does a comment that the line has already.

## Main Definitions

- `SameMessage`: both errors have the same kind, message and line number.

## Main Statements

- `sameParts_of_code`: lines with the same code have the same parts.
- `assembleText_of_sameParts`: sources whose lines have the same parts are assembled alike.
- `assembleText_commented`: a comment leaves the outcome of an assembly as it is.
-/

namespace EightBit

open Source Layout Text

/-- Both are errors of the same kind, with the same message and line number, or both are the same
excess of digits. -/
inductive SameMessage : Rejection AssemblyError → Rejection AssemblyError → Prop
  | wrong {first second : AssemblyError} (kind : second.kind = first.kind)
    (message : second.message = first.message) (line : second.line = first.line) :
    SameMessage (.wrong first) (.wrong second)
  | excess (excess : Excess) : SameMessage (.excess excess) (.excess excess)

/-! ## Lines with the same code -/

/-- **Lines with the same code have the same parts.** -/
theorem sameParts_of_code {first second : List Char}
    (code : stripComment second = stripComment first) :
    SameParts (Line.parse first) (Line.parse second) := by
  constructor
  · rw [Line.parse, Line.parse, code]
    cases splitLabel (trim (stripComment first)) <;> rfl
  · rw [Line.parse, Line.parse, code]
    cases splitLabel (trim (stripComment first)) <;> rfl

/-! ## Sources with the same parts -/

/-- What is reported of the same interruption over other lines differs in the line shown only. -/
theorem sameMessage_over (lines : List Line) (stopped : Interruption) :
    SameMessage stopped.report (stopped.over lines).report := by
  obtain ⟨cause, number, layout⟩ := stopped
  cases cause with
  | wrong problem => exact .wrong rfl rfl rfl
  | excess excess => exact .excess excess

/-- **Sources whose lines have the same parts are assembled alike.** -/
theorem assembleText_of_sameParts (limit : DigitLimit) {source other : List Char}
    (same : List.Forall₂ SameParts (start source).lines (start other).lines) :
    Matched SameMessage Eq (assembleText limit source) (assembleText limit other) := by
  rw [assembleText, assembleText, ofSource_of_sameParts limit same]
  cases ofSource limit source with
  | ok layout => exact .ok rfl
  | error stopped => exact .error (sameMessage_over _ stopped)

/-- A list is related to itself with one element replaced by a related one. -/
theorem forall₂_set {α : Type} {R : α → α → Prop} (refl : ∀ a, R a a) {list : List α} {index : Nat}
    {old new : α} (found : list[index]? = some old) (related : R old new) :
    List.Forall₂ R list (list.set index new) := by
  induction list generalizing index with
  | nil => cases found
  | cons first rest ih =>
    cases index with
    | zero =>
      cases found
      exact .cons related (List.forall₂_same.2 fun a _ => refl a)
    | succ index => exact .cons (refl first) (ih found)

/-! ## Comments -/

/-- **Comments are inert.** A comment is added to a line whose code leaves no quote open. Then the
source is assembled to the same program, or rejected with an error of the same kind with the same
message and line number. -/
theorem assembleText_commented {limit : DigitLimit} {source line comment : List Char} {index : Nat}
    (isLine : (splitLines source)[index]? = some line)
    (closed : endsOpen (stripComment line) = true) (noBreak : NoBreak comment) :
    Matched SameMessage Eq (assembleText limit source)
      (assembleText limit (extendLine (';' :: comment) index source)) := by
  refine assembleText_of_sameParts limit ?_
  show List.Forall₂ _ ((splitLines source).map Line.parse) ((splitLines _).map Line.parse)
  rw [splitLines_extendLine (.cons rfl noBreak) (List.cons_ne_nil _ _) isLine,
    List.forall₂_map_left_iff, List.forall₂_map_right_iff]
  exact forall₂_set (fun raw => .refl (Line.parse raw)) isLine
    (sameParts_of_code (stripComment_comment closed comment))

/-- A comment with quotes, a colon and a bracket, added to a line that ends in the comment of a
semicolon and an apostrophe. -/
theorem assembleText_commented_behind_comment :
    ∃ source line comment commented program, (splitLines source)[1]? = some line ∧
      endsOpen (stripComment line) = true ∧ NoBreak comment ∧
      extendLine (';' :: comment) 1 source = commented ∧
      assembleText (some digitLimit) commented = .ok program := by
  let source := "a: JMP a\r\nb: DB ';', '''; it's ; b\rDB \";\"\n".toList
  let line := "b: DB ';', '''; it's ; b".toList
  let comment := " \"c: DB 1, ' ; [".toList
  let commented := "a: JMP a\r\nb: DB ';', '''; it's ; b; \"c: DB 1, ' ; [\rDB \";\"\n".toList
  -- a comment that has quotes and separators of all kinds, behind a line that has a comment already
  have isLine : (splitLines source)[1]? = some line := by decide +kernel
  have closed : endsOpen (stripComment line) = true := by decide +kernel
  have noBreak : NoBreak comment := by decide +kernel
  have edited : extendLine (';' :: comment) 1 source = commented := by decide +kernel
  -- the theorem compares the outcomes of both sources, and the plain one is computed
  have same := @assembleText_commented (some digitLimit) source line comment 1 isLine closed noBreak
  rw [edited] at same
  let program : Program :=
    { code := [26, 0, 59, 39, 59], lines := [(0, 1), (1, 1), (2, 2), (3, 2), (4, 3)],
      symbols := [("a".toList, 0), ("b".toList, 2)] }
  have plain : assembleText (some digitLimit) source = .ok program := by decide +kernel
  refine ⟨source, line, comment, commented, program, isLine, closed, noBreak, edited, ?_⟩
  rw [plain] at same
  generalize assembleText (some digitLimit) commented = outcome at same
  cases same with
  | ok same => rw [same]

end EightBit
