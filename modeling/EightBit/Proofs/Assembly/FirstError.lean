import EightBit.Proofs.Assembly.Append
import EightBit.Proofs.Assembly.Layout
import EightBit.Proofs.Assembly.Report
import Mathlib.Data.List.Forall2

/-!
# The First Error Wins

The first pass works off one line after the other, and stops at the first that is rejected. Nothing
behind that line has been looked at by then, and everything in front of it has been worked off. Only
labels that are defined nowhere are found out later, in the second pass. So a report of any other kind
depends on the source up to the reported line and on nothing else.

An assembly works with the labels and statements of its lines. How the lines are written is on
record only to be shown in a report. So the record of one source can be carried over to another
whose lines have the same parts: every step does the same to it there, or stops for the same reason.

## Main Definitions

- `SameParts`: both lines have the same label and the same statement.
- `Layout.over`, `Layout.carried`: a layout, and what comes of a step, over other lines.

## Main Statements

- `carried_bind`: steps that can be carried over one by one can be carried over together.
- `addLines_over`, `patch_over`: both passes can be carried over.
- `ofSource_of_sameParts`: sources whose lines have the same parts are laid out alike.
- `addLines_error_iff`: the first pass stops at a line when the lines in front of it are worked off
  and it is rejected.
- `ofSource_of_front`: what follows the line makes no difference.
- `assembleText_first_error`: what a report says about the sources that start in the same way.
-/

namespace EightBit

/-! ## Lines with the same parts -/

/-- Both lines have the same label and the same statement. -/
structure SameParts (first second : Source.Line) : Prop where
  label : second.label = first.label
  statement : second.statement = first.statement

theorem SameParts.refl (line : Source.Line) : SameParts line line := ⟨rfl, rfl⟩

/-- The layout, over the given lines. -/
def Layout.over (lines : List Source.Line) (layout : Layout) : Layout :=
  { layout with lines }

/-- The interruption, over the given lines. -/
def Interruption.over (lines : List Source.Line) (stopped : Interruption) : Interruption :=
  { stopped with layout := stopped.layout.over lines }

namespace Layout

/-- What comes of a step, over the given lines. -/
def carried (lines : List Source.Line) : Except Interruption Layout → Except Interruption Layout
  | .ok layout => .ok (layout.over lines)
  | .error stopped => .error (stopped.over lines)

theorem start_over (source other : List Char) :
    (start source).over (start other).lines = start other := rfl

/-- **Steps that can be carried over one by one can be carried over together.** -/
theorem carried_bind {lines : List Source.Line} {first : Except Interruption Layout}
    {next next' : Layout → Except Interruption Layout}
    (isNext : ∀ layout, next' (layout.over lines) = carried lines (next layout)) :
    carried lines first >>= next' = carried lines (first >>= next) := by
  cases first with
  | ok layout => exact isNext layout
  | error stopped => rfl

/-! ## The first pass -/

section Steps

variable (lines : List Source.Line)

theorem define_over (number : Nat) (name : List Char) (layout : Layout) :
    define number name (layout.over lines) = carried lines (define number name layout) := by
  unfold define
  by_cases notLabel : (!Operand.isLabel name) = true
  · rw [if_pos notLabel, if_pos notLabel]
    rfl
  · rw [if_neg notLabel, if_neg notLabel]
    show (if (layout.symbols.lookup name).isSome then _ else _) = _
    by_cases known : (layout.symbols.lookup name).isSome
    · rw [if_pos known, if_pos known]
      rfl
    · rw [if_neg known, if_neg known]
      rfl

theorem emit_over (number : Nat) (cells : List Cell) (layout : Layout) :
    emit number cells (layout.over lines) = carried lines (emit number cells layout) := by
  induction cells generalizing layout with
  | nil => rfl
  | cons cell cells ih =>
    rw [emit, emit]
    show (if layout.cursor < programLimit then _ else _) = _
    by_cases room : layout.cursor < programLimit
    · rw [if_pos room, if_pos room, ← ih]
      rfl
    · rw [if_neg room, if_neg room]
      rfl

theorem perform_over (number : Nat) (effect : Effect) (layout : Layout) :
    perform number effect (layout.over lines) = carried lines (perform number effect layout) := by
  cases effect with
  | moveTo address => rfl
  | emit cells failure =>
    rw [perform, perform, emit_over]
    refine carried_bind fun after => ?_
    cases failure <;> rfl

/-- **A line can be carried over**, to one of the same parts. -/
theorem addLine_over {limit : DigitLimit} {line line' : Source.Line} (same : SameParts line line')
    (number : Nat) (layout : Layout) :
    addLine limit number line' (layout.over lines) =
      carried lines (addLine limit number line layout) := by
  rw [addLine_eq, addLine_eq, same.label, same.statement]
  -- a label is defined first if there is one, and then the statement is worked off
  cases line.label with
  | none =>
    cases line.statement with
    | none => rfl
    | some statement => exact perform_over lines number _ layout
  | some name =>
    dsimp only
    rw [define_over]
    refine carried_bind fun behind => ?_
    cases line.statement with
    | none => rfl
    | some statement => exact perform_over lines number _ behind

/-- **The first pass can be carried over**, to lines of the same parts. -/
theorem addLines_over {limit : DigitLimit} {first second : List Source.Line}
    (same : List.Forall₂ SameParts first second) (number : Nat) (layout : Layout) :
    addLines limit number second (layout.over lines) =
      carried lines (addLines limit number first layout) := by
  induction same generalizing number layout with
  | nil => rfl
  | cons head _ ih =>
    rw [addLines, addLines, addLine_over lines head]
    exact carried_bind fun middle => ih (number + 1) middle

/-- Lines that are worked off in one record are worked off in the other. -/
theorem AddedLines.over {limit : DigitLimit} {number : Nat} {worked : List Source.Line}
    {layout after : Layout} (run : AddedLines limit number worked layout after) :
    AddedLines limit number worked (layout.over lines) (after.over lines) := by
  have same : List.Forall₂ SameParts worked worked := List.forall₂_same.2 fun line _ => .refl line
  rw [← addLines_ok_iff, addLines_over lines same, addLines_ok_iff.2 run]
  rfl

/-! ## The second pass -/

/-- **The second pass can be carried over.** -/
theorem patch_over (references : List (Nat × List Char)) (layout : Layout) :
    patch references (layout.over lines) = carried lines (patch references layout) := by
  induction references generalizing layout with
  | nil => rfl
  | cons reference rest ih =>
    obtain ⟨address, label⟩ := reference
    have sameSymbols : (layout.over lines).symbols = layout.symbols := rfl
    rw [patch, patch, sameSymbols]
    cases layout.symbols.lookup label with
    | none => rfl
    | some target =>
      exact ih { layout with patches := (address, UInt8.ofNat target) :: layout.patches }

end Steps

/-! ## Both passes -/

/-- **Sources whose lines have the same parts are laid out alike.** -/
theorem ofSource_of_sameParts (limit : DigitLimit) {source other : List Char}
    (same : List.Forall₂ SameParts (start source).lines (start other).lines) :
    ofSource limit other = carried (start other).lines (ofSource limit source) := by
  rw [ofSource, ofSource, ← start_over source other]
  show addLines limit 1 (start other).lines _ >>= _ = _
  rw [addLines_over _ same]
  exact carried_bind fun laid => patch_over _ laid.references laid

end Layout

/-! ## Where an assembly stops -/

open Layout Text

/-- A failing computation fails at its first step or, behind it, at the next. -/
theorem bind_error_iff {ε α β : Type} {first : Except ε α} {next : α → Except ε β} {e : ε} :
    first >>= next = .error e ↔
      first = .error e ∨ ∃ middle, first = .ok middle ∧ next middle = .error e := by
  cases first with
  | error other => simp [bind, Except.bind]
  | ok middle => simp [bind, Except.bind]

namespace Layout

/-! ## Where the first pass stops -/

section Stops

variable {limit : DigitLimit} {number : Nat} {layout : Layout} {stopped : Interruption}

theorem line_of_define_error {name : List Char}
    (stops : define number name layout = .error stopped) : stopped.line = number := by
  unfold define at stops
  split at stops
  · cases stops
    rfl
  · split at stops <;> cases stops
    rfl

theorem line_of_emit_error {cells : List Cell}
    (stops : emit number cells layout = .error stopped) : stopped.line = number := by
  by_cases fits : layout.Fits cells
  · rw [emit_of_fits number fits] at stops
    cases stops
  · obtain ⟨address, after, error⟩ := emit_of_not_fits number fits
    rw [error] at stops
    cases stops
    rfl

theorem line_of_perform_error {effect : Effect}
    (stops : perform number effect layout = .error stopped) : stopped.line = number := by
  cases effect with
  | moveTo address => cases stops
  | emit cells failure =>
    rcases bind_error_iff.1 stops with long | ⟨after, -, fails⟩
    · exact line_of_emit_error long
    · cases failure <;> cases fails
      rfl

/-- A line that is rejected is reported with its own number. -/
theorem line_of_addLine_error {line : Source.Line}
    (stops : addLine limit number line layout = .error stopped) : stopped.line = number := by
  rw [addLine_eq] at stops
  rcases bind_error_iff.1 stops with atLabel | ⟨labelled, -, atStatement⟩
  · split at atLabel
    · exact line_of_define_error atLabel
    · cases atLabel
  · split at atStatement
    · exact line_of_perform_error atStatement
    · cases atStatement

/-- **Where the first pass stops**: at a line that is rejected when all lines in front of it have
been worked off. -/
theorem addLines_error_iff {lines : List Source.Line} :
    addLines limit number lines layout = .error stopped ↔
      ∃ front line back middle, lines = front ++ line :: back ∧
        AddedLines limit number front layout middle ∧
        addLine limit (number + front.length) line middle = .error stopped := by
  constructor
  · intro stops
    -- either the first line is the one that stops, or it runs and a later one stops
    induction lines generalizing number layout with
    | nil => cases stops
    | cons line rest ih =>
      rw [addLines] at stops
      rcases bind_error_iff.1 stops with here | ⟨next, added, later⟩
      · exact ⟨[], line, rest, layout, rfl, rfl, here⟩
      · obtain ⟨front, rejected, back, middle, rfl, run, fails⟩ := ih later
        refine ⟨line :: front, rejected, back, middle, rfl, ⟨next, addLine_ok_iff.1 added, run⟩, ?_⟩
        rwa [List.length_cons, Nat.add_comm front.length, ← Nat.add_assoc]
  -- in the other direction the front runs through, so that the line behind it decides
  · rintro ⟨front, line, back, middle, rfl, run, fails⟩
    rw [addLines_append_of_ok run, addLines, fails]
    rfl

end Stops

/-! ## What the report depends on -/

section Sources

variable {limit : DigitLimit} {source other : List Char}

/-- Only the second pass finds undefined labels, and it finds nothing else. -/
theorem firstPass_of_wrong {stopped : Interruption} {problem : Problem}
    (stops : ofSource limit source = .error stopped) (cause : stopped.cause = .wrong problem)
    (early : problem.kind ≠ .undefinedLabel) :
    addLines limit 1 (start source).lines (start source) = .error stopped := by
  rcases bind_error_iff.1 stops with first | ⟨laid, -, second⟩
  · exact first
  · obtain ⟨-, -, label, -, -, -, -, undefined, -⟩ := exists_of_patch_error second
    rw [cause, Rejection.wrong.injEq] at undefined
    rw [undefined] at early
    exact absurd rfl early

/-- **What follows a rejected line makes no difference.** -/
theorem ofSource_of_front {front back : List Source.Line} {line : Source.Line}
    {middle : Layout} {stopped : Interruption}
    (begins : (start other).lines = front ++ line :: back)
    (run : AddedLines limit 1 front (start source) middle)
    (stops : addLine limit (1 + front.length) line middle = .error stopped) :
    ofSource limit other = .error (stopped.over (start other).lines) := by
  refine bind_error_iff.2 (.inl (addLines_error_iff.2 ?_))
  refine ⟨front, line, back, middle.over (start other).lines, begins, ?_, ?_⟩
  · rw [← start_over source other]
    exact run.over _
  · rw [addLine_over _ (.refl line), stops]
    rfl

/-- A source whose lines have been worked off is assembled, or has an undefined label. -/
theorem outcome_of_run {laid : Layout}
    (run : AddedLines limit 1 (start source).lines (start source) laid) :
    (∃ program, assembleText limit source = .ok program) ∨
      ∃ error, assembleText limit source = .error (.wrong error) ∧
        error.kind = .undefinedLabel := by
  -- the first pass is over, and what is left can only miss a label
  have second : ofSource limit source = patch laid.references laid := by
    rw [ofSource, addLines_ok_iff.2 run]
    rfl
  rw [assembleText, second]
  cases patched : patch laid.references laid with
  | ok final => exact .inl ⟨_, rfl⟩
  | error stopped =>
    obtain ⟨-, -, label, -, -, -, -, cause, -⟩ := exists_of_patch_error patched
    have isUndefined : ∃ text,
        stopped.report = .wrong ⟨.undefinedLabel label, stopped.line, text⟩ :=
      ⟨_, by rw [Interruption.report, cause]; rfl⟩
    obtain ⟨text, report⟩ := isUndefined
    exact .inr ⟨_, congrArg Except.error report, rfl⟩

end Sources

end Layout

/-- A report shows nothing of the record but the line that it names. -/
theorem Interruption.report_over {stopped : Interruption} {lines : List Source.Line}
    (shown : lines[stopped.line - 1]? = stopped.layout.lines[stopped.line - 1]?) :
    (stopped.over lines).report = stopped.report := by
  rw [Interruption.report, Interruption.report, ← shown]
  rfl

/-! ## The first error -/

/-- The source has the line `raw` behind the lines `front`. Those are worked off, it is rejected,
and the error is what is then reported. -/
structure RejectsLine (limit : DigitLimit) (source : List Char) (error : AssemblyError)
    (front : List (List Char)) (raw : List Char) (back : List (List Char)) (middle : Layout)
    (stopped : Interruption) : Prop where
  isSource : splitLines source = front ++ raw :: back
  worked : AddedLines limit 1 (front.map Source.Line.parse) (start source) middle
  rejected : addLine limit (1 + front.length) (Source.Line.parse raw) middle = .error stopped
  report : stopped.report = .wrong error
  onRecord : stopped.layout.lines = (start source).lines

section Sources

variable {limit : DigitLimit} {source other raw : List Char} {error : AssemblyError}
  {front back : List (List Char)} {middle : Layout} {stopped : Interruption}

theorem lines_of_splitLines {rest : List (List Char)}
    (begins : splitLines source = front ++ raw :: rest) :
    (start source).lines =
      front.map Source.Line.parse ++ Source.Line.parse raw :: rest.map Source.Line.parse := by
  show (splitLines source).map Source.Line.parse = _
  rw [begins, List.map_append, List.map_cons]

/-- **A report of anything but an undefined label is about the first line that is rejected.** -/
theorem exists_rejectsLine (fails : assembleText limit source = .error (.wrong error))
    (early : error.kind ≠ .undefinedLabel) :
    ∃ front raw back middle stopped,
      RejectsLine limit source error front raw back middle stopped := by
  rw [assembleText] at fails
  -- the pass that stopped is the first one, since the second knows undefined labels only
  have sound := ofSource_sound limit source
  cases result : ofSource limit source with
  | ok layout =>
    rw [result] at fails
    cases fails
  | error stopped =>
    rw [result] at fails sound
    have report : stopped.report = .wrong error := Except.error.inj fails
    cases cause : stopped.cause with
    | excess excess =>
      rw [Interruption.report, cause] at report
      cases report
    | wrong problem =>
      have isEarly : problem.kind ≠ .undefinedLabel := by
        rw [Interruption.report, cause] at report
        obtain rfl := Rejection.wrong.inj report
        exact early
      obtain ⟨front, line, back, middle, split, run, stops⟩ :=
        addLines_error_iff.1 (firstPass_of_wrong result cause isEarly)
      -- the lines of the pass are the parsed lines of the text, so its parts are parts of the text
      obtain ⟨texts, rest, isTexts, rfl, isRest⟩ := List.map_eq_append_iff.1 split
      obtain ⟨raw, more, rfl, rfl, -⟩ := List.map_eq_cons_iff.1 isRest
      rw [List.length_map] at stops
      exact ⟨texts, raw, more, middle, stopped, isTexts, run, stops, report,
        (Interruption.Located.layout sound).lines⟩

namespace RejectsLine

variable (rejects : RejectsLine limit source error front raw back middle stopped)
include rejects

theorem number : stopped.line = front.length + 1 := by
  rw [line_of_addLine_error rejects.rejected, Nat.add_comm]

/-- The error has the number of the rejected line. -/
theorem line_eq : error.line = (front.length + 1 : Nat) := by
  have report := rejects.report
  rw [Interruption.report] at report
  cases cause : stopped.cause with
  | excess excess =>
    rw [cause] at report
    cases report
  | wrong problem =>
    rw [cause] at report
    obtain rfl := Rejection.wrong.inj report
    exact congrArg Nat.cast rejects.number

/-- **Any source that starts with the same lines is rejected with the same report.** -/
theorem fails_alike {rest : List (List Char)} (begins : splitLines other = front ++ raw :: rest) :
    assembleText limit other = .error (.wrong error) := by
  have stops : addLine limit (1 + (front.map Source.Line.parse).length) (Source.Line.parse raw)
      middle = .error stopped := by
    rw [List.length_map]
    exact rejects.rejected
  -- the line that the report shows is the last that both sources share
  have shown : (start other).lines[stopped.line - 1]? =
      stopped.layout.lines[stopped.line - 1]? := by
    rw [rejects.onRecord, lines_of_splitLines begins, lines_of_splitLines rejects.isSource,
      rejects.number, Nat.add_sub_cancel]
    simp only [List.getElem?_append_right, List.length_map, Nat.le_refl, Nat.sub_self,
      List.getElem?_cons_zero]
  rw [assembleText, ofSource_of_front (lines_of_splitLines begins) rejects.worked stops,
    ← rejects.report, ← Interruption.report_over shown]

/-- **The lines in front of it are assembled**, or have an undefined label. -/
theorem front_outcome (isFront : splitLines other = front) :
    (∃ program, assembleText limit other = .ok program) ∨
      ∃ later, assembleText limit other = .error (.wrong later) ∧
        later.kind = .undefinedLabel := by
  have run := rejects.worked.over (start other).lines
  rw [← isFront] at run
  exact outcome_of_run run

end RejectsLine

/-- **The first error wins.** If a source is rejected for another reason than an undefined label,
and `number` is the line that the report names:

- Every source whose first `number` lines are the same is rejected with the same report, whatever
  follows them.
- The lines in front of that line make a source that is assembled, or that is rejected for an
  undefined label. -/
theorem assembleText_first_error (fails : assembleText limit source = .error (.wrong error))
    (early : error.kind ≠ .undefinedLabel) :
    ∃ number : Nat, error.line = number ∧ 1 ≤ number ∧ number ≤ (splitLines source).length ∧
      (∀ other, (splitLines other).take number = (splitLines source).take number →
        assembleText limit other = .error (.wrong error)) ∧
      (∃ front, splitLines front = (splitLines source).take (number - 1)) ∧
      ∀ front, splitLines front = (splitLines source).take (number - 1) →
        (∃ program, assembleText limit front = .ok program) ∨
          ∃ later, assembleText limit front = .error (.wrong later) ∧
            later.kind = .undefinedLabel := by
  -- the first line that is rejected, with the layout in front of it
  obtain ⟨front, raw, back, middle, stopped, rejects⟩ := exists_rejectsLine fails early
  have split := rejects.isSource
  have isFront : (splitLines source).take front.length = front := by
    rw [split, List.take_left]
  have upTo : (splitLines source).take (front.length + 1) = front ++ [raw] := by
    rw [split, List.append_cons, List.take_left' (by simp)]
  refine ⟨front.length + 1, rejects.line_eq, Nat.le_add_left 1 _, ?_, fun other same => ?_, ?_, ?_⟩
  · rw [split, List.length_append, List.length_cons]
    omega
  -- another source with the same lines up to there runs into the same line
  · have begins : splitLines other =
        front ++ raw :: (splitLines other).drop (front.length + 1) := by
      rw [List.append_cons, ← upTo, ← same, List.take_append_drop]
    exact rejects.fails_alike begins
  -- the lines in front of it are the lines of some text
  · exact exists_splitLines_eq fun line mem => noBreak_of_mem_splitLines (List.mem_of_mem_take mem)
  · intro other same
    rw [Nat.add_sub_cancel, isFront] at same
    exact rejects.front_outcome same

/-- A duplicate label behind a reference to no label, and in front of many more mistakes. -/
theorem assembleText_first_error_of_duplicate :
    ∃ source error, assembleText (some digitLimit) source = .error (.wrong error) ∧
      error.kind = .duplicateLabel ∧ error.line = 3 ∧
      ∀ other, (splitLines other).take 3 = (splitLines source).take 3 →
        assembleText (some digitLimit) other = .error (.wrong error) := by
  let source := "a: JMP nowhere\n DB 300 - 50\n a: DB 1, [\n ORG 999\n a: a: DB 300".toList
  let error : AssemblyError := ⟨.duplicateLabel "a".toList, 3, "a: DB 1, [".toList⟩
  have fails : assembleText (some digitLimit) source = .error (.wrong error) := by decide +kernel
  obtain ⟨number, isLine, -, -, alike, -⟩ := assembleText_first_error fails (by decide)
  have three : number = 3 := Int.ofNat.inj isLine.symm
  rw [three] at alike
  exact ⟨source, error, fails, rfl, rfl, alike⟩

end Sources

end EightBit
