import EightBit.Proofs.Assembly.WellFormed
import EightBit.Proofs.Operand.Labels

/-!
# Reports of Undefined Labels

A label that no line defines is found out in the second pass, when its placeholder is to be patched.
The report names the line that owns the byte by then. That is the line of the reference, unless
`ORG` has moved back and a later line has written to the same address.

## Main Definitions

- `Source.Line.Refers`: a line has an operand that mentions a label.
- `FirstUndefined`: the first reference to a label that no line defines.
- `BlamesUse`: a line that is rightly reported for a label.

## Main Statements

- `reference_mem_cells_iff`: a line writes references to the labels that its operands mention.
- `ofText_of_addLines`: the first pass reports no undefined label.
- `firstUndefined_of_patch`: the second pass stops at the first undefined reference.
- `undefinedLabel_reported`: which line is reported, and when it is the right one.
-/

namespace EightBit

open Layout Text

/-- An operand of the line is the label, or the label in brackets. -/
def Source.Line.Refers (line : Source.Line) (label : List Char) : Prop :=
  ∃ statement ∈ line.statement, ∃ operand ∈ statement.operands, Operand.Mentions operand label

/-! ## References to the labels that operands mention -/

theorem Operand.cell_eq_reference_iff {operand : Operand} {label : List Char} :
    operand.cell = .reference label ↔ operand.reference? = some label := by
  rw [Operand.cell]
  cases operand.reference? <;> simp

section Cells

variable {limit : DigitLimit} {label : List Char} {cells : List Cell}

/-- An item that is accepted refers to the label that it names, if it names one. -/
theorem reference_mem_dataItem {source : List Char} (ok : Effect.dataItem limit source = .ok cells) :
    .reference label ∈ cells ↔
      ∃ operand, Operand.classify limit source = .ok operand ∧ operand.reference? = some label := by
  obtain ⟨operand, classified, chosen⟩ := bind_ok_iff.1 ok
  rw [classified]
  -- only a label leaves a reference; the other items leave bytes, or are refused
  simp only [Except.ok.injEq, exists_eq_left']
  cases operand with
  | text codes =>
    cases chosen
    simp [Operand.reference?]
  | immediate value =>
    cases chosen
    simp [Operand.reference?]
  | label name =>
    cases chosen
    simp [Operand.reference?, eq_comm]
  | _ => cases chosen

/-- **A statement refers to the labels that its operands mention**, and to no others. -/
theorem reference_mem_iff {statement : Source.Statement}
    (emits : Effect.ofStatement limit statement = .emit cells none)
    (trimmed : ∀ operand ∈ statement.operands, Trimmed operand) :
    .reference label ∈ cells ↔ ∃ operand ∈ statement.operands, Operand.Mentions operand label := by
  have mentions : (∃ operand ∈ statement.operands, Operand.Mentions operand label) ↔
      ∃ text ∈ statement.operands, ∃ operand,
        Operand.classify limit text = .ok operand ∧ operand.reference? = some label :=
    exists_congr fun text =>
      and_congr_right fun mem => Operand.mentions_iff limit (trimmed text mem)
  rw [mentions]
  rcases emits_iff.1 emits with ⟨-, -, isData⟩ | ⟨-, isInstr⟩
  · obtain ⟨items, areItems, rfl⟩ := Effect.dataCells_ok_iff.1 isData
    obtain ⟨forward, backward⟩ := mem_of_mapM_ok areItems
    constructor
    · intro mem
      obtain ⟨item, isItem, inItem⟩ := List.mem_flatten.1 mem
      obtain ⟨text, inOperands, ok⟩ := backward item isItem
      exact ⟨text, inOperands, (reference_mem_dataItem ok).1 inItem⟩
    · rintro ⟨text, inOperands, classified⟩
      obtain ⟨item, isItem, ok⟩ := forward text inOperands
      exact List.mem_flatten.2 ⟨item, isItem, (reference_mem_dataItem ok).2 classified⟩
  · obtain ⟨-, operands, instr, areOperands, -, rfl⟩ := Effect.instrCells_ok_iff.1 isInstr
    obtain ⟨forward, backward⟩ := mem_of_mapM_ok areOperands
    -- the opcode is no reference
    simp only [List.mem_cons, reduceCtorEq, false_or, List.mem_map, Operand.cell_eq_reference_iff]
    constructor
    · rintro ⟨operand, mem, names⟩
      obtain ⟨text, inOperands, ok⟩ := backward operand mem
      exact ⟨text, inOperands, operand, ok, names⟩
    · rintro ⟨text, inOperands, operand, classified, names⟩
      obtain ⟨other, mem, ok⟩ := forward text inOperands
      rw [classified] at ok
      cases ok
      exact ⟨operand, mem, names⟩

/-- **A line that is worked off refers to the labels that its operands mention.** -/
theorem reference_mem_cells_iff {number : Nat} {raw : List Char} {layout after : Layout}
    (added : Added limit number (Source.Line.parse raw) layout after) :
    .reference label ∈ (Source.Line.parse raw).cells limit ↔
      (Source.Line.parse raw).Refers label := by
  obtain ⟨labelled, -, performed⟩ := added
  rw [Source.Line.cells, Source.Line.Refers]
  cases isStatement : (Source.Line.parse raw).statement with
  | none => simp
  | some statement =>
    have trimmed := Source.Line.trimmed_of_parse isStatement
    rw [isStatement] at performed
    rcases performed with ⟨address, moves, -⟩ | ⟨cells, emits, -⟩
    -- the operand of `ORG` is a number, so it mentions no label
    · obtain ⟨-, operand, single, value, isNumber, -⟩ := exists_of_moveTo moves
      simp only [Option.map_some, moves, List.not_mem_nil, Option.mem_some_iff, exists_eq_left',
        false_iff]
      rintro ⟨text, inOperands, mentions⟩
      obtain ⟨classified, ok, names⟩ := (Operand.mentions_iff limit (trimmed text inOperands)).1 mentions
      rw [single, List.mem_singleton] at inOperands
      subst inOperands
      rw [Operand.not_label_of_number isNumber ok] at names
      cases names
    · simp only [Option.map_some, emits, Option.mem_some_iff, exists_eq_left']
      exact reference_mem_iff emits trimmed

end Cells

/-! ## The first pass reports no undefined label -/

namespace Layout

section FirstPass

variable {limit : DigitLimit} {number : Nat} {layout : Layout}

/-- If the step stops, the text of a line is the reason. -/
def OwnReason (limit : DigitLimit) : Except Interruption Layout → Prop
  | .ok _ => True
  | .error stopped => stopped.cause.OfText limit

theorem OwnReason.bind {first : Except Interruption Layout}
    {next : Layout → Except Interruption Layout} (isFirst : OwnReason limit first)
    (isNext : ∀ layout, OwnReason limit (next layout)) : OwnReason limit (first >>= next) := by
  cases first with
  | error stopped => exact isFirst
  | ok layout => exact isNext layout

theorem define_ownReason (name : List Char) : OwnReason limit (define number name layout) := by
  unfold define
  split
  · exact nofun
  · split
    · exact nofun
    · trivial

theorem emit_ownReason (cells : List Cell) : OwnReason limit (emit number cells layout) := by
  induction cells generalizing layout with
  | nil => trivial
  | cons cell cells ih =>
    rw [emit]
    split
    · apply ih
    · intro same
      cases same

theorem perform_ownReason (statement : Source.Statement) :
    OwnReason limit (perform number (Effect.ofStatement limit statement) layout) := by
  cases effect : Effect.ofStatement limit statement with
  | moveTo address => trivial
  | emit cells failure =>
    refine .bind (emit_ownReason cells) fun after => ?_
    cases failure with
    | some cause => exact Effect.ofText_of_ofStatement effect
    | none => trivial

theorem addLine_ownReason (line : Source.Line) :
    OwnReason limit (addLine limit number line layout) := by
  unfold addLine
  cases line.statement with
  | none =>
    cases line.label with
    | none => trivial
    | some name => exact .bind (define_ownReason name) fun _ => trivial
  | some statement =>
    cases line.label with
    | none => apply perform_ownReason
    | some name => exact .bind (define_ownReason name) fun _ => perform_ownReason _

/-- **The first pass stops for reasons that the text of a line gives.** -/
theorem addLines_ownReason (lines : List Source.Line) :
    OwnReason limit (addLines limit number lines layout) := by
  induction lines generalizing number layout with
  | nil => trivial
  | cons line rest ih => exact .bind (addLine_ownReason line) fun _ => ih

end FirstPass

/-! ## The second pass stops at the first undefined reference -/

theorem exists_of_patch_error {references : List (Nat × List Char)} {layout : Layout}
    {stopped : Interruption} (stops : patch references layout = .error stopped) :
    ∃ front address label back, references = front ++ (address, label) :: back ∧
      (∀ reference ∈ front, (layout.symbols.lookup reference.2).isSome) ∧
      layout.symbols.lookup label = none ∧ stopped.cause = .wrong (.undefinedLabel label) ∧
      stopped.line = (layout.owner? address).getD 0 := by
  induction references generalizing layout with
  | nil => cases stops
  | cons reference rest ih =>
    obtain ⟨address, label⟩ := reference
    rw [patch] at stops
    split at stops
    -- a patch changes neither the labels nor the owners
    · next target known =>
      obtain ⟨front, address', label', back, rfl, allKnown, unknown, cause, line⟩ := ih stops
      refine ⟨(address, label) :: front, address', label', back, rfl, ?_, unknown, cause, line⟩
      exact List.forall_mem_cons.2 ⟨by rw [known]; rfl, allKnown⟩
    · next unknown =>
      cases stops
      exact ⟨[], address, label, rest, rfl, by simp, unknown, rfl, rfl⟩

end Layout

/-- The line's reference at the address is the first of the source to a label that no line
defines. -/
structure FirstUndefined (limit : DigitLimit) (source label : List Char) (number address : Nat) :
    Prop where
  writes : Writes limit source number address (.reference label)
  undefined : label ∉ definedLabels source
  first : ∀ later above other, Writes limit source later above (.reference other) →
    other ∉ definedLabels source → number < later ∨ number = later ∧ address ≤ above

/-- The label is defined nowhere, the line refers to it, and all labels that earlier lines refer to
are defined. -/
structure BlamesUse (source label : List Char) (number : Nat) : Prop where
  undefined : label ∉ definedLabels source
  refers : ∃ line, (line, number) ∈ numberedLines source ∧ line.Refers label
  first : ∀ line earlier, (line, earlier) ∈ numberedLines source → earlier < number →
    ∀ other, line.Refers other → other ∈ definedLabels source

section Source

variable {limit : DigitLimit} {source label : List Char} {laid : Layout}
variable (run : AddedLines limit 1 (start source).lines (start source) laid)
include run

/-- A label that is not found is one that no line defines. -/
theorem lookup_eq_none_iff_undefined :
    laid.symbols.lookup label = none ↔ label ∉ definedLabels source := by
  rw [lookup_eq_none_iff_not_mem, symbols_of_run run]
  exact Iff.rfl

/-- **The second pass stops at the first undefined reference**: references are patched in the order
in which they are written. -/
theorem exists_firstUndefined {front back : List (Nat × List Char)} {address : Nat}
    (split : laid.references = front ++ (address, label) :: back)
    (known : ∀ reference ∈ front, (laid.symbols.lookup reference.2).isSome)
    (unknown : laid.symbols.lookup label = none) :
    ∃ number, FirstUndefined limit source label number address := by
  -- the record, oldest cells first, cut where the reference stands in it
  obtain ⟨before, rest, order, isFront, isRest⟩ := List.filterMap_eq_append_iff.1 split
  obtain ⟨skipped, emission, later, rfl, noReference, isReference, -⟩ :=
    List.filterMap_eq_cons_iff.1 isRest
  have sorted := List.pairwise_reverse.2 (pairwise_of_added run .nil nofun)
  rw [order, List.pairwise_append, List.pairwise_append, List.pairwise_cons] at sorted
  obtain ⟨here, isCell⟩ : emission.address = address ∧ emission.cell = .reference label := by
    revert isReference
    cases emission.cell <;> simp
  have mem : emission ∈ laid.emitted := by
    rw [← List.mem_reverse, order]
    simp
  refine ⟨emission.line, ?_, (lookup_eq_none_iff_undefined run).1 unknown, ?_⟩
  · have writes := (mem_emitted_iff run).1 mem
    rwa [here, isCell] at writes
  · intro number above other writes undefined
    have otherMem : ⟨above, .reference other, number⟩ ∈ laid.emitted :=
      (mem_emitted_iff run).2 writes
    rw [← List.mem_reverse, order, List.mem_append, List.mem_append, List.mem_cons] at otherMem
    rcases otherMem with inBefore | inSkipped | same | inLater
    · -- what stands in front has a label
      have inFront : (above, other) ∈ front := by
        rw [← isFront]
        exact List.mem_filterMap.2 ⟨_, inBefore, rfl⟩
      have isKnown := known _ inFront
      rw [(lookup_eq_none_iff_undefined run).2 undefined] at isKnown
      cases isKnown
    · cases noReference _ inSkipped
    · subst same
      exact .inr ⟨rfl, Nat.le_of_eq here.symm⟩
    -- what stands behind was written later
    · rcases sorted.2.1.2.1.1 _ inLater with isLater | ⟨sameLine, further⟩
      · exact .inl isLater
      · rw [here] at further
        exact .inr ⟨sameLine, Nat.le_of_lt further⟩

/-- **A line writes a reference** if one of its operands mentions a label. -/
theorem exists_writes_reference_iff {number : Nat} :
    (∃ address, Writes limit source number address (.reference label)) ↔
      ∃ line, (line, number) ∈ numberedLines source ∧ line.Refers label := by
  -- every line of the source is some text that is worked off
  have worked : ∀ {front line back}, (start source).lines = front ++ line :: back →
      ∃ before after raw, AddedLines limit 1 front (start source) before ∧
        Added limit (1 + front.length) line before after ∧ line = Source.Line.parse raw := by
    intro front line back split
    rw [split] at run
    obtain ⟨before, toFront, after, added, -⟩ := addedLines_append.1 run
    have mem : line ∈ (start source).lines := by simp [split]
    obtain ⟨raw, -, rfl⟩ := List.mem_map.1 mem
    exact ⟨before, after, raw, toFront, added, rfl⟩
  constructor
  · rintro ⟨address, writes⟩
    obtain ⟨line, isLine, inCells⟩ := writes.mem_cells
    obtain ⟨front, back, split, -⟩ := mem_numberedLines_iff.1 isLine
    obtain ⟨before, after, raw, -, added, rfl⟩ := worked split
    exact ⟨_, isLine, (reference_mem_cells_iff added).1 inCells⟩
  · rintro ⟨line, isLine, refers⟩
    obtain ⟨front, back, split, rfl⟩ := mem_numberedLines_iff.1 isLine
    obtain ⟨before, after, raw, toFront, added, rfl⟩ := worked split
    obtain ⟨offset, isCell⟩ :=
      List.mem_iff_getElem?.1 ((reference_mem_cells_iff added).2 refers)
    refine ⟨before.cursor + offset, front, _, back, before, split, rfl, toFront, ?_⟩
    rw [cellAt_eq_some_iff, Nat.add_sub_cancel_left]
    exact ⟨Nat.le_add_right _ _, isCell⟩

/-- **The right line is reported** if the line that wrote the first undefined reference still owns
its byte. -/
theorem FirstUndefined.blamesUse_iff {number address owner : Nat}
    (first : FirstUndefined limit source label number address)
    (last : WritesLast limit source owner address) :
    BlamesUse source label owner ↔ owner = number := by
  have refers := (exists_writes_reference_iff run).1 ⟨address, first.writes⟩
  constructor
  · intro blames
    obtain ⟨line, isLine, lineRefers⟩ := refers
    refine Nat.le_antisymm (Nat.le_of_not_lt fun earlier => ?_) (last.2 number _ first.writes)
    exact first.undefined (blames.first line number isLine earlier label lineRefers)
  · rintro rfl
    refine ⟨first.undefined, refers, fun line earlier isLine isEarlier other lineRefers => ?_⟩
    by_contra undefined
    -- an earlier undefined reference would have been the first one
    obtain ⟨above, writes⟩ := (exists_writes_reference_iff run).2 ⟨line, isLine, lineRefers⟩
    rcases first.first earlier above other writes undefined with later | ⟨same, -⟩
    · omega
    · omega

end Source

theorem Writes.positive {limit : DigitLimit} {source : List Char} {number address : Nat} {cell : Cell}
    (writes : Writes limit source number address cell) : 1 ≤ number := by
  obtain ⟨front, line, back, before, -, isNumber, -⟩ := writes
  omega

/-- **Why an assembly stops**: for a reason that the text of a line gives, or at the first undefined
reference, and then at the line that owns its byte. -/
theorem ofSource_stops {limit : DigitLimit} {source : List Char} {stopped : Interruption}
    (stops : ofSource limit source = .error stopped) :
    stopped.cause.OfText limit ∨
      ∃ label number address, stopped.cause = .wrong (.undefinedLabel label) ∧
        FirstUndefined limit source label number address ∧
        WritesLast limit source stopped.line address ∧
        (BlamesUse source label stopped.line ↔ stopped.line = number) := by
  rw [ofSource] at stops
  have own : OwnReason limit (addLines limit 1 (start source).lines (start source)) :=
    addLines_ownReason _
  cases first : addLines limit 1 (start source).lines (start source) with
  | error interruption =>
    rw [first] at stops own
    cases stops
    exact .inl own
  | ok laid =>
    rw [first] at stops
    have run := addLines_ok_iff.1 first
    obtain ⟨front, address, label, back, split, known, unknown, cause, line⟩ :=
      exists_of_patch_error stops
    obtain ⟨number, isFirst⟩ := exists_firstUndefined run split known unknown
    -- whoever wrote there last, something was written there
    have mem : ⟨address, .reference label, number⟩ ∈ laid.emitted :=
      (mem_emitted_iff run).2 isFirst.writes
    obtain ⟨newest, found⟩ := Option.isSome_iff_exists.1 (isSome_emission?_of_mem mem)
    have isOwner : laid.owner? address = some newest.line := by rw [owner?, found]; rfl
    have last := (owner?_eq_some_iff run).1 isOwner
    rw [isOwner, Option.getD_some] at line
    rw [line]
    exact .inr ⟨label, number, address, cause, isFirst, last, isFirst.blamesUse_iff run last⟩

/-- **An undefined label is reported at the line that owns the byte of its first use.** That line is
the right one exactly if no later line has written there. -/
theorem undefinedLabel_reported {limit : DigitLimit} {source : List Char} {error : AssemblyError}
    (failed : assembleText limit source = .error (.wrong error))
    (isUndefined : error.kind = .undefinedLabel) :
    ∃ (label : List Char) (number address owner : Nat),
      error.problem = .undefinedLabel label ∧ error.line = owner ∧
      error.message = "Line " ++ toString owner ++ ": " ++ (Problem.undefinedLabel label).message ∧
      FirstUndefined limit source label number address ∧ WritesLast limit source owner address ∧
      (BlamesUse source label owner ↔ owner = number) := by
  rw [assembleText] at failed
  split at failed
  · cases failed
  · next stopped stops =>
    have report : stopped.report = .wrong error := Except.error.inj failed
    rw [Interruption.report] at report
    rcases ofSource_stops stops with own | ⟨label, number, address, cause, isFirst, last, right⟩
    -- a text alone is no reason to report an undefined label
    · cases cause : stopped.cause with
      | excess excess =>
        rw [cause] at report
        cases report
      | wrong problem =>
        rw [cause] at report own
        cases report
        exact absurd isUndefined own
    · rw [cause] at report
      cases report
      refine ⟨label, number, address, stopped.line, rfl, rfl, ?_, isFirst, last, right⟩
      obtain ⟨⟨cell, writes⟩, -⟩ := last
      have named : (stopped.line : Int) ≠ 0 := by
        have := writes.positive
        omega
      rw [AssemblyError.message, if_neg named, Numeral.decimal_natCast]
      rfl

/-- A label in brackets that is used twice, while a later line writes over another reference. -/
theorem undefinedLabel_reported_in_brackets :
    ∃ source error, assembleText (some digitLimit) source = .error (.wrong error) ∧
      error.kind = .undefinedLabel ∧ error.line = 2 ∧
      ∃ (label : List Char) (number address owner : Nat),
        error.problem = .undefinedLabel label ∧ error.line = owner ∧
        error.message = "Line " ++ toString owner ++ ": " ++ (Problem.undefinedLabel label).message ∧
        FirstUndefined (some digitLimit) source label number address ∧
        WritesLast (some digitLimit) source owner address ∧
        (BlamesUse source label owner ↔ owner = number) := by
  let source := "a: DB a\nMOV AL, [ x ]\nDB x\nORG 0\nDB 1".toList
  let error : AssemblyError :=
    { problem := .undefinedLabel "x".toList, line := 2, text := "MOV AL, [ x ]".toList }
  have failed : assembleText (some digitLimit) source = .error (.wrong error) := by decide +kernel
  exact ⟨source, error, failed, rfl, rfl, undefinedLabel_reported failed rfl⟩

/-- A later line is reported if it has written over the reference. -/
theorem exists_undefinedLabel_elsewhere :
    ¬∀ source error, assemble source = .error (.wrong error) → error.kind = .undefinedLabel →
      ∃ (label : List Char) (number : Nat), error.problem = .undefinedLabel label ∧
        error.line = number ∧ BlamesUse source.toList label number := by
  intro claim
  let source := "DB x\nORG 0\nDB 5"
  let error : AssemblyError :=
    { problem := .undefinedLabel "x".toList, line := 3, text := "DB 5".toList }
  obtain ⟨label, number, isLabel, isLine, blames⟩ := claim source error (by decide +kernel) rfl
  obtain rfl : number = 3 := by
    have isLine : (3 : Int) = number := isLine
    omega
  -- the label is used in the first line
  have used : (Source.Line.parse "DB x".toList).Refers "x".toList :=
    ⟨⟨"DB".toList, ["x".toList]⟩, rfl, "x".toList, by decide, rfl, .inl rfl⟩
  have isDefined := blames.first _ 1 (by decide) (by decide) _ used
  revert isDefined
  decide

end EightBit
