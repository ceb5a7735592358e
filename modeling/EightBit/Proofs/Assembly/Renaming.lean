import EightBit.Proofs.Assembly.Undefined
import Mathlib.Data.List.Forall2
import Mathlib.Data.Set.Function
import Mathlib.Logic.Equiv.Basic

/-!
# Labels as Names

Labels are only names. If every label of a source gets another name, and different labels different
ones, then the source still assembles to the same code with the same line map, or is still rejected
at the same line for the same kind of problem.

Two sources are compared whose lines have the same parts, up to the labels in them. How the lines are
written does not matter, and neither do their comments. Both sources go through the passes side by
side; every step keeps them alike, or stops both of them.

## Main Definitions

- `RenamedOperand`, `RenamedLine`: what is the same in both sources.
- `usedLabels`: the labels that a source defines or refers to.
- `Matched`: both computations succeed alike, or fail alike.

## Main Statements

- `classify_renamed`: a renamed operand is classified as the operand, with the other name in it.
- `ofStatement_renamed`: a renamed statement has the effect of the statement, with other names.
- `addLines_renamed`, `patch_renamed`: both passes keep the sources alike.
- `assembleText_renamed`: both sources assemble to the same program, or are rejected alike.
-/

namespace EightBit

open Source Layout Text

/-! ## Renamed sources -/

/-- The second operand is the first one with its label renamed, if it is a label or a label in
brackets, and else it is the same. -/
inductive RenamedOperand (rename : List Char → List Char) : List Char → List Char → Prop
  /-- A label. -/
  | label {name : List Char} (isLabel : Operand.isLabel name = true) :
    RenamedOperand rename name (rename name)
  /-- A label in brackets, with or without blanks around it. -/
  | bracketed {inner inner' : List Char} (isLabel : Operand.isLabel (trim inner) = true)
    (renamed : trim inner' = rename (trim inner)) :
    RenamedOperand rename ('[' :: inner ++ [']']) ('[' :: inner' ++ [']'])
  /-- Anything else. -/
  | other {text : List Char} (plain : ∀ name, ¬Operand.Mentions text name) :
    RenamedOperand rename text text

/-- Both statements have the same mnemonic, and the same operands up to their labels. -/
structure RenamedStatement (rename : List Char → List Char) (first second : Statement) : Prop where
  mnemonic : second.mnemonic = first.mnemonic
  operands : List.Forall₂ (RenamedOperand rename) first.operands second.operands

/-- The renamed word in front of a colon. A word that is no label keeps its name. -/
def renameDefinition (rename : List Char → List Char) (name : List Char) : List Char :=
  if Operand.isLabel name then rename name else name

/-- Both lines have the same parts up to their labels. -/
structure RenamedLine (rename : List Char → List Char) (first second : Line) : Prop where
  label : second.label = first.label.map (renameDefinition rename)
  statement : Option.Rel (RenamedStatement rename) first.statement second.statement

/-- The line defines the label or refers to it. -/
def Source.Line.Uses (line : Line) (name : List Char) : Prop :=
  Operand.isLabel name = true ∧ (name ∈ line.label ∨ line.Refers name)

/-- The labels that a source defines or refers to. -/
def usedLabels (source : List Char) : Set (List Char) :=
  {name | ∃ line ∈ (start source).lines, line.Uses name}

/-- The given labels are renamed to labels, and different ones to different ones. -/
structure Renames (rename : List Char → List Char) (names : Set (List Char)) : Prop where
  labels : ∀ name ∈ names, Operand.isLabel (rename name) = true
  distinct : Set.InjOn rename names

/-! ## Computations side by side -/

/-- Both computations succeed with related values, or both fail for related reasons. -/
inductive Matched {ε δ α β : Type} (E : ε → δ → Prop) (R : α → β → Prop) :
    Except ε α → Except δ β → Prop
  | ok {a : α} {b : β} (values : R a b) : Matched E R (.ok a) (.ok b)
  | error {e : ε} {d : δ} (reasons : E e d) : Matched E R (.error e) (.error d)

theorem Matched.bind {ε δ α β α' β' : Type} {E : ε → δ → Prop} {R : α → β → Prop}
    {R' : α' → β' → Prop} {first : Except ε α} {second : Except δ β}
    {next : α → Except ε α'} {next' : β → Except δ β'} (isFirst : Matched E R first second)
    (isNext : ∀ a b, first = .ok a → R a b → Matched E R' (next a) (next' b)) :
    Matched E R' (first >>= next) (second >>= next') := by
  cases isFirst with
  | ok values => exact isNext _ _ rfl values
  | error reasons => exact .error reasons

/-- Both rejections are for the same kind of problem. -/
def SameKind (first second : Rejection Problem) : Prop :=
  second.map Problem.kind = first.map Problem.kind

theorem SameKind.refl (rejection : Rejection Problem) : SameKind rejection rejection := rfl

/-! ## Operands -/

/-- The operand with its label renamed. -/
def Operand.rename (rename : List Char → List Char) : Operand → Operand
  | .addressOf name => .addressOf (rename name)
  | .label name => .label (rename name)
  | operand => operand

/-- The cell with its label renamed. -/
def Cell.rename (rename : List Char → List Char) : Cell → Cell
  | .byte value => .byte value
  | .reference label => .reference (rename label)

section Statements

variable {limit : DigitLimit} {rename : List Char → List Char}

theorem Operand.rename_of_not_reference {operand : Operand} (plain : operand.reference? = none) :
    operand.rename rename = operand := by
  cases operand <;> first | rfl | cases plain

theorem Operand.shape_rename (operand : Operand) : (operand.rename rename).shape = operand.shape := by
  cases operand <;> rfl

theorem Operand.cell_rename (operand : Operand) :
    (operand.rename rename).cell = operand.cell.rename rename := by
  cases operand <;> rfl

/-- What is read of an operand and of the renamed one: they are the same number, if they are any, and
are classified alike. -/
structure ReadsRenamed (limit : DigitLimit) (rename : List Char → List Char)
    (first second : List Char) : Prop where
  number : Operand.number limit second = Operand.number limit first
  classified : Operand.classify limit second =
    (Operand.classify limit first).map (Operand.rename rename)

/-- **A renamed operand is classified as the operand**, with the other name in it. -/
theorem classify_renamed {first second : List Char} (renamed : RenamedOperand rename first second)
    (valid : ∀ name, Operand.Mentions first name → Operand.isLabel (rename name) = true)
    (trimmed : Trimmed first) (trimmed' : Trimmed second) :
    ReadsRenamed limit rename first second := by
  -- neither a name nor a bracket starts a number
  have noNumber : ∀ {text}, Numeral.parse? text = none → Operand.number limit text = .ok none := by
    intro text parsed
    rw [Operand.number, Numeral.read_of_not_parse? parsed]
    rfl
  cases renamed with
  | label isLabel =>
    have isLabel' := valid first ⟨isLabel, .inl rfl⟩
    constructor
    · rw [noNumber (Operand.parse?_of_isName (Operand.isName_of_isLabel isLabel)),
        noNumber (Operand.parse?_of_isName (Operand.isName_of_isLabel isLabel'))]
    · rw [Operand.classify_label limit trimmed isLabel,
        Operand.classify_label limit trimmed' isLabel']
      rfl
  | @bracketed inner inner' isLabel renamed =>
    have isLabel' := valid (trim inner) ⟨isLabel, .inr ⟨inner, rfl, rfl⟩⟩
    rw [← renamed] at isLabel'
    constructor
    · rw [List.cons_append, noNumber (Operand.parse?_of_start (.inr rfl)), List.cons_append,
        noNumber (Operand.parse?_of_start (.inr rfl))]
    · rw [Operand.classify_brackets, Operand.classify_brackets,
        Operand.classifyMemory_label limit (trimmed_trim inner) isLabel,
        Operand.classifyMemory_label limit (trimmed_trim inner') isLabel', renamed]
      rfl
  | other plain =>
    refine ⟨rfl, ?_⟩
    cases classified : Operand.classify limit first with
    | error rejection => rfl
    | ok operand =>
      have noLabel : operand.reference? = none := by
        by_contra names
        obtain ⟨name, names⟩ := Option.ne_none_iff_exists'.1 names
        exact plain name ((Operand.mentions_iff limit trimmed).2 ⟨operand, classified, names⟩)
      rw [Except.map, Operand.rename_of_not_reference noLabel]

theorem mapM_classify_renamed {first second : List (List Char)}
    (reads : List.Forall₂ (ReadsRenamed limit rename) first second) :
    second.mapM (Operand.classify limit) =
      (first.mapM (Operand.classify limit)).map (List.map (Operand.rename rename)) := by
  induction reads with
  | nil => rfl
  | @cons source source' rest rest' head _ ih =>
    rw [List.mapM_cons, List.mapM_cons, head.classified, ih]
    cases Operand.classify limit source with
    | error rejection => rfl
    | ok operand => cases rest.mapM (Operand.classify limit) <;> rfl

/-! ## Statements -/

/-- Both effects move the cursor to the same address, or write the same cells up to their labels and
then succeed or fail alike. -/
inductive RenamedEffect (rename : List Char → List Char) : Effect → Effect → Prop
  | moveTo (address : Nat) : RenamedEffect rename (.moveTo address) (.moveTo address)
  | emit (cells : List Cell) {failure failure' : Option (Rejection Problem)}
    (failures : Option.Rel SameKind failure failure') :
    RenamedEffect rename (.emit cells failure) (.emit (cells.map (Cell.rename rename)) failure')

theorem renamed_fail {rejection rejection' : Rejection Problem} (same : SameKind rejection rejection') :
    RenamedEffect rename (Effect.fail rejection) (Effect.fail rejection') :=
  .emit [] (.some same)

/-- The cells of both items are the same up to their labels. -/
theorem dataItem_renamed {first second : List Char} (reads : ReadsRenamed limit rename first second) :
    Matched SameKind (fun cells cells' => cells' = cells.map (Cell.rename rename))
      (Effect.dataItem limit first) (Effect.dataItem limit second) := by
  unfold Effect.dataItem
  rw [reads.classified]
  cases Operand.classify limit first with
  | error rejection => exact .error (.refl rejection)
  | ok operand =>
    cases operand with
    | text codes =>
      refine .ok ?_
      rw [List.map_map]
      rfl
    | immediate value => exact .ok rfl
    | label name => exact .ok rfl
    -- what is no data is rejected with the operand as it is written
    | register => exact .error rfl
    | address => exact .error rfl
    | addressOf => exact .error rfl
    | indirect => exact .error rfl
    | stackOffset => exact .error rfl

theorem dataCells_renamed {first second : List (List Char)}
    (reads : List.Forall₂ (ReadsRenamed limit rename) first second) :
    (Effect.dataCells limit second).1 =
        (Effect.dataCells limit first).1.map (Cell.rename rename) ∧
      Option.Rel SameKind (Effect.dataCells limit first).2 (Effect.dataCells limit second).2 := by
  -- the items are read pairwise; where one fails, both do, behind the same cells
  induction reads with
  | nil => exact ⟨rfl, .none⟩
  | @cons source source' rest rest' head _ ih =>
    have item := dataItem_renamed head
    unfold Effect.dataCells
    generalize Effect.dataItem limit source = result at item ⊢
    generalize Effect.dataItem limit source' = result' at item ⊢
    cases item with
    | ok same =>
      refine ⟨?_, ih.2⟩
      show _ ++ _ = List.map _ (_ ++ _)
      rw [same, ih.1, List.map_append]
    | error reasons => exact ⟨rfl, .some reasons⟩

/-- Both instructions are the same form of the same mnemonic. -/
theorem instrCells_renamed (mnemonic : List Char) {first second : List (List Char)}
    (reads : List.Forall₂ (ReadsRenamed limit rename) first second) :
    Matched SameKind (fun cells cells' => cells' = cells.map (Cell.rename rename))
      (Effect.instrCells limit mnemonic first) (Effect.instrCells limit mnemonic second) := by
  unfold Effect.instrCells
  cases known : Instr.mnemonics.contains (String.ofList mnemonic) with
  | false =>
    simp only [known, Bool.not_false, if_true]
    exact .error (.refl _)
  | true =>
    -- renaming changes neither the shapes nor the cells but by the names in them
    have shapes : ∀ operands : List Operand,
        (operands.map (Operand.rename rename)).map Operand.shape = operands.map Operand.shape :=
      fun operands => by rw [List.map_map]; exact List.map_congr_left fun _ _ => Operand.shape_rename _
    have cells : ∀ operands : List Operand, (operands.map (Operand.rename rename)).map Operand.cell =
        (operands.map Operand.cell).map (Cell.rename rename) := fun operands => by
      rw [List.map_map, List.map_map]
      exact List.map_congr_left fun _ _ => Operand.cell_rename _
    simp only [known, Bool.not_true, Bool.false_eq_true, if_false]
    -- from here on the two sides read the same operands, up to renaming
    rw [mapM_classify_renamed reads]
    cases first.mapM (Operand.classify limit) with
    | error rejection => exact .error (.refl rejection)
    | ok operands =>
      simp only [Except.map, bind, Except.bind, shapes]
      cases Instr.lookup? (String.ofList mnemonic) (operands.map Operand.shape) with
      | none => exact .error rfl
      | some instr =>
        refine .ok ?_
        rw [List.map_cons, ← cells]
        rfl

/-- `ORG` takes numbers only, so labels are rejected whatever their names are. -/
theorem ofOrigin_renamed {first second : List (List Char)}
    (reads : List.Forall₂ (ReadsRenamed limit rename) first second) :
    RenamedEffect rename (Effect.ofOrigin limit first) (Effect.ofOrigin limit second) := by
  -- an origin is a number, and numbers mention no names
  cases reads with
  | nil => exact renamed_fail (.refl _)
  | @cons source source' rest rest' head tail =>
    cases tail with
    | nil =>
      have same : Effect.origin limit source' = Effect.origin limit source := by
        rw [Effect.origin, head.number]
        rfl
      cases isOrigin : Effect.origin limit source with
      | ok address =>
        rw [isOrigin] at same
        simp only [Effect.ofOrigin, isOrigin, same]
        exact .moveTo address
      | error rejection =>
        rw [isOrigin] at same
        simp only [Effect.ofOrigin, isOrigin, same]
        exact renamed_fail (.refl rejection)
    | cons => exact renamed_fail (.refl _)

/-- **A renamed statement has the effect of the statement**, with the other names. -/
theorem ofStatement_renamed {first second : Statement}
    (mnemonic : second.mnemonic = first.mnemonic)
    (reads : List.Forall₂ (ReadsRenamed limit rename) first.operands second.operands) :
    RenamedEffect rename (Effect.ofStatement limit first) (Effect.ofStatement limit second) := by
  obtain ⟨name, sources⟩ := first
  obtain ⟨name', sources'⟩ := second
  obtain rfl : name' = name := mnemonic
  unfold Effect.ofStatement
  -- the directives first, then what is an instruction or nothing
  split
  · exact ofOrigin_renamed reads
  split
  · unfold Effect.ofData
    simp only at reads ⊢
    cases reads with
    | nil => exact renamed_fail (.refl _)
    | cons head tail =>
      obtain ⟨cells, failures⟩ := dataCells_renamed (.cons head tail)
      simp only [List.isEmpty_cons, Bool.false_eq_true, if_false, cells]
      exact .emit _ failures
  · have encoded := instrCells_renamed name' reads
    unfold Effect.ofInstr
    generalize Effect.instrCells limit name' sources = result at encoded ⊢
    generalize Effect.instrCells limit name' sources' = result' at encoded ⊢
    cases encoded with
    | ok same =>
      subst same
      exact .emit _ .none
    | error reasons => exact renamed_fail reasons

end Statements

/-! ## Layouts -/

/-- What was written, with its label renamed. -/
def Emission.rename (rename : List Char → List Char) (emission : Emission) : Emission :=
  { emission with cell := emission.cell.rename rename }

/-- The symbols with the other names. -/
def renameSymbols (rename : List Char → List Char) (symbols : List (List Char × Nat)) :
    List (List Char × Nat) :=
  symbols.map (Prod.map rename id)

/-- Both layouts are the same up to the names of the labels, which are among the given ones. -/
structure RenamedLayout (rename : List Char → List Char) (names : Set (List Char))
    (first second : Layout) : Prop where
  cursor : second.cursor = first.cursor
  symbols : second.symbols = renameSymbols rename first.symbols
  emitted : second.emitted = first.emitted.map (Emission.rename rename)
  patches : second.patches = first.patches
  known : ∀ entry ∈ first.symbols, entry.1 ∈ names

/-- Both stopped at the same line for the same kind of problem. -/
def SameStop (first second : Interruption) : Prop :=
  SameKind first.cause second.cause ∧ second.line = first.line

section Layouts

variable {limit : DigitLimit} {rename : List Char → List Char} {names : Set (List Char)}
  {first second : Layout}

/-- **A renamed label is found where the label is.** -/
theorem lookup_renameSymbols (distinct : Set.InjOn rename names) {symbols : List (List Char × Nat)}
    (known : ∀ entry ∈ symbols, entry.1 ∈ names) {name : List Char} (mem : name ∈ names) :
    (renameSymbols rename symbols).lookup (rename name) = symbols.lookup name := by
  induction symbols with
  | nil => rfl
  | cons entry rest ih =>
    rw [List.forall_mem_cons] at known
    have same : (rename name == rename entry.1) = (name == entry.1) := by
      rw [Bool.eq_iff_iff, beq_iff_eq, beq_iff_eq]
      exact distinct.eq_iff mem known.1
    obtain ⟨other, target⟩ := entry
    show List.lookup (rename name) ((rename other, target) :: renameSymbols rename rest) = _
    rw [List.lookup_cons, List.lookup_cons, same, ih known.2]

theorem RenamedLayout.lookup (renamed : RenamedLayout rename names first second)
    (distinct : Set.InjOn rename names) {name : List Char} (mem : name ∈ names) :
    second.symbols.lookup (rename name) = first.symbols.lookup name := by
  rw [renamed.symbols]
  exact lookup_renameSymbols distinct renamed.known mem

theorem RenamedLayout.emission? (renamed : RenamedLayout rename names first second) (address : Nat) :
    second.emission? address = (first.emission? address).map (Emission.rename rename) := by
  rw [Layout.emission?, renamed.emitted, List.find?_map]
  rfl

theorem RenamedLayout.owner? (renamed : RenamedLayout rename names first second) (address : Nat) :
    second.owner? address = first.owner? address := by
  rw [Layout.owner?, renamed.emission?, Option.map_map]
  rfl

theorem RenamedLayout.references (renamed : RenamedLayout rename names first second) :
    second.references = first.references.map (Prod.map id rename) := by
  rw [Layout.references, renamed.emitted, ← List.map_reverse, List.filterMap_map, Layout.references,
    List.map_filterMap]
  refine List.filterMap_congr fun emission _ => ?_
  obtain ⟨address, cell, line⟩ := emission
  cases cell <;> rfl

/-! ## First pass -/

theorem define_renamed (number : Nat) (renames : Renames rename names) {name : List Char}
    (used : Operand.isLabel name = true → name ∈ names)
    (renamed : RenamedLayout rename names first second) :
    Matched SameStop (RenamedLayout rename names) (define number name first)
      (define number (renameDefinition rename name) second) := by
  unfold define renameDefinition
  cases isLabel : Operand.isLabel name with
  | false =>
    simp only [isLabel, Bool.not_false, if_true, Bool.false_eq_true, if_false]
    exact .error ⟨rfl, rfl⟩
  | true =>
    have mem := used isLabel
    simp only [renames.labels name mem, Bool.not_true, Bool.false_eq_true, if_false, if_true,
      renamed.lookup renames.distinct mem]
    -- the name is known on both sides or on none
    split
    · exact .error ⟨rfl, rfl⟩
    · refine .ok { renamed with symbols := ?_, known := fun entry inSymbols => ?_ }
      · rw [renameSymbols, List.map_append, renamed.symbols, renamed.cursor]
        rfl
      · rcases List.mem_append.1 inSymbols with old | new
        · exact renamed.known entry old
        · rw [List.mem_singleton.1 new]
          exact mem

theorem emit_renamed (number : Nat) (cells : List Cell)
    (renamed : RenamedLayout rename names first second) :
    Matched SameStop (RenamedLayout rename names) (emit number cells first)
      (emit number (cells.map (Cell.rename rename)) second) := by
  induction cells generalizing first second with
  | nil => exact .ok renamed
  | cons cell cells ih =>
    rw [List.map_cons, emit, emit, renamed.cursor]
    split
    · refine ih { renamed with cursor := rfl, emitted := ?_ }
      rw [List.map_cons, renamed.emitted]
      rfl
    · exact .error ⟨rfl, rfl⟩

theorem perform_renamed (number : Nat) {effect effect' : Effect}
    (effects : RenamedEffect rename effect effect')
    (renamed : RenamedLayout rename names first second) :
    Matched SameStop (RenamedLayout rename names) (perform number effect first)
      (perform number effect' second) := by
  cases effects with
  | moveTo address => exact .ok { renamed with cursor := rfl }
  | emit cells failures =>
    refine (emit_renamed number cells renamed).bind fun after after' _ written => ?_
    cases failures with
    | none => exact .ok { written with }
    | some reasons => exact .error ⟨reasons, rfl⟩

/-- Operands have no blanks at their ends, and their labels are labels of the line. -/
theorem reads_of_renamed (renames : Renames rename names) {raw raw' : List Char}
    (used : ∀ name, (Line.parse raw).Uses name → name ∈ names) {statement statement' : Statement}
    (isStatement : (Line.parse raw).statement = some statement)
    (isStatement' : (Line.parse raw').statement = some statement')
    (same : RenamedStatement rename statement statement') :
    List.Forall₂ (ReadsRenamed limit rename) statement.operands statement'.operands := by
  refine List.forall₂_iff_get.2 ⟨same.operands.length_eq, fun index inFirst inSecond => ?_⟩
  refine classify_renamed (same.operands.get inFirst inSecond) (fun name mentions => ?_)
    (Line.trimmed_of_parse isStatement _ (List.get_mem _ _))
    (Line.trimmed_of_parse isStatement' _ (List.get_mem _ _))
  refine renames.labels name (used name ⟨mentions.1, .inr ?_⟩)
  exact ⟨statement, isStatement, _, List.get_mem _ _, mentions⟩

/-- **A line keeps both sources alike**, or is rejected in both. -/
theorem addLine_renamed (number : Nat) (renames : Renames rename names) {raw raw' : List Char}
    (used : ∀ name, (Line.parse raw).Uses name → name ∈ names)
    (lines : RenamedLine rename (Line.parse raw) (Line.parse raw'))
    (renamed : RenamedLayout rename names first second) :
    Matched SameStop (RenamedLayout rename names) (addLine limit number (Line.parse raw) first)
      (addLine limit number (Line.parse raw') second) := by
  rw [addLine_eq, addLine_eq]
  -- the label first, then the statement, each renamed
  refine Matched.bind (R := RenamedLayout rename names) ?_ fun labelled labelled' _ labels => ?_
  · rw [lines.label]
    cases named : (Line.parse raw).label with
    | none => exact .ok renamed
    | some name =>
      exact define_renamed number renames (fun isLabel => used name ⟨isLabel, .inl named⟩) renamed
  · have statements := lines.statement
    generalize isStatement : (Line.parse raw).statement = statement at statements ⊢
    generalize isStatement' : (Line.parse raw').statement = statement' at statements ⊢
    cases statements with
    | none => exact .ok labels
    | some same =>
      -- the operands of the statement use only names among those that are renamed
      have reads : List.Forall₂ (ReadsRenamed limit rename) _ _ :=
        reads_of_renamed renames used isStatement isStatement' same
      exact perform_renamed number (ofStatement_renamed same.mnemonic reads) labels

/-- **The first pass keeps both sources alike**, or stops at the same line. -/
theorem addLines_renamed (number : Nat) (renames : Renames rename names)
    {raws raws' : List (List Char)}
    (used : ∀ raw ∈ raws, ∀ name, (Line.parse raw).Uses name → name ∈ names)
    (lines : List.Forall₂ (fun raw raw' => RenamedLine rename (Line.parse raw) (Line.parse raw'))
      raws raws')
    (renamed : RenamedLayout rename names first second) :
    Matched SameStop (RenamedLayout rename names)
      (addLines limit number (raws.map Line.parse) first)
      (addLines limit number (raws'.map Line.parse) second) := by
  induction lines generalizing number first second with
  | nil => exact .ok renamed
  | cons head _ ih =>
    rw [List.forall_mem_cons] at used
    refine (addLine_renamed number renames used.1 head renamed).bind fun after after' _ added => ?_
    exact ih (number + 1) used.2 added

/-! ## Second pass -/

/-- **The second pass keeps both sources alike**, or stops at the same line. -/
theorem patch_renamed (distinct : Set.InjOn rename names) {references : List (Nat × List Char)}
    (used : ∀ reference ∈ references, reference.2 ∈ names)
    (renamed : RenamedLayout rename names first second) :
    Matched SameStop (RenamedLayout rename names) (patch references first)
      (patch (references.map (Prod.map id rename)) second) := by
  -- induction on the references, with both layouts patched so far
  induction references generalizing first second with
  | nil => exact .ok renamed
  | cons reference rest ih =>
    obtain ⟨address, label⟩ := reference
    rw [List.forall_mem_cons] at used
    show Matched _ _ _ (patch ((address, rename label) :: rest.map (Prod.map id rename)) second)
    rw [patch, patch, renamed.lookup distinct used.1]
    cases first.symbols.lookup label with
    -- the stop is blamed on the line that owns the address, which renaming does not change
    | none => exact .error ⟨rfl, by rw [renamed.owner?]⟩
    | some target =>
      refine ih used.2 { renamed with patches := ?_ }
      show _ :: second.patches = _ :: first.patches
      rw [renamed.patches]

end Layouts

/-! ## Programs -/

/-- The program with other names for its labels. -/
def Program.rename (rename : List Char → List Char) (program : Program) : Program :=
  { program with symbols := renameSymbols rename program.symbols }

/-- Both errors are of the same kind and name the same line, or no line because of a number of too
many digits. -/
def SameReport (first second : Rejection AssemblyError) : Prop :=
  second.map (fun error => (error.kind, error.line)) =
    first.map fun error => (error.kind, error.line)

theorem SameStop.report {first second : Interruption} (same : SameStop first second) :
    SameReport first.report second.report := by
  obtain ⟨kinds, lines⟩ := same
  unfold SameKind at kinds
  unfold SameReport Interruption.report
  rw [lines]
  -- a report of one kind cannot match one of the other, so two cases of four are left
  cases isFirst : first.cause with
  | excess e =>
    cases isSecond : second.cause with
    | excess e' =>
      rw [isFirst, isSecond] at kinds
      exact congrArg Rejection.excess (Rejection.excess.inj kinds)
    | wrong problem =>
      rw [isFirst, isSecond] at kinds
      cases kinds
  | wrong problem =>
    cases isSecond : second.cause with
    | excess e =>
      rw [isFirst, isSecond] at kinds
      cases kinds
    | wrong problem' =>
      rw [isFirst, isSecond] at kinds
      have kind : problem'.kind = problem.kind := Rejection.wrong.inj kinds
      show Rejection.wrong (problem'.kind, _) = Rejection.wrong (problem.kind, _)
      rw [kind]

/-- Layouts that are alike give the same program up to the names of the labels. -/
theorem RenamedLayout.program {rename : List Char → List Char} {names : Set (List Char)}
    {first second : Layout} (renamed : RenamedLayout rename names first second) :
    Program.ofLayout second = (Program.ofLayout first).rename rename := by
  have extent : second.extent = first.extent := by
    rw [extent, renamed.emitted, List.foldl_map]
    rfl
  have owner? : second.owner? = first.owner? := funext renamed.owner?
  -- a name has the same placeholder as any other
  have byteAt : second.byteAt = first.byteAt := by
    funext address
    rw [Layout.byteAt, Layout.byteAt, renamed.patches, renamed.emission?]
    cases first.patches.lookup address with
    | some value => rfl
    | none =>
      cases first.emission? address with
      | none => rfl
      | some emission =>
        obtain ⟨_, cell, _⟩ := emission
        cases cell <;> rfl
  rw [Program.ofLayout, extent, byteAt, owner?, renamed.symbols]
  rfl

/-- **Labels are only names.** Two sources whose lines have the same parts, up to a renaming that
keeps different labels different, assemble to the same code with the same line map, and to the same
symbols up to the renaming; or both are rejected at the same line for the same kind of problem. -/
theorem assembleText_renamed {limit : DigitLimit} {rename : List Char → List Char}
    {source source' : List Char} (renames : Renames rename (usedLabels source))
    (renamed : List.Forall₂ (RenamedLine rename) (start source).lines (start source').lines) :
    Matched SameReport (fun program program' => program' = program.rename rename)
      (assembleText limit source) (assembleText limit source') := by
  have lines : List.Forall₂ (fun raw raw' => RenamedLine rename (Line.parse raw) (Line.parse raw'))
      (splitLines source) (splitLines source') :=
    List.forall₂_map_right_iff.1 (List.forall₂_map_left_iff.1 renamed)
  have used : ∀ raw ∈ splitLines source, ∀ name, (Line.parse raw).Uses name →
      name ∈ usedLabels source :=
    fun raw mem name uses => ⟨Line.parse raw, List.mem_map_of_mem mem, uses⟩
  have alike : RenamedLayout rename (usedLabels source) (start source) (start source') :=
    { cursor := rfl, symbols := rfl, emitted := rfl, patches := rfl, known := nofun }
  have laidOut : Matched SameStop (RenamedLayout rename (usedLabels source))
      (ofSource limit source) (ofSource limit source') := by
    refine (addLines_renamed 1 renames used lines alike).bind fun laid laid' isLaid layouts => ?_
    rw [layouts.references]
    refine patch_renamed renames.distinct (fun ⟨address, label⟩ isReference => ?_) layouts
    -- a reference in the record was written by a line with such an operand
    have run := addLines_ok_iff.1 isLaid
    obtain ⟨emission, mem, -, isCell⟩ := mem_references_iff.1 isReference
    have writes := (mem_emitted_iff run).1 mem
    rw [isCell] at writes
    obtain ⟨line, isLine, refers⟩ := (exists_writes_reference_iff run).1 ⟨_, writes⟩
    obtain ⟨front, back, split, -⟩ := mem_numberedLines_iff.1 isLine
    obtain ⟨statement, -, operand, -, mentions⟩ := id refers
    exact ⟨line, by simp [split], mentions.1, .inr refers⟩
  rw [assembleText, assembleText]
  generalize ofSource limit source = result at laidOut ⊢
  generalize ofSource limit source' = result' at laidOut ⊢
  cases laidOut with
  | ok layouts => exact .ok layouts.program
  | error stops => exact .error stops.report

/-- Two labels that are swapped, in sources that are written differently. -/
theorem assembleText_renamed_of_swap :
    ∃ rename source source' program, Renames rename (usedLabels source) ∧
      List.Forall₂ (RenamedLine rename) (start source).lines (start source').lines ∧
      assembleText (some digitLimit) source = .ok program ∧ program.rename rename ≠ program ∧
      Matched SameReport (fun program program' => program' = program.rename rename)
        (assembleText (some digitLimit) source) (assembleText (some digitLimit) source') := by
  let a := "a".toList
  let loop := "loop".toList
  let rename : List Char → List Char := Equiv.swap a loop
  let source := "a: DB 5, loop\nloop: PUSH [ a ]".toList
  let source' := "loop : db 5,a ; data\na: push [loop]".toList
  let program : Program :=
    { code := [5, 2, 46, 0]
      lines := [(0, 1), (1, 1), (2, 2), (3, 2)]
      symbols := [(a, 0), (loop, 2)] }
  -- the renaming exchanges the two labels and moves nothing else
  have isA : rename a = loop := Equiv.swap_apply_left a loop
  have isLoop : rename loop = a := Equiv.swap_apply_right a loop
  have renames : Renames rename (usedLabels source) := by
    -- it is injective everywhere, and sends labels to labels
    refine ⟨fun name ⟨_, _, isLabel, _⟩ => ?_, (Equiv.injective _).injOn⟩
    by_cases first : name = a
    · rw [first, isA]
      decide
    by_cases second : name = loop
    · rw [second, isLoop]
      decide
    · show Operand.isLabel (Equiv.swap a loop name) = true
      rw [Equiv.swap_apply_of_ne_of_ne first second]
      exact isLabel
  -- the lines differ in the names, and in blanks, case and comments besides
  have lines : List.Forall₂ (RenamedLine rename) (start source).lines (start source').lines := by
    have isFirst : (start source).lines =
        [⟨"a: DB 5, loop".toList, some a, some ⟨"DB".toList, ["5".toList, loop]⟩⟩,
          ⟨"loop: PUSH [ a ]".toList, some loop, some ⟨"PUSH".toList, ["[ a ]".toList]⟩⟩] := by
      decide +kernel
    have isSecond : (start source').lines =
        [⟨"loop : db 5,a ; data".toList, some (rename a),
            some ⟨"DB".toList, ["5".toList, rename loop]⟩⟩,
          ⟨"a: push [loop]".toList, some (rename loop),
            some ⟨"PUSH".toList, ["[loop]".toList]⟩⟩] := by
      rw [isA, isLoop]
      decide +kernel
    have data : RenamedOperand rename loop (rename loop) := .label (by decide)
    -- the name inside of the brackets is renamed, and the blanks around it go
    have inside : trim loop = rename (trim " a ".toList) := by
      rw [show trim " a ".toList = a by decide, isA]
      decide
    have memory : RenamedOperand rename "[ a ]".toList "[loop]".toList :=
      .bracketed (by decide) inside
    rw [isFirst, isSecond]
    have number : RenamedOperand rename "5".toList "5".toList :=
      .other (Operand.not_mentions rfl (by decide))
    refine .cons ⟨rfl, .some ⟨rfl, .cons number (.cons data .nil)⟩⟩ (.cons ?_ .nil)
    exact ⟨rfl, .some ⟨rfl, .cons memory .nil⟩⟩
  refine ⟨rename, source, source', program, renames, lines, by decide +kernel, ?_,
    assembleText_renamed renames lines⟩
  decide

end EightBit
