import EightBit.Assembly.Program
import EightBit.Proofs.Numeral.ReadBack
import Mathlib.Data.List.Basic
import Mathlib.Order.MinMax

/-!
# What the Two Passes Do

Each step of an assembly succeeds under a condition that can be told beforehand, and then leads to a
layout that can be written down. All later statements about assembling rest on these equations and
unfold no step again.

## Main Definitions

- `placed`, `Layout.write`: the cells of a statement at consecutive addresses.
- `Layout.resolved`: the byte that a reference stands for.

## Main Statements

- `emit_ok_iff`, `perform_ok_iff`, `define_ok_iff`, `addLine_ok_iff`: the first pass, step by step.
- `patch_ok_iff`: the second pass.
- `ofSource_ok_iff`: both passes.
- `assemble_ok_iff`: the program that comes of them.
- `emission?_write`: what is found at an address after cells were written.
-/

namespace EightBit

/-- The label that a cell names. -/
def Cell.label? : Cell → Option (List Char)
  | .byte _ => none
  | .reference label => some label

theorem Cell.label?_eq_some_iff {cell : Cell} {label : List Char} :
    cell.label? = some label ↔ cell = .reference label := by
  cases cell <;> simp [Cell.label?]

namespace Layout

/-! ## Writing cells -/

/-- Cells at consecutive addresses. -/
def placed (number start : Nat) : List Cell → List Emission
  | [] => []
  | cell :: cells => ⟨start, cell, number⟩ :: placed number (start + 1) cells

/-- The cells all go below the display region. -/
def Fits (layout : Layout) (cells : List Cell) : Prop :=
  cells = [] ∨ layout.cursor + cells.length ≤ programLimit

/-- The layout after cells were written at the cursor. -/
def write (number : Nat) (cells : List Cell) (layout : Layout) : Layout :=
  { layout with
    emitted := (placed number layout.cursor cells).reverse ++ layout.emitted
    cursor := layout.cursor + cells.length }

theorem write_cons (number : Nat) (cell : Cell) (cells : List Cell) (layout : Layout) :
    write number (cell :: cells) layout =
      write number cells { layout with
        emitted := ⟨layout.cursor, cell, number⟩ :: layout.emitted
        cursor := layout.cursor + 1 } := by
  have length : layout.cursor + (cells.length + 1) = layout.cursor + 1 + cells.length := by omega
  simp [write, placed, length]

/-- Cells that fit are written. -/
theorem emit_of_fits (number : Nat) {cells : List Cell} {layout : Layout}
    (fits : layout.Fits cells) : emit number cells layout = .ok (write number cells layout) := by
  induction cells generalizing layout with
  | nil => rfl
  | cons cell cells ih =>
    have room : layout.cursor + (cells.length + 1) ≤ programLimit := by
      rcases fits with none | room
      · cases none
      · exact room
    -- one cell less is to come, and the cursor is one further
    rw [emit, if_pos (by omega), write_cons]
    exact ih (.inr (by show layout.cursor + 1 + cells.length ≤ _; omega))

/-- Cells that do not fit are reported. -/
theorem emit_of_not_fits (number : Nat) {cells : List Cell} {layout : Layout}
    (long : ¬layout.Fits cells) :
    ∃ address after, emit number cells layout =
      .error ⟨.wrong (.codeTooHigh address), number, after⟩ := by
  induction cells generalizing layout with
  | nil => exact absurd (.inl rfl) long
  | cons cell cells ih =>
    rw [emit]
    split
    -- this cell fits, so it is one behind it that does not
    · next room =>
      refine ih fun fits => long (.inr ?_)
      rcases fits with rfl | room'
      · exact room
      · have : layout.cursor + 1 + cells.length ≤ programLimit := room'
        rw [List.length_cons]
        omega
    · exact ⟨_, _, rfl⟩

theorem emit_ok_iff {number : Nat} {cells : List Cell} {layout after : Layout} :
    emit number cells layout = .ok after ↔
      layout.Fits cells ∧ after = write number cells layout := by
  constructor
  · intro ok
    by_cases fits : layout.Fits cells
    · rw [emit_of_fits number fits] at ok
      exact ⟨fits, (Except.ok.inj ok).symm⟩
    · obtain ⟨_, _, error⟩ := emit_of_not_fits number fits
      rw [error] at ok
      cases ok
  · rintro ⟨fits, rfl⟩
    exact emit_of_fits number fits

/-! ## Effects of statements -/

/-- Only `ORG` moves the cursor, and its operand is a number. -/
theorem exists_of_moveTo {limit : DigitLimit} {statement : Source.Statement} {address : Nat}
    (moves : Effect.ofStatement limit statement = .moveTo address) :
    statement.mnemonic = "ORG".toList ∧ ∃ operand, statement.operands = [operand] ∧
      ∃ value, Operand.number limit operand = .ok (some value) ∧ 0 ≤ value ∧ value ≤ 255 ∧
        address = value.toNat := by
  unfold Effect.ofStatement Effect.ofData Effect.ofInstr at moves
  split at moves
  · next isOrg =>
    refine ⟨isOrg, ?_⟩
    rw [Effect.ofOrigin.eq_def] at moves
    split at moves
    -- one operand, which has to be a number in range
    · next operand single =>
      split at moves
      · next target isOrigin =>
        cases moves
        obtain ⟨value, isNumber, isOrigin⟩ := bind_ok_iff.1 isOrigin
        cases value with
        | none => cases isOrigin
        | some value =>
          simp only at isOrigin
          split at isOrigin
          · next range =>
            cases isOrigin
            exact ⟨operand, single, value, isNumber, range.1, range.2, rfl⟩
          · obtain ⟨_, -, rejected⟩ := bind_ok_iff.1 isOrigin
            cases rejected
      · cases moves
    · cases moves
  -- data and instructions never move the cursor
  · split at moves
    · split at moves <;> cases moves
    · split at moves <;> cases moves

/-- Cells are written by `DB`, and by instructions. -/
theorem emits_iff {limit : DigitLimit} {statement : Source.Statement} {cells : List Cell} :
    Effect.ofStatement limit statement = .emit cells none ↔
      statement.mnemonic = "DB".toList ∧ statement.operands ≠ [] ∧
          Effect.dataCells limit statement.operands = (cells, none) ∨
        (statement.mnemonic ≠ "ORG".toList ∧ statement.mnemonic ≠ "DB".toList) ∧
          Effect.instrCells limit statement.mnemonic statement.operands = .ok cells := by
  constructor
  · intro emits
    unfold Effect.ofStatement at emits
    split at emits
    -- `ORG` writes nothing
    · exfalso
      rw [Effect.ofOrigin.eq_def] at emits
      split at emits
      · split at emits <;> cases emits
      · cases emits
    · next notOrg =>
      split at emits
      · next isData =>
        left
        rw [Effect.ofData] at emits
        split at emits
        · cases emits
        · next nonempty =>
          obtain ⟨same, noFailure⟩ := Effect.emit.inj emits
          exact ⟨isData, by simpa using nonempty, Prod.ext same noFailure⟩
      · next notData =>
        right
        rw [Effect.ofInstr] at emits
        split at emits
        · next ok =>
          cases emits
          exact ⟨⟨notOrg, notData⟩, ok⟩
        · cases emits
  · rintro (⟨isData, nonempty, ok⟩ | ⟨⟨notOrg, notData⟩, ok⟩)
    · have notOrg : statement.mnemonic ≠ "ORG".toList := by
        rw [isData]
        decide
      rw [Effect.ofStatement, if_neg notOrg, if_pos isData, Effect.ofData,
        if_neg (by simpa using nonempty), ok]
    · rw [Effect.ofStatement, if_neg notOrg, if_neg notData, Effect.ofInstr, ok]

/-! ## Statements and lines -/

/-- The layout after a statement wrote its cells. -/
def writeSegment (number : Nat) (cells : List Cell) (layout : Layout) : Layout :=
  { write number cells layout with
    segments := ⟨number, layout.cursor, layout.cursor + cells.length⟩ :: layout.segments }

/-- What a statement without mistakes does. -/
def Performed (number : Nat) (effect : Effect) (layout after : Layout) : Prop :=
  (∃ address, effect = .moveTo address ∧ after = { layout with cursor := address }) ∨
    ∃ cells, effect = .emit cells none ∧ layout.Fits cells ∧
      after = writeSegment number cells layout

/-- **A statement succeeds if it moves the cursor, or if its cells fit and nothing is wrong.** -/
theorem perform_ok_iff {number : Nat} {effect : Effect} {layout after : Layout} :
    perform number effect layout = .ok after ↔ Performed number effect layout after := by
  cases effect with
  | moveTo address =>
    constructor
    · intro ok
      exact .inl ⟨address, rfl, (Except.ok.inj ok).symm⟩
    · rintro (⟨_, same, rfl⟩ | ⟨_, other, -⟩)
      · cases same
        rfl
      · cases other
  | emit cells failure =>
    constructor
    · intro ok
      obtain ⟨written, emitted, ok⟩ := bind_ok_iff.1 ok
      obtain ⟨fits, rfl⟩ := emit_ok_iff.1 emitted
      -- a mistake behind the cells is reported after they are written
      cases failure with
      | some cause => cases ok
      | none => exact .inr ⟨cells, rfl, fits, (Except.ok.inj ok).symm⟩
    · rintro (⟨_, other, -⟩ | ⟨_, same, fits, rfl⟩)
      · cases other
      · cases same
        rw [perform, emit_of_fits number fits]
        rfl

/-- **A label is defined if it is one and is new.** -/
theorem define_ok_iff {number : Nat} {name : List Char} {layout after : Layout} :
    define number name layout = .ok after ↔
      Operand.isLabel name = true ∧ layout.symbols.lookup name = none ∧
        after = { layout with symbols := layout.symbols ++ [(name, layout.cursor)] } := by
  -- the checks of the definition, in its order
  unfold define
  split
  · next notLabel =>
    simp only [Bool.not_eq_true'] at notLabel
    simp [notLabel]
  · next isLabel =>
    simp only [Bool.not_eq_true', Bool.not_eq_false] at isLabel
    split
    · next known =>
      simp only [Option.isSome_iff_ne_none] at known
      simp [known]
    · next new =>
      simp only [Option.isSome_iff_ne_none, not_not] at new
      simp [isLabel, new, eq_comm]

/-- A line is its label and then its statement. -/
theorem addLine_eq (limit : DigitLimit) (number : Nat) (line : Source.Line) (layout : Layout) :
    addLine limit number line layout =
      (match line.label with
        | some name => define number name layout
        | none => .ok layout) >>= fun labelled =>
      match line.statement with
      | some statement => perform number (Effect.ofStatement limit statement) labelled
      | none => .ok labelled := by
  unfold addLine
  cases line.label <;> rfl

/-- The layout behind the label of a line. -/
def Labelled (line : Source.Line) (layout labelled : Layout) : Prop :=
  match line.label with
  | some name => Operand.isLabel name = true ∧ layout.symbols.lookup name = none ∧
      labelled = { layout with symbols := layout.symbols ++ [(name, layout.cursor)] }
  | none => labelled = layout

/-- A label is a new one, and adds a symbol for the cursor. -/
theorem labelled_iff {line : Source.Line} {layout labelled : Layout} :
    Labelled line layout labelled ↔
      (∀ name ∈ line.label, Operand.isLabel name = true ∧ layout.symbols.lookup name = none) ∧
        labelled = { layout with
          symbols := layout.symbols ++ (line.label.map fun name => (name, layout.cursor)).toList } := by
  rw [Labelled]
  cases line.label with
  | none => simp
  | some name => simp [and_assoc]

/-- A label changes nothing else. -/
theorem Labelled.eq {line : Source.Line} {layout labelled : Layout}
    (isLabelled : Labelled line layout labelled) :
    labelled = { layout with
      symbols := layout.symbols ++ (line.label.map fun name => (name, layout.cursor)).toList } :=
  (labelled_iff.1 isLabelled).2

/-- A label leaves the cursor where it is. -/
theorem Labelled.cursor {line : Source.Line} {layout labelled : Layout}
    (isLabelled : Labelled line layout labelled) : labelled.cursor = layout.cursor := by
  rw [isLabelled.eq]

/-- What a line without mistakes does. -/
def Added (limit : DigitLimit) (number : Nat) (line : Source.Line) (layout after : Layout) : Prop :=
  ∃ labelled, Labelled line layout labelled ∧
    match line.statement with
    | some statement => Performed number (Effect.ofStatement limit statement) labelled after
    | none => after = labelled

/-- **All that a line can do** behind its label: it does nothing, moves the cursor, or writes cells that fit. -/
theorem Added.effect_cases {limit : DigitLimit} {number : Nat} {line : Source.Line}
    {layout after : Layout} (added : Added limit number line layout after) :
    ∃ labelled, Labelled line layout labelled ∧
      ((line.statement = none ∧ after = labelled) ∨
        (∃ statement address, line.statement = some statement ∧
          Effect.ofStatement limit statement = .moveTo address ∧
          after = { labelled with cursor := address }) ∨
        ∃ statement cells, line.statement = some statement ∧
          Effect.ofStatement limit statement = .emit cells none ∧ labelled.Fits cells ∧
          after = writeSegment number cells labelled) := by
  obtain ⟨labelled, isLabelled, performed⟩ := added
  refine ⟨labelled, isLabelled, ?_⟩
  cases isStatement : line.statement with
  | none =>
    simp only [isStatement] at performed
    exact .inl ⟨rfl, performed⟩
  | some statement =>
    simp only [isStatement] at performed
    obtain ⟨address, moves, same⟩ | ⟨cells, emits, fits, same⟩ := performed
    · exact .inr (.inl ⟨statement, address, rfl, moves, same⟩)
    · exact .inr (.inr ⟨statement, cells, rfl, emits, fits, same⟩)

/-- **A line succeeds if its label and then its statement do.** -/
theorem addLine_ok_iff {limit : DigitLimit} {number : Nat} {line : Source.Line}
    {layout after : Layout} :
    addLine limit number line layout = .ok after ↔ Added limit number line layout after := by
  -- the statement comes to the same behind a label and without one
  have statement : ∀ labelled, (match line.statement with
      | some statement => perform number (Effect.ofStatement limit statement) labelled
      | none => (.ok labelled : Except Interruption Layout)) = .ok after ↔
        match line.statement with
        | some statement => Performed number (Effect.ofStatement limit statement) labelled after
        | none => after = labelled := by
    intro labelled
    cases line.statement with
    | some statement => exact perform_ok_iff
    | none => exact ⟨fun ok => (Except.ok.inj ok).symm, fun same => by rw [same]⟩
  unfold Added Labelled
  cases name : line.label with
  | some name =>
    rw [addLine]
    simp only [name]
    refine bind_ok_iff.trans (exists_congr fun labelled => ?_)
    exact and_congr define_ok_iff (statement labelled)
  | none =>
    rw [addLine]
    simp only [name]
    refine bind_ok_iff.trans (exists_congr fun labelled => ?_)
    exact and_congr ⟨fun ok => (Except.ok.inj ok).symm, fun same => by rw [same]⟩
      (statement labelled)

/-- What lines without mistakes do, one after the other. -/
def AddedLines (limit : DigitLimit) : Nat → List Source.Line → Layout → Layout → Prop
  | _, [], layout, after => after = layout
  | number, line :: rest, layout, after =>
    ∃ middle, Added limit number line layout middle ∧
      AddedLines limit (number + 1) rest middle after

theorem addLines_ok_iff {limit : DigitLimit} {number : Nat} {lines : List Source.Line}
    {layout after : Layout} :
    addLines limit number lines layout = .ok after ↔
      AddedLines limit number lines layout after := by
  induction lines generalizing number layout with
  | nil => exact ⟨fun ok => (Except.ok.inj ok).symm, fun same => by rw [same]; rfl⟩
  | cons line rest ih =>
    rw [addLines, AddedLines]
    exact bind_ok_iff.trans (exists_congr fun middle => and_congr addLine_ok_iff ih)

/-- What is in front decides what comes of a line. -/
theorem Added.unique {limit : DigitLimit} {number : Nat} {line : Source.Line}
    {layout after other : Layout} (first : Added limit number line layout after)
    (second : Added limit number line layout other) : after = other := by
  have ok := addLine_ok_iff.2 first
  rw [addLine_ok_iff.2 second] at ok
  exact (Except.ok.inj ok).symm

theorem AddedLines.unique {limit : DigitLimit} {number : Nat} {lines : List Source.Line}
    {layout after other : Layout} (first : AddedLines limit number lines layout after)
    (second : AddedLines limit number lines layout other) : after = other := by
  have ok := addLines_ok_iff.2 first
  rw [addLines_ok_iff.2 second] at ok
  exact (Except.ok.inj ok).symm

/-! ## References -/

/-- The byte that a reference stands for. -/
def resolved (symbols : List (List Char × Nat)) (reference : Nat × List Char) : Nat × UInt8 :=
  (reference.1, UInt8.ofNat ((symbols.lookup reference.2).getD 0))

/-- **The second pass succeeds if every reference has a label**, and then patches each of them. -/
theorem patch_ok_iff {references : List (Nat × List Char)} {layout after : Layout} :
    patch references layout = .ok after ↔
      (∀ reference ∈ references, (layout.symbols.lookup reference.2).isSome) ∧
        after = { layout with
          patches := (references.map (resolved layout.symbols)).reverse ++ layout.patches } := by
  -- the references are patched one after the other, each against the same symbols
  induction references generalizing layout with
  | nil =>
    simp only [patch, List.not_mem_nil, false_implies, implies_true, true_and, List.map_nil,
      List.reverse_nil, List.nil_append]
    exact ⟨fun ok => (Except.ok.inj ok).symm, fun same => by rw [same]⟩
  | cons reference rest ih =>
    obtain ⟨address, label⟩ := reference
    rw [patch]
    cases known : layout.symbols.lookup label with
    | none =>
      -- one label that is not known ends the pass
      simp only [List.forall_mem_cons, known, Option.isSome_none, Bool.false_eq_true, false_and,
        iff_false]
      exact nofun
    | some target =>
      simp only [ih, List.forall_mem_cons, known, Option.isSome_some, true_and, List.map_cons,
        resolved, Option.getD_some, List.reverse_cons, List.append_assoc, List.singleton_append]

/-- The layout after the second pass, if every reference has a label. -/
def patched (layout : Layout) : Layout :=
  { layout with
    patches := (layout.references.map (resolved layout.symbols)).reverse ++ layout.patches }

/-- **Both passes succeed** if the lines do and every reference has a label. -/
theorem ofSource_ok_iff {limit : DigitLimit} {source : List Char} {final : Layout} :
    ofSource limit source = .ok final ↔
      ∃ laid, AddedLines limit 1 (start source).lines (start source) laid ∧
        (∀ reference ∈ laid.references, (laid.symbols.lookup reference.2).isSome) ∧
        final = laid.patched := by
  rw [ofSource]
  exact bind_ok_iff.trans (exists_congr fun laid => and_congr addLines_ok_iff patch_ok_iff)

/-! ## What was written where -/

/-- The cell at an address, if cells stand there from `start` on. -/
def cellAt (start : Nat) (cells : List Cell) (address : Nat) : Option Cell :=
  if start ≤ address then cells[address - start]? else none

theorem cellAt_nil (start address : Nat) : cellAt start [] address = none := by
  simp [cellAt]

theorem cellAt_cons (start : Nat) (cell : Cell) (cells : List Cell) (address : Nat) :
    cellAt start (cell :: cells) address =
      if start = address then some cell else cellAt (start + 1) cells address := by
  unfold cellAt
  by_cases here : start = address
  · simp [here]
  · by_cases before : start ≤ address
    · have next : address - start = address - (start + 1) + 1 := by omega
      rw [if_pos before, if_neg here, if_pos (by omega), next, List.getElem?_cons_succ]
    · rw [if_neg before, if_neg here, if_neg (by omega)]

theorem cellAt_eq_some_iff {start : Nat} {cells : List Cell} {address : Nat} {cell : Cell} :
    cellAt start cells address = some cell ↔ start ≤ address ∧ cells[address - start]? = some cell := by
  unfold cellAt
  split
  · next le => simp [le]
  · next lt => simp [lt]

/-- **The newest cells hide what was written before.** -/
theorem emission?_write (number : Nat) (cells : List Cell) (layout : Layout) (address : Nat) :
    (write number cells layout).emission? address =
      ((cellAt layout.cursor cells address).map fun cell => ⟨address, cell, number⟩).or
        (layout.emission? address) := by
  induction cells generalizing layout with
  | nil =>
    rw [cellAt_nil]
    rfl
  | cons cell cells ih =>
    rw [write_cons, ih, cellAt_cons, emission?, List.find?_cons]
    by_cases here : layout.cursor = address
    -- the cells behind the first one are higher, so the first one is found
    · have after : cellAt (layout.cursor + 1) cells address = none := by
        rw [cellAt, if_neg (by omega)]
      have found : (layout.cursor == address) = true := by simp [here]
      rw [after, if_pos here, found]
      simp [here]
    · have passed : (layout.cursor == address) = false := by simp [here]
      rw [if_neg here, passed]
      rfl

theorem mem_of_emission? {layout : Layout} {address : Nat} {emission : Emission}
    (found : layout.emission? address = some emission) :
    emission ∈ layout.emitted ∧ emission.address = address := by
  refine ⟨List.mem_of_find?_eq_some found, ?_⟩
  simpa using List.find?_some found

theorem isSome_emission?_of_mem {layout : Layout} {emission : Emission}
    (mem : emission ∈ layout.emitted) : (layout.emission? emission.address).isSome := by
  rw [emission?, List.find?_isSome]
  exact ⟨emission, mem, by simp⟩

/-- An address is below the extent if something was written there or above. -/
theorem lt_extent_iff {layout : Layout} {address : Nat} :
    address < layout.extent ↔ ∃ emission ∈ layout.emitted, address ≤ emission.address := by
  -- the bound grows on the way, so the induction is for every bound
  have general : ∀ (emitted : List Emission) (bound : Nat),
      address < emitted.foldl (fun bound emission => max bound (emission.address + 1)) bound ↔
        address < bound ∨ ∃ emission ∈ emitted, address ≤ emission.address := by
    intro emitted
    induction emitted with
    | nil => simp
    | cons emission rest ih =>
      intro bound
      rw [List.foldl_cons, ih, List.exists_mem_cons_iff, lt_max_iff, Nat.lt_succ_iff, or_assoc]
  rw [extent, general]
  simp

/-! ## Runs -/

/-- **What every step keeps, a run keeps.** The three steps are a label, a moved cursor and cells
that are written; the last two belong to the statement of a line and its number. -/
theorem AddedLines.keeps {P : Layout → Prop} {limit : DigitLimit} {number : Nat}
    {lines : List Source.Line} {layout after : Layout}
    (run : AddedLines limit number lines layout after)
    (defined : ∀ layout name, Operand.isLabel name = true → layout.symbols.lookup name = none →
      P layout → P { layout with symbols := layout.symbols ++ [(name, layout.cursor)] })
    (moved : ∀ layout statement address, Effect.ofStatement limit statement = .moveTo address →
      P layout → P { layout with cursor := address })
    (wrote : ∀ layout n line statement cells, (line, n) ∈ lines.zipIdx number →
      line.statement = some statement → Effect.ofStatement limit statement = .emit cells none →
      layout.Fits cells → P layout → P (writeSegment n cells layout))
    (start : P layout) : P after := by
  -- the start of the run varies; the label comes before the statement of each line
  induction lines generalizing number layout with
  | nil =>
    have same : after = layout := run
    rwa [same]
  | cons line rest ih =>
    obtain ⟨middle, added, later⟩ := run
    obtain ⟨labelled, isLabelled, effect⟩ := added.effect_cases
    have behindLabel : P labelled := by
      obtain ⟨checked, rfl⟩ := labelled_iff.1 isLabelled
      cases named : line.label with
      | none => simpa using start
      | some name =>
        obtain ⟨isLabel, new⟩ := checked name named
        exact defined layout name isLabel new start
    have behindLine : P middle := by
      obtain ⟨-, rfl⟩ | ⟨statement, address, -, moves, rfl⟩ |
        ⟨statement, cells, isStatement, emits, fits, rfl⟩ := effect
      · exact behindLabel
      · exact moved labelled statement address moves behindLabel
      · exact wrote labelled number line statement cells (by simp) isStatement emits fits behindLabel
    refine ih later (fun layout n line statement cells mem => ?_) behindLine
    refine wrote layout n line statement cells ?_
    rw [List.zipIdx_cons]
    exact List.mem_cons_of_mem _ mem

/-- `ORG` moves the cursor to an address of memory. -/
theorem moveTo_le {limit : DigitLimit} {statement : Source.Statement} {address : Nat}
    (moves : Effect.ofStatement limit statement = .moveTo address) : address ≤ 255 := by
  obtain ⟨-, operand, -, value, -, low, high, rfl⟩ := exists_of_moveTo moves
  omega

/-- The cursor and all labels are addresses of memory. -/
structure InMemory (layout : Layout) : Prop where
  cursor : layout.cursor ≤ 255
  symbols : ∀ entry ∈ layout.symbols, entry.2 ≤ 255

theorem le_of_lookup {symbols : List (List Char × Nat)} (small : ∀ entry ∈ symbols, entry.2 ≤ 255)
    {name : List Char} {target : Nat} (known : symbols.lookup name = some target) :
    target ≤ 255 := by
  obtain ⟨before, after, listed, -⟩ := List.lookup_eq_some_iff.1 known
  exact small (name, target) (by simp [listed])

theorem inMemory_of_added {limit : DigitLimit} {number : Nat} {lines : List Source.Line}
    {layout after : Layout} (run : AddedLines limit number lines layout after)
    (inMemory : InMemory layout) : InMemory after := by
  refine run.keeps ?_ ?_ ?_ inMemory
  · intro layout name _ _ ih
    refine ⟨ih.cursor, fun entry mem => ?_⟩
    rcases List.mem_append.1 mem with old | new
    · exact ih.symbols entry old
    · rw [List.mem_singleton.1 new]
      exact ih.cursor
  · intro layout statement address moves ih
    exact ⟨moveTo_le moves, ih.symbols⟩
  · intro layout n line statement cells _ _ _ fits ih
    refine ⟨?_, ih.symbols⟩
    show layout.cursor + cells.length ≤ 255
    -- cells that fit end below the display region
    have limits : programLimit = 192 := by decide
    rcases fits with rfl | room
    · exact ih.cursor
    · omega

/-! ## References and their patches -/

/-- The label that the newest reference at an address names. -/
def reference? (layout : Layout) (address : Nat) : Option (List Char) :=
  layout.emitted.findSome? fun emission =>
    if emission.address = address then emission.cell.label? else none

theorem mem_references_iff {layout : Layout} {address : Nat} {label : List Char} :
    (address, label) ∈ layout.references ↔
      ∃ emission ∈ layout.emitted, emission.address = address ∧ emission.cell = .reference label := by
  rw [references, List.mem_filterMap]
  refine exists_congr fun emission => ?_
  rw [List.mem_reverse]
  refine and_congr_right fun _ => ?_
  cases emission.cell with
  | byte value => simp
  | reference other => simp

theorem mem_references_of_reference? {layout : Layout} {address : Nat} {label : List Char}
    (found : layout.reference? address = some label) : (address, label) ∈ layout.references := by
  obtain ⟨emission, mem, isLabel⟩ := List.exists_of_findSome?_eq_some found
  split at isLabel
  · next here =>
    exact mem_references_iff.2 ⟨emission, mem, here, Cell.label?_eq_some_iff.1 isLabel⟩
  · cases isLabel

/-- **What a patched byte is**: the address of the label that the newest reference there names. -/
theorem lookup_patches (layout : Layout) (symbols : List (List Char × Nat)) (address : Nat) :
    ((layout.references.map (resolved symbols)).reverse).lookup address =
      (layout.reference? address).map fun label =>
        UInt8.ofNat ((symbols.lookup label).getD 0) := by
  -- patches are prepended, so both sides look through the record from the newest cell on
  rw [← List.map_reverse, references, ← List.filterMap_reverse, List.reverse_reverse, reference?]
  induction layout.emitted with
  | nil => rfl
  | cons emission rest ih =>
    rw [List.filterMap_cons, List.findSome?_cons]
    cases emission.cell with
    | byte value =>
      rw [Cell.label?, ite_self]
      exact ih
    | reference label =>
      simp only [List.map_cons, resolved, List.lookup_cons, Cell.label?]
      by_cases here : emission.address = address
      · simp [here]
      · have other : (address == emission.address) = false := by
          simpa using fun eq => here eq.symm
        rw [other, if_neg here]
        exact ih

/-- The first pass patches nothing. -/
theorem patches_of_added {limit : DigitLimit} {number : Nat} {lines : List Source.Line}
    {layout after : Layout} (run : AddedLines limit number lines layout after)
    (noPatches : layout.patches = []) : after.patches = [] := by
  refine run.keeps (P := fun other => other.patches = []) ?_ ?_ ?_ noPatches
  · exact fun _ _ _ _ ih => ih
  · exact fun _ _ _ _ ih => ih
  · exact fun _ _ _ _ _ _ _ _ _ ih => ih

/-- **The byte at an address after both passes**: what the newest reference there stands for, else
the newest byte. -/
theorem byteAt_patched {layout : Layout} (noPatches : layout.patches = []) (address : Nat) :
    layout.patched.byteAt address =
      match layout.reference? address with
      | some label => UInt8.ofNat ((layout.symbols.lookup label).getD 0)
      | none => (layout.emission? address).elim 0 fun emission => placeholder emission.cell := by
  rw [byteAt, patched, noPatches, List.append_nil, lookup_patches]
  cases layout.reference? address <;> rfl

/-- The lines of a source stay as they are. -/
theorem lines_of_added {limit : DigitLimit} {number : Nat} {lines : List Source.Line}
    {layout after : Layout} (run : AddedLines limit number lines layout after) :
    after.lines = layout.lines := by
  refine run.keeps (P := fun other => other.lines = layout.lines) ?_ ?_ ?_ rfl
  · exact fun _ _ _ _ ih => ih
  · exact fun _ _ _ _ ih => ih
  · exact fun _ _ _ _ _ _ _ _ _ ih => ih

theorem lines_of_ofSource {limit : DigitLimit} {source : List Char} {final : Layout}
    (ok : ofSource limit source = .ok final) : final.lines = (start source).lines := by
  obtain ⟨laid, run, -, rfl⟩ := ofSource_ok_iff.1 ok
  show laid.lines = _
  exact lines_of_added run

end Layout

/-! ## Programs -/

/-- **A source assembles if both passes succeed**, to the program of the layout they leave. -/
theorem assemble_ok_iff {source : String} {program : Program} :
    assemble source = .ok program ↔
      ∃ final, Layout.ofSource (some digitLimit) source.toList = .ok final ∧
        program = Program.ofLayout final := by
  rw [assemble, assembleText]
  cases Layout.ofSource (some digitLimit) source.toList with
  | ok layout => simp [eq_comm]
  | error stopped => simp

end EightBit
