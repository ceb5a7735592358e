import EightBit.Proofs.Assembly.WellFormed

/-!
# The Record of a List of Lines

What the first pass writes down is decided by the lines and by the address where they start, and so
is whether it gets to the end. The layout that is passed on adds nothing to that except for the labels
that are known already. The record of two lists of lines is therefore the record of the one, and then
that of the other from the address where the first one ends.

Lines are taken together with their numbers, so that a line can be moved and keep its number.

## Main Definitions

- `Source.Line.next`: the cursor behind a line.
- `cursorBehind`, `record`, `definitions`: the cursor behind a list of lines, the cells that they write
  and the labels that they define.
- `cellsOf`: the cells alone.
- `Source.Line.Sound`, `Fitting`: nothing is wrong with a line by itself, and there is room for all
  the cells of a list of lines.

## Main Statements

- `exists_addedLines_iff`: when the first pass gets to the end of a list of lines.
- `exists_ofSource_iff`: when a source assembles.
- `record_of_run`, `definitions_of_run`, `cursor_of_run`: what it has written down then.
- `record_map`: the record of lines with other numbers.
- `address_record`: without `ORG`, the addresses on record follow each other.
- `emission?_eq_some_iff`: where no address is written twice, the record is looked up.
-/

namespace EightBit

open Layout

/-! ## One line -/

/-- The address that a line without mistakes moves the cursor to, if it does. -/
def Source.Line.target? (limit : DigitLimit) (line : Source.Line) : Option Nat :=
  match line.statement.map (Effect.ofStatement limit) with
  | some (.moveTo address) => some address
  | _ => none

/-- The cursor behind a line. -/
def Source.Line.next (limit : DigitLimit) (line : Source.Line) (cursor : Nat) : Nat :=
  (line.target? limit).getD (cursor + (line.cells limit).length)

/-- Nothing is wrong with the line by itself. -/
structure Source.Line.Sound (limit : DigitLimit) (line : Source.Line) : Prop where
  label : ∀ name ∈ line.label, Operand.isLabel name = true
  statement : ∀ statement ∈ line.statement,
    (∃ address, Effect.ofStatement limit statement = .moveTo address) ∨
      ∃ cells, Effect.ofStatement limit statement = .emit cells none

namespace Layout

section Line

variable {limit : DigitLimit} {number : Nat} {line : Source.Line} {layout after : Layout}

/-- A line moves the cursor past what it writes, or to where it says. -/
theorem cursor_eq_next (added : Added limit number line layout after) :
    after.cursor = line.next limit layout.cursor := by
  obtain ⟨labelled, isLabelled, effect⟩ := added.effect_cases
  -- a label does not move the cursor, so the layout behind it may be compared
  rw [Source.Line.next, Source.Line.target?, Source.Line.cells, ← isLabelled.cursor]
  obtain ⟨noStatement, rfl⟩ | ⟨statement, address, isStatement, moves, rfl⟩ |
    ⟨statement, cells, isStatement, emits, -, rfl⟩ := effect
  · rw [noStatement]
    rfl
  · rw [isStatement, Option.map_some, moves]
    rfl
  · rw [isStatement, Option.map_some, emits]
    rfl

/-- Nothing is wrong with a line that was worked off, and its cells have fit. -/
theorem Added.sound (added : Added limit number line layout after) :
    line.Sound limit ∧ layout.Fits (line.cells limit) := by
  obtain ⟨labelled, isLabelled, effect⟩ := added.effect_cases
  -- a label that was defined is one that may be defined
  have label : ∀ name ∈ line.label, Operand.isLabel name = true :=
    fun name named => ((labelled_iff.1 isLabelled).1 name named).1
  rw [Source.Line.cells]
  obtain ⟨noStatement, -⟩ | ⟨statement, address, isStatement, moves, -⟩ |
    ⟨statement, cells, isStatement, emits, fits, -⟩ := effect
  · rw [noStatement]
    exact ⟨⟨label, by simp [noStatement]⟩, .inl rfl⟩
  · rw [isStatement, Option.map_some, moves]
    exact ⟨⟨label, by simpa [isStatement] using .inl ⟨address, moves⟩⟩, .inl rfl⟩
  · rw [isStatement, Option.map_some, emits]
    rw [Fits, isLabelled.cursor] at fits
    exact ⟨⟨label, by simpa [isStatement] using .inr ⟨cells, emits⟩⟩, fits⟩

/-- A line with which nothing is wrong is worked off if its label is new and its cells fit. -/
theorem exists_added_of_sound (sound : line.Sound limit)
    (new : ∀ name ∈ line.label, layout.symbols.lookup name = none)
    (fits : layout.Fits (line.cells limit)) : ∃ after, Added limit number line layout after := by
  -- the label can be defined, and it does not move the cursor
  have isLabelled : Labelled line layout _ :=
    labelled_iff.2 ⟨fun name named => ⟨sound.label name named, new name named⟩, rfl⟩
  unfold Added
  cases isStatement : line.statement with
  | none => exact ⟨_, _, isLabelled, rfl⟩
  | some statement =>
    rw [Source.Line.cells, isStatement, Option.map_some, Fits, ← isLabelled.cursor] at fits
    -- what is left to show is that the statement can be performed there
    rcases sound.statement statement isStatement with ⟨address, moves⟩ | ⟨cells, emits⟩
    · exact ⟨_, _, isLabelled, .inl ⟨address, moves, rfl⟩⟩
    · rw [emits] at fits
      exact ⟨_, _, isLabelled, .inr ⟨cells, emits, fits, rfl⟩⟩

/-- **A line is worked off** if nothing is wrong with it, its label is new, and its cells fit. -/
theorem exists_added_iff :
    (∃ after, Added limit number line layout after) ↔
      line.Sound limit ∧ (∀ name ∈ line.label, layout.symbols.lookup name = none) ∧
        layout.Fits (line.cells limit) := by
  constructor
  · rintro ⟨after, added⟩
    exact ⟨added.sound.1, (symbols_of_added added).1, added.sound.2⟩
  · rintro ⟨sound, new, fits⟩
    exact exists_added_of_sound sound new fits

end Line

/-! ## Lists of lines -/

/-- The cursor behind lines that start at an address. -/
def cursorBehind (limit : DigitLimit) (lines : List Source.Line) (cursor : Nat) : Nat :=
  lines.foldl (fun cursor line => line.next limit cursor) cursor

/-- The cells that lines with numbers write from an address on, in order. -/
def record (limit : DigitLimit) : List (Source.Line × Nat) → Nat → List Emission
  | [], _ => []
  | (line, number) :: rest, cursor =>
    placed number cursor (line.cells limit) ++ record limit rest (line.next limit cursor)

/-- The cells that lines write. -/
def cellsOf (limit : DigitLimit) (lines : List Source.Line) : List Cell :=
  lines.flatMap (Source.Line.cells limit)

/-- The labels that lines define from an address on, in order. -/
def definitions (limit : DigitLimit) : List Source.Line → Nat → List (List Char × Nat)
  | [], _ => []
  | line :: rest, cursor =>
    (line.label.map fun name => (name, cursor)).toList ++
      definitions limit rest (line.next limit cursor)

/-- Nothing is wrong with any of the lines, and all their cells fit from an address on. -/
def Fitting (limit : DigitLimit) : List Source.Line → Nat → Prop
  | [], _ => True
  | line :: rest, cursor =>
    line.Sound limit ∧ (line.cells limit = [] ∨ cursor + (line.cells limit).length ≤ programLimit) ∧
      Fitting limit rest (line.next limit cursor)

/-- The emission with another line number. -/
def renumber (f : Nat → Nat) (emission : Emission) : Emission :=
  { emission with line := f emission.line }

section Append

variable (limit : DigitLimit) (cursor : Nat)

theorem record_append (front back : List (Source.Line × Nat)) :
    record limit (front ++ back) cursor =
      record limit front cursor ++
        record limit back (cursorBehind limit (front.map Prod.fst) cursor) := by
  induction front generalizing cursor with
  | nil => rfl
  | cons entry front ih =>
    obtain ⟨line, number⟩ := entry
    rw [List.cons_append, record, ih, record, List.append_assoc]
    rfl

theorem definitions_append (front back : List Source.Line) :
    definitions limit (front ++ back) cursor =
      definitions limit front cursor ++
        definitions limit back (cursorBehind limit front cursor) := by
  induction front generalizing cursor with
  | nil => rfl
  | cons line front ih =>
    rw [List.cons_append, definitions, ih, definitions, List.append_assoc]
    rfl

theorem fitting_append (front back : List Source.Line) :
    Fitting limit (front ++ back) cursor ↔
      Fitting limit front cursor ∧ Fitting limit back (cursorBehind limit front cursor) := by
  induction front generalizing cursor with
  | nil => exact (true_and _).to_iff.symm
  | cons line front ih =>
    rw [List.cons_append, Fitting, ih, Fitting, and_assoc, and_assoc]
    rfl

/-- **The record of lines with other numbers** is the record with these numbers. -/
theorem record_map (f : Nat → Nat) (lines : List (Source.Line × Nat)) :
    record limit (lines.map (Prod.map id f)) cursor =
      (record limit lines cursor).map (renumber f) := by
  -- within a line all cells have one number
  have renumbered : ∀ (number start : Nat) (cells : List Cell),
      placed (f number) start cells = (placed number start cells).map (renumber f) := by
    intro number start cells
    induction cells generalizing start with
    | nil => rfl
    | cons cell cells ih =>
      rw [placed, ih, placed, List.map_cons]
      rfl
  -- the cursor does not depend on the numbers, so the rest starts at the same one
  induction lines generalizing cursor with
  | nil => rfl
  | cons entry rest ih =>
    obtain ⟨line, number⟩ := entry
    rw [List.map_cons, Prod.map_apply, id, record, ih, renumbered, record, List.map_append]

end Append

/-! ## Lines without origin -/

section NoOrigin

variable {limit : DigitLimit}

theorem target?_of_noOrigin {line : Source.Line} (noOrigin : line.NoOrigin) :
    line.target? limit = none := by
  unfold Source.Line.target?
  split
  · next address effect =>
    obtain ⟨statement, isStatement, moves⟩ := Option.map_eq_some_iff.1 effect
    exact absurd (exists_of_moveTo moves).1 (noOrigin statement isStatement)
  · rfl

theorem next_of_noOrigin {line : Source.Line} (noOrigin : line.NoOrigin) (cursor : Nat) :
    line.next limit cursor = cursor + (line.cells limit).length := by
  rw [Source.Line.next, target?_of_noOrigin noOrigin]
  rfl

theorem cursorBehind_of_noOrigin {lines : List Source.Line}
    (noOrigin : ∀ line ∈ lines, line.NoOrigin) (cursor : Nat) :
    cursorBehind limit lines cursor = cursor + (cellsOf limit lines).length := by
  induction lines generalizing cursor with
  | nil => rfl
  | cons line rest ih =>
    rw [List.forall_mem_cons] at noOrigin
    show cursorBehind limit rest (line.next limit cursor) = _
    rw [ih noOrigin.2, next_of_noOrigin noOrigin.1, cellsOf, cellsOf, List.flatMap_cons,
      List.length_append, Nat.add_assoc]

/-- Every cell of the lines is on record, in order. -/
theorem cell_record (lines : List (Source.Line × Nat)) (cursor : Nat) :
    (record limit lines cursor).map Emission.cell = cellsOf limit (lines.map Prod.fst) := by
  induction lines generalizing cursor with
  | nil => rfl
  | cons entry rest ih =>
    obtain ⟨line, number⟩ := entry
    rw [record, List.map_append, cell_placed, ih]
    rfl

/-- **The addresses of lines without `ORG`** follow each other. -/
theorem address_record {lines : List (Source.Line × Nat)}
    (noOrigin : ∀ entry ∈ lines, entry.1.NoOrigin) (cursor : Nat) :
    (record limit lines cursor).map Emission.address =
      List.range' cursor (cellsOf limit (lines.map Prod.fst)).length := by
  induction lines generalizing cursor with
  | nil => rfl
  | cons entry rest ih =>
    obtain ⟨line, number⟩ := entry
    rw [List.forall_mem_cons] at noOrigin
    rw [record, List.map_append, address_placed, next_of_noOrigin noOrigin.1, ih noOrigin.2,
      List.range'_append_1, List.map_cons, cellsOf, cellsOf, List.flatMap_cons, List.length_append]

end NoOrigin

/-! ## Runs over lists of lines -/

section Run

variable {limit : DigitLimit} {number : Nat} {lines : List Source.Line} {layout after : Layout}

theorem cursor_of_run (run : AddedLines limit number lines layout after) :
    after.cursor = cursorBehind limit lines layout.cursor := by
  induction lines generalizing number layout with
  | nil =>
    have same : after = layout := run
    rw [same]
    rfl
  | cons line rest ih =>
    obtain ⟨middle, first, later⟩ := run
    rw [ih later, cursor_eq_next first]
    rfl

/-- **The first pass records what the lines write**, whatever was there before. -/
theorem record_of_run (run : AddedLines limit number lines layout after) :
    after.emitted = (record limit (lines.zipIdx number) layout.cursor).reverse ++ layout.emitted := by
  induction lines generalizing number layout with
  | nil =>
    have same : after = layout := run
    rw [same]
    rfl
  | cons line rest ih =>
    obtain ⟨middle, first, later⟩ := run
    rw [ih later, emitted_of_added first, cursor_eq_next first, List.zipIdx_cons, record,
      List.reverse_append, List.append_assoc]

theorem definitions_of_run (run : AddedLines limit number lines layout after) :
    after.symbols = layout.symbols ++ definitions limit lines layout.cursor := by
  induction lines generalizing number layout with
  | nil =>
    have same : after = layout := run
    rw [same]
    exact (List.append_nil _).symm
  | cons line rest ih =>
    obtain ⟨middle, first, later⟩ := run
    rw [ih later, (symbols_of_added first).2, cursor_eq_next first, definitions, List.append_assoc]

/-- **When the first pass gets to the end**: nothing is wrong with any line, all cells fit, and the
labels are new and different from each other. -/
theorem exists_addedLines_iff :
    (∃ after, AddedLines limit number lines layout after) ↔
      Fitting limit lines layout.cursor ∧ (lines.filterMap Source.Line.label).Nodup ∧
        ∀ name ∈ lines.filterMap Source.Line.label, layout.symbols.lookup name = none := by
  induction lines generalizing number layout with
  | nil => exact ⟨fun _ => ⟨trivial, List.nodup_nil, nofun⟩, fun _ => ⟨layout, rfl⟩⟩
  | cons line rest ih =>
    -- a name is new behind the line if it is new in front of it and not the label of the line
    have newBehind {middle : Layout} (first : Added limit number line layout middle)
        (name : List Char) : middle.symbols.lookup name = none ↔
          layout.symbols.lookup name = none ∧ name ∉ line.label := by
      rw [(symbols_of_added first).2, List.lookup_append, Option.or_eq_none_iff]
      refine and_congr_right fun _ => ?_
      cases line.label with
      | none => simp
      | some own =>
        by_cases same : name = own
        · simp [same]
        · simp [List.lookup_cons, beq_eq_false_iff_ne.2 same, Ne.symm same]
    have split : ∀ P : List Char → Prop,
        (∀ name ∈ (line :: rest).filterMap Source.Line.label, P name) ↔
          (∀ name ∈ line.label, P name) ∧ ∀ name ∈ rest.filterMap Source.Line.label, P name := by
      intro P
      rw [List.filterMap_cons]
      cases line.label <;> simp
    have nodup : ((line :: rest).filterMap Source.Line.label).Nodup ↔
        (∀ name ∈ rest.filterMap Source.Line.label, name ∉ line.label) ∧
          (rest.filterMap Source.Line.label).Nodup := by
      rw [List.filterMap_cons]
      cases line.label with
      | none => simp
      | some name =>
        refine List.nodup_cons.trans (and_congr_left fun _ => ?_)
        simp only [Option.mem_some_iff]
        exact ⟨fun missing other mem same => missing (same ▸ mem),
          fun others mem => others name mem rfl⟩
    rw [split, nodup, Fitting]
    constructor
    · rintro ⟨after, middle, first, later⟩
      obtain ⟨sound, new, fits⟩ := exists_added_iff.1 ⟨middle, first⟩
      obtain ⟨fitting, distinct, fresh⟩ := ih.1 ⟨after, later⟩
      rw [cursor_eq_next first] at fitting
      exact ⟨⟨sound, fits, fitting⟩,
        ⟨fun name mem => ((newBehind first name).1 (fresh name mem)).2, distinct⟩,
        new, fun name mem => ((newBehind first name).1 (fresh name mem)).1⟩
    · rintro ⟨⟨sound, fits, fitting⟩, ⟨others, distinct⟩, new, fresh⟩
      obtain ⟨middle, first⟩ := exists_added_iff.2 ⟨sound, new, fits⟩
      rw [← cursor_eq_next first] at fitting
      obtain ⟨after, later⟩ := ih.2 ⟨fitting, distinct, fun name mem =>
        (newBehind first name).2 ⟨fresh name mem, others name mem⟩⟩
      exact ⟨after, middle, first, later⟩

end Run

/-! ## Looking up the record -/

/-- **Where no address is written twice**, the cell at an address is the one that was written there. -/
theorem emission?_eq_some_iff {layout : Layout} (once : layout.EmitsOnce) {address : Nat}
    {emission : Emission} :
    layout.emission? address = some emission ↔
      emission ∈ layout.emitted ∧ emission.address = address := by
  refine ⟨mem_of_emission?, ?_⟩
  rintro ⟨mem, rfl⟩
  obtain ⟨found, isFound⟩ := Option.isSome_iff_exists.1 (isSome_emission?_of_mem mem)
  obtain ⟨foundMem, sameAddress⟩ := mem_of_emission? isFound
  rw [isFound, List.inj_on_of_nodup_map once foundMem mem sameAddress]

/-! ## Whole sources -/

section Source

variable {limit : DigitLimit} {source : List Char} {final : Layout}

/-- The lines of the source have no mistakes by themselves and fit, no label is defined twice, and
every label that is written is defined. -/
structure Assembles (limit : DigitLimit) (source : List Char) : Prop where
  fitting : Fitting limit (start source).lines 0
  distinct : (definedLabels source).Nodup
  known : ∀ emission ∈ record limit (numberedLines source) 0, ∀ label,
    emission.cell = .reference label → label ∈ definedLabels source

/-- A run over a whole source leaves its record. -/
theorem record_of_source_run {laid : Layout}
    (run : AddedLines limit 1 (start source).lines (start source) laid) :
    laid.emitted = (record limit (numberedLines source) 0).reverse := by
  rw [record_of_run run]
  exact List.append_nil _

/-- **When both passes succeed**, told from the lines of the source alone. -/
theorem exists_ofSource_iff :
    (∃ final, ofSource limit source = .ok final) ↔ Assembles limit source := by
  have labels {laid : Layout} (run : AddedLines limit 1 (start source).lines (start source) laid) :
      (∀ reference ∈ laid.references, (laid.symbols.lookup reference.2).isSome) ↔
        ∀ emission ∈ record limit (numberedLines source) 0, ∀ label,
          emission.cell = .reference label → label ∈ definedLabels source := by
    -- what can be looked up behind the first pass is what the lines define
    have isKnown : ∀ label, (laid.symbols.lookup label).isSome ↔ label ∈ definedLabels source := by
      intro label
      rw [Option.isSome_iff_ne_none, ne_eq, lookup_eq_none_iff_not_mem, not_not, symbols_of_run run]
      exact Iff.rfl
    -- what has been emitted is the record, newest first
    have inRecord : ∀ emission, emission ∈ laid.emitted ↔
        emission ∈ record limit (numberedLines source) 0 := fun emission => by
      rw [record_of_source_run run, List.mem_reverse]
    constructor
    · intro known emission mem label isCell
      refine (isKnown label).1 (known (emission.address, label) (mem_references_iff.2 ?_))
      exact ⟨emission, (inRecord emission).2 mem, rfl, isCell⟩
    · rintro known ⟨address, label⟩ isReference
      obtain ⟨emission, mem, -, isCell⟩ := mem_references_iff.1 isReference
      exact (isKnown label).2 (known emission ((inRecord emission).1 mem) label isCell)
  constructor
  · rintro ⟨final, ok⟩
    obtain ⟨laid, run, known, -⟩ := ofSource_ok_iff.1 ok
    obtain ⟨fitting, distinct, -⟩ := exists_addedLines_iff.1 ⟨laid, run⟩
    exact ⟨fitting, distinct, (labels run).1 known⟩
  · rintro ⟨fitting, distinct, known⟩
    obtain ⟨laid, run⟩ : ∃ laid, AddedLines limit 1 (start source).lines (start source) laid :=
      exists_addedLines_iff.2 ⟨fitting, distinct, fun _ _ => rfl⟩
    exact ⟨_, ofSource_ok_iff.2 ⟨laid, run, (labels run).2 known, rfl⟩⟩

variable (ok : ofSource limit source = .ok final)
include ok

/-- **What both passes leave on record.** -/
theorem emitted_of_ofSource : final.emitted = (record limit (numberedLines source) 0).reverse := by
  obtain ⟨laid, run, -, rfl⟩ := ofSource_ok_iff.1 ok
  show laid.emitted = _
  exact record_of_source_run run

theorem symbols_of_ofSource : final.symbols = definitions limit (start source).lines 0 := by
  obtain ⟨laid, run, -, rfl⟩ := ofSource_ok_iff.1 ok
  exact definitions_of_run run

end Source

end Layout

end EightBit
