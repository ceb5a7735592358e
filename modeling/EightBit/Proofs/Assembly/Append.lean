import EightBit.Proofs.Assembly.Record
import EightBit.Proofs.Assembly.Undefined
import EightBit.Proofs.Text.Lines

/-!
# Sources Put Together

Without `ORG`, a source that is put behind another one, on a line of its own, is assembled as it is
alone, only further up: its code follows the code of the first source, and its lines follow the lines
of it. If there is not enough room for both, the assembly stops at the line of the second source that
does not fit any more.

The second source must not define or refer to labels, or its code would depend on where it stands.

## Main Definitions

- `Source.Line.Standalone`: a line without `ORG`, labels and references.
- `Program.followedBy`: a program and, behind it, one that stands alone.

## Main Statements

- `record_add`, `fitting_iff_of_noOrigin`: lines without `ORG` that start further up.
- `assembleText_noOrigin_iff`: what a source without `ORG` assembles to.
- `exists_addLines_overflow`: where the assembly stops if there is no room.
- `assembleText_append`: both sources one behind the other.
-/

namespace EightBit

open Layout Text

/-- The line stays where it is, and neither defines nor refers to a label. -/
structure Source.Line.Standalone (line : Source.Line) : Prop where
  noOrigin : line.NoOrigin
  noLabel : line.label = none
  noReference : ∀ name, ¬line.Refers name

/-! ## Lines without origin -/

section NoOrigin

variable {limit : DigitLimit}

/-- **Lines that start further up** write the same cells further up. -/
theorem record_add {lines : List (Source.Line × Nat)}
    (noOrigin : ∀ entry ∈ lines, entry.1.NoOrigin) (cursor offset : Nat) :
    record limit lines (cursor + offset) = (record limit lines cursor).map fun emission =>
      { emission with address := emission.address + offset } := by
  have placedAbove : ∀ (number start : Nat) (cells : List Cell),
      placed number (start + offset) cells = (placed number start cells).map fun emission =>
        { emission with address := emission.address + offset } := by
    intro number start cells
    induction cells generalizing start with
    | nil => rfl
    | cons cell cells ih =>
      rw [placed, Nat.add_right_comm, ih, placed, List.map_cons]
  -- the cells of the first line are shifted alone; those of the rest are the hypothesis at the next cursor
  induction lines generalizing cursor with
  | nil => rfl
  | cons entry rest ih =>
    obtain ⟨line, number⟩ := entry
    rw [List.forall_mem_cons] at noOrigin
    rw [record, record, next_of_noOrigin noOrigin.1, next_of_noOrigin noOrigin.1,
      Nat.add_right_comm, ih noOrigin.2, placedAbove, List.map_append]

/-- Lines without `ORG` fit if all their cells do. -/
theorem fitting_iff_of_noOrigin {lines : List Source.Line}
    (noOrigin : ∀ line ∈ lines, line.NoOrigin) (cursor : Nat) :
    Fitting limit lines cursor ↔ (∀ line ∈ lines, line.Sound limit) ∧
      (cellsOf limit lines = [] ∨ cursor + (cellsOf limit lines).length ≤ programLimit) := by
  induction lines generalizing cursor with
  | nil => exact ⟨fun _ => ⟨nofun, .inl rfl⟩, fun _ => trivial⟩
  | cons line rest ih =>
    rw [List.forall_mem_cons] at noOrigin
    rw [Fitting, ih noOrigin.2, next_of_noOrigin noOrigin.1, List.forall_mem_cons]
    have cells : cellsOf limit (line :: rest) = line.cells limit ++ cellsOf limit rest := rfl
    rw [cells, ← List.length_eq_zero_iff, ← List.length_eq_zero_iff, ← List.length_eq_zero_iff,
      List.length_append]
    -- with no `ORG`, the room of every line is the room of the whole: the cursor only grows
    constructor
    · rintro ⟨sound, room, sounds, rooms⟩
      exact ⟨⟨sound, sounds⟩, by omega⟩
    · rintro ⟨⟨sound, sounds⟩, room⟩
      exact ⟨sound, by omega, sounds, by omega⟩

/-! ## Programs without origin -/

/-- **The line map of a record without gaps** is the record. -/
theorem lines_of_range {layout : Layout} {cells : List Emission}
    (emitted : layout.emitted = cells.reverse)
    (addresses : cells.map Emission.address = List.range cells.length) :
    (Program.ofLayout layout).lines = cells.map fun emission => (emission.address, emission.line) := by
  have once : layout.EmitsOnce := by
    rw [EmitsOnce, emitted, List.map_reverse, List.nodup_reverse, addresses]
    exact List.nodup_range
  have extent : layout.extent = cells.length := by
    -- an address is below the extent if and only if it is emitted at, and those addresses are a range
    refine Nat.le_antisymm (Nat.le_of_not_lt fun long => ?_) (Nat.le_of_not_lt fun long => ?_)
    · obtain ⟨emission, mem, above⟩ := lt_extent_iff.1 long
      rw [emitted, List.mem_reverse] at mem
      have inRange := List.mem_map_of_mem (f := Emission.address) mem
      rw [addresses, List.mem_range] at inRange
      omega
    · have inRange : layout.extent ∈ cells.map Emission.address := by
        rw [addresses]
        exact List.mem_range.2 long
      obtain ⟨emission, mem, here⟩ := List.mem_map.1 inRange
      rw [← List.mem_reverse, ← emitted] at mem
      have : emission.address < layout.extent := lt_extent_iff.2 ⟨emission, mem, Nat.le_refl _⟩
      omega
  -- so the line map asks each address for its owner, and gets the emissions in order
  show (List.range layout.extent).filterMap _ = _
  rw [extent, ← addresses, List.filterMap_map, ← List.filterMap_eq_map]
  refine List.filterMap_congr fun emission mem => ?_
  have found : layout.emission? emission.address = some emission :=
    (emission?_eq_some_iff once).2 ⟨by rwa [emitted, List.mem_reverse], rfl⟩
  rw [Function.comp_apply, owner?, found]
  rfl

/-- **What a source without `ORG` assembles to**: the bytes of its lines, each mapped to its line. -/
theorem assembleText_noOrigin_iff {source : List Char}
    (noOrigin : ∀ line ∈ (start source).lines, line.NoOrigin) {program : Program} :
    assembleText limit source = .ok program ↔ Assembles limit source ∧ program =
      { code := (start source).lines.flatMap
          (Source.Line.bytes limit (definitions limit (start source).lines 0))
        lines := (record limit (numberedLines source) 0).map fun emission =>
          (emission.address, emission.line)
        symbols := definitions limit (start source).lines 0 } := by
  -- both directions read the parts of the program off the same layout
  have isProgram {final : Layout} (ok : ofSource limit source = .ok final) :
      Program.ofLayout final =
        { code := (start source).lines.flatMap
            (Source.Line.bytes limit (definitions limit (start source).lines 0))
          lines := (record limit (numberedLines source) 0).map fun emission =>
            (emission.address, emission.line)
          symbols := definitions limit (start source).lines 0 } := by
    have symbols := symbols_of_ofSource ok
    have code := (code_of_noOrigin noOrigin ok).1
    have numbered : ∀ entry ∈ numberedLines source, entry.1.NoOrigin :=
      fun entry mem => noOrigin entry.1 (List.fst_mem_of_mem_zipIdx mem)
    have addresses : (record limit (numberedLines source) 0).map Emission.address = _ :=
      address_record numbered 0
    have length := congrArg List.length addresses
    -- the addresses count up from zero, which is what makes the line map the record itself
    rw [List.length_map, List.length_range'] at length
    rw [← List.range_eq_range', ← length] at addresses
    have lines := lines_of_range (emitted_of_ofSource ok) addresses
    rw [symbols] at code
    rw [← code, ← lines, ← symbols]
    rfl
  rw [assembleText_ok_iff, ← exists_ofSource_iff]
  constructor
  · rintro ⟨final, ok, rfl⟩
    exact ⟨⟨final, ok⟩, isProgram ok⟩
  · rintro ⟨⟨final, ok⟩, rfl⟩
    exact ⟨final, ok, (isProgram ok).symm⟩

end NoOrigin

/-! ## A line feed at the end -/

/-- An empty line, which does nothing. -/
def blankLine : Source.Line := Source.Line.parse []

theorem noOrigin_blankLine : blankLine.NoOrigin := by
  intro statement isStatement
  cases isStatement

theorem sound_blankLine (limit : DigitLimit) : blankLine.Sound limit where
  label name isLabel := by cases isLabel
  statement statement isStatement := by cases isStatement

/-- **A line feed at the end** makes no difference. -/
theorem assembleText_feed {limit : DigitLimit} {source : List Char} {program : Program}
    (noOrigin : ∀ line ∈ (start source).lines, line.NoOrigin)
    (assembled : assembleText limit source = .ok program) :
    (∀ line ∈ (start (source ++ ['\n'])).lines, line.NoOrigin) ∧
      assembleText limit (source ++ ['\n']) = .ok program := by
  rcases splitLines_feed source with same | longer
  · -- the line feed belongs to the last line
    have start : start (source ++ ['\n']) = start source := by rw [start, same, start]
    refine ⟨start ▸ noOrigin, ?_⟩
    rw [← assembled, assembleText, assembleText, ofSource, ofSource, start]
  · have lines : (start (source ++ ['\n'])).lines = (start source).lines ++ [blankLine] := by
      show (splitLines _).map Source.Line.parse = _
      rw [longer, List.map_append]
      rfl
    have numbered : numberedLines (source ++ ['\n']) =
        numberedLines source ++ [(blankLine, 1 + (start source).lines.length)] := by
      show (start _).lines.zipIdx 1 = (start source).lines.zipIdx 1 ++ _
      rw [lines, List.zipIdx_append]
      rfl
    have noOrigin' : ∀ line ∈ (start (source ++ ['\n'])).lines, line.NoOrigin := by
      rw [lines, List.forall_mem_append]
      refine ⟨noOrigin, fun line mem => ?_⟩
      rw [List.mem_singleton.1 mem]
      exact noOrigin_blankLine
    have labels : definedLabels (source ++ ['\n']) = definedLabels source := by
      rw [definedLabels, lines, List.filterMap_append]
      exact List.append_nil _
    have recorded : record limit (numberedLines (source ++ ['\n'])) 0 =
        record limit (numberedLines source) 0 := by
      rw [numbered, record_append]
      exact List.append_nil _
    have symbols : definitions limit (start (source ++ ['\n'])).lines 0 =
        definitions limit (start source).lines 0 := by
      rw [lines, definitions_append]
      exact List.append_nil _
    obtain ⟨⟨fitting, distinct, known⟩, isProgram⟩ := (assembleText_noOrigin_iff noOrigin).1 assembled
    refine ⟨noOrigin', (assembleText_noOrigin_iff noOrigin').2 ⟨⟨?_, ?_, ?_⟩, ?_⟩⟩
    · rw [lines, fitting_append]
      exact ⟨fitting, sound_blankLine limit, .inl rfl, trivial⟩
    · rwa [labels]
    · rwa [labels, recorded]
    · rw [isProgram, symbols, recorded, lines, List.flatMap_append]
      exact congrArg (fun code => Program.mk code _ _) (List.append_nil _).symm

/-! ## Lines that stand alone -/

section Standalone

variable {limit : DigitLimit}

/-- A line without references writes finished bytes. -/
theorem reference_not_mem_cells {raw : List Char}
    (noReference : ∀ name, ¬(Source.Line.parse raw).Refers name) (label : List Char) :
    .reference label ∉ (Source.Line.parse raw).cells limit := by
  intro mem
  rw [Source.Line.cells] at mem
  split at mem
  · next cells effect =>
    obtain ⟨statement, isStatement, emits⟩ := Option.map_eq_some_iff.1 effect
    have trimmed := Source.Line.trimmed_of_parse isStatement
    exact noReference label ⟨statement, isStatement, (reference_mem_iff emits trimmed).1 mem⟩
  · cases mem

/-- Labels make no difference to what such lines write. -/
theorem bytes_of_standalone {lines : List Source.Line} {source : List Char}
    (isLines : lines = (start source).lines) (standalone : ∀ line ∈ lines, line.Standalone)
    (symbols symbols' : List (List Char × Nat)) :
    lines.flatMap (Source.Line.bytes limit symbols) =
      lines.flatMap (Source.Line.bytes limit symbols') := by
  refine List.flatMap_congr fun line mem => List.map_congr_left fun cell inCells => ?_
  have noReference := (standalone line mem).noReference
  rw [isLines] at mem
  obtain ⟨raw, -, rfl⟩ := List.mem_map.1 mem
  cases cell with
  | byte value => rfl
  | reference label => exact absurd inCells (reference_not_mem_cells noReference label)

theorem definitions_of_standalone {lines : List Source.Line}
    (standalone : ∀ line ∈ lines, line.Standalone) (cursor : Nat) :
    definitions limit lines cursor = [] := by
  induction lines generalizing cursor with
  | nil => rfl
  | cons line rest ih =>
    rw [List.forall_mem_cons] at standalone
    rw [definitions, standalone.1.noLabel, ih standalone.2]
    rfl

/-! ## No room -/

theorem addLines_append_of_ok {number : Nat} {front back : List Source.Line} {layout middle : Layout}
    (run : AddedLines limit number front layout middle) :
    addLines limit number (front ++ back) layout =
      addLines limit (number + front.length) back middle := by
  induction front generalizing number layout with
  | nil =>
    have same : middle = layout := run
    rw [same]
    rfl
  | cons line front ih =>
    obtain ⟨next, first, later⟩ := run
    -- the first line runs as before; the rest is the hypothesis, one line further
    rw [List.cons_append, addLines, addLine_ok_iff.2 first]
    show addLines limit (number + 1) (front ++ back) next = _
    rw [ih later, List.length_cons]
    congr 1
    omega

/-- A line whose cells do not fit is reported. -/
theorem addLine_of_not_fits (number : Nat) {line : Source.Line} {layout : Layout}
    (noLabel : line.label = none) (long : ¬layout.Fits (line.cells limit)) :
    ∃ address after, addLine limit number line layout =
      .error ⟨.wrong (.codeTooHigh address), number, after⟩ := by
  rw [addLine_eq, noLabel]
  rw [Source.Line.cells] at long
  -- a line that does not fit emits cells, so it has a statement and no `ORG`
  split at long
  · next cells effect =>
    obtain ⟨statement, isStatement, emits⟩ := Option.map_eq_some_iff.1 effect
    obtain ⟨address, after, error⟩ := emit_of_not_fits number long
    refine ⟨address, after, ?_⟩
    rw [isStatement]
    show perform number (Effect.ofStatement limit statement) layout = _
    rw [emits, perform, error]
    rfl
  · exact absurd (.inl rfl) long

/-- **Where the assembly stops if there is no room**: at the line whose cells do not fit any more. -/
theorem exists_addLines_overflow {number : Nat} {lines : List Source.Line} {layout : Layout}
    (sound : ∀ line ∈ lines, line.Sound limit) (standalone : ∀ line ∈ lines, line.Standalone)
    (low : layout.cursor ≤ programLimit)
    (long : programLimit < layout.cursor + (cellsOf limit lines).length) :
    ∃ front line back address after, lines = front ++ line :: back ∧
      addLines limit number lines layout =
        .error ⟨.wrong (.codeTooHigh address), number + front.length, after⟩ := by
  -- induction on the lines: either the first one does not fit, or the excess is in the rest
  induction lines generalizing number layout with
  | nil => exact absurd long (Nat.not_lt.2 low)
  | cons line rest ih =>
    rw [List.forall_mem_cons] at sound standalone
    obtain ⟨noOrigin, noLabel, -⟩ := standalone.1
    by_cases fits : layout.Fits (line.cells limit)
    · obtain ⟨middle, added⟩ : ∃ middle, Added limit number line layout middle :=
        exists_added_iff.2 ⟨sound.1, by simp [noLabel], fits⟩
      -- a line that fits moves the cursor by its cells, and what is left is too long still
      have cursor := cursor_eq_next added
      rw [next_of_noOrigin noOrigin] at cursor
      have lowBehind : middle.cursor ≤ programLimit := by
        rcases fits with none | room
        · rwa [cursor, none]
        · rwa [cursor]
      have longBehind : programLimit < middle.cursor + (cellsOf limit rest).length := by
        rw [cellsOf, List.flatMap_cons, List.length_append] at long
        rw [cursor, cellsOf]
        omega
      obtain ⟨front, stops, back, address, after, rfl, error⟩ :=
        ih sound.2 standalone.2 lowBehind longBehind
      refine ⟨line :: front, stops, back, address, after, rfl, ?_⟩
      rw [addLines, addLine_ok_iff.2 added]
      show addLines limit (number + 1) _ middle = _
      rw [error, List.length_cons, Nat.add_right_comm, Nat.add_assoc]
    · obtain ⟨address, after, error⟩ := addLine_of_not_fits number noLabel fits
      refine ⟨[], line, rest, address, after, rfl, ?_⟩
      rw [addLines, error]
      rfl

end Standalone

/-! ## Both sources -/

/-- A program and behind it one without labels, whose source starts after the given number of
lines. -/
def Program.followedBy (first : Program) (count : Nat) (second : Program) : Program where
  code := first.code ++ second.code
  lines := first.lines ++ second.lines.map fun entry =>
    (entry.1 + first.code.length, entry.2 + count)
  symbols := first.symbols

section Behind

variable {limit : DigitLimit} {front back both : List Char} {one two : Program}
  (lines : (start both).lines = (start front).lines ++ (start back).lines)

include lines in
/-- The lines of the second source follow with the next numbers. -/
theorem numberedLines_behind :
    numberedLines both = numberedLines front ++
      (numberedLines back).map (Prod.map id (· + (start front).lines.length)) := by
  show (start both).lines.zipIdx 1 = (start front).lines.zipIdx 1 ++ ((start back).lines.zipIdx 1).map _
  rw [lines, List.zipIdx_append, List.append_cancel_left_eq, List.zipIdx_eq_map_add,
    (List.zipIdx_eq_map_add : (start back).lines.zipIdx 1 = _), List.map_map]
  refine List.map_congr_left fun ⟨line, index⟩ _ => Prod.ext rfl ?_
  show 1 + (start front).lines.length + index = 1 + index + (start front).lines.length
  omega

theorem length_code_of_noOrigin (noOrigin : ∀ line ∈ (start front).lines, line.NoOrigin)
    (assembled : assembleText limit front = .ok one) :
    one.code.length = (cellsOf limit (start front).lines).length := by
  rw [((assembleText_noOrigin_iff noOrigin).1 assembled).2]
  simp [cellsOf, List.length_flatMap, length_bytes]

variable (noOrigin : ∀ line ∈ (start front).lines, line.NoOrigin)
  (standalone : ∀ line ∈ (start back).lines, line.Standalone)
  (isOne : assembleText limit front = .ok one) (isTwo : assembleText limit back = .ok two)
include lines noOrigin standalone isOne isTwo

/-- **If there is room**, the second source is assembled behind the first one. -/
theorem followedBy_of_room (room : one.code.length + two.code.length ≤ programLimit) :
    assembleText limit both = .ok (one.followedBy (start front).lines.length two) := by
  have noOrigin' : ∀ line ∈ (start back).lines, line.NoOrigin :=
    fun line mem => (standalone line mem).noOrigin
  have noOriginBoth : ∀ line ∈ (start both).lines, line.NoOrigin := by
    rw [lines, List.forall_mem_append]
    exact ⟨noOrigin, noOrigin'⟩
  have length := length_code_of_noOrigin noOrigin isOne
  rw [length_code_of_noOrigin noOrigin' isTwo, length] at room
  obtain ⟨⟨fitting, distinct, known⟩, isOne⟩ := (assembleText_noOrigin_iff noOrigin).1 isOne
  obtain ⟨⟨fitting', distinct', known'⟩, isTwo⟩ := (assembleText_noOrigin_iff noOrigin').1 isTwo
  -- the second source starts where the code of the first one ends
  have behind : cursorBehind limit (start front).lines 0 = one.code.length := by
    rw [cursorBehind_of_noOrigin noOrigin, length, Nat.zero_add]
  have recorded : record limit (numberedLines both) 0 = record limit (numberedLines front) 0 ++
      (record limit (numberedLines back) 0).map fun emission =>
        ⟨emission.address + one.code.length, emission.cell,
          emission.line + (start front).lines.length⟩ := by
    have first : (numberedLines front).map Prod.fst = (start front).lines := List.zipIdx_map_fst 1 _
    have noOriginNumbered : ∀ entry ∈ numberedLines back, entry.1.NoOrigin :=
      fun entry mem => noOrigin' entry.1 (List.fst_mem_of_mem_zipIdx mem)
    have shifted : record limit (numberedLines back) (0 + one.code.length) = _ :=
      record_add noOriginNumbered 0 one.code.length
    rw [Nat.zero_add] at shifted
    rw [numberedLines_behind lines, record_append, first, behind, record_map, shifted, List.map_map]
    rfl
  have symbols : definitions limit (start both).lines 0 = definitions limit (start front).lines 0 := by
    rw [lines, definitions_append, definitions_of_standalone standalone, List.append_nil]
  have labels : definedLabels both = definedLabels front := by
    have none : (start back).lines.filterMap Source.Line.label = [] :=
      List.filterMap_eq_nil_iff.2 fun line mem => (standalone line mem).noLabel
    rw [definedLabels, lines, List.filterMap_append, none, List.append_nil]
    rfl
  refine (assembleText_noOrigin_iff noOriginBoth).2 ⟨⟨?_, ?_, ?_⟩, ?_⟩
  · rw [lines, fitting_append, behind]
    refine ⟨fitting, (fitting_iff_of_noOrigin noOrigin' _).2 ⟨?_, .inr ?_⟩⟩
    · exact ((fitting_iff_of_noOrigin noOrigin' _).1 fitting').1
    · rwa [length]
  · rwa [labels]
  -- what is referred to is defined in the first source
  · rw [recorded, labels, List.forall_mem_append]
    refine ⟨known, fun emission mem label isCell => absurd isCell ?_⟩
    obtain ⟨old, inBack, rfl⟩ := List.mem_map.1 mem
    have inCells : old.cell ∈ cellsOf limit ((numberedLines back).map Prod.fst) := by
      rw [← cell_record]
      exact List.mem_map_of_mem inBack
    obtain ⟨line, isLine, inLine⟩ := List.mem_flatMap.1 inCells
    rw [numberedLines, List.zipIdx_map_fst] at isLine
    obtain ⟨raw, -, rfl⟩ := List.mem_map.1 isLine
    rintro isReference
    rw [show old.cell = .reference label from isReference] at inLine
    exact reference_not_mem_cells (standalone _ isLine).noReference label inLine
  · rw [symbols, recorded, lines, List.flatMap_append, List.map_append, List.map_map,
      bytes_of_standalone rfl standalone _ (definitions limit (start back).lines 0), isOne, isTwo,
      Program.followedBy, List.map_map]
    rfl

/-- **If there is no room**, the assembly stops at a line of the second source. -/
theorem exists_error_of_no_room (full : programLimit < one.code.length + two.code.length) :
    ∃ error line number, assembleText limit both = .error (.wrong error) ∧
      error.kind = .outOfBounds ∧ (line, number) ∈ numberedLines back ∧
      error.line = (number + (start front).lines.length : Nat) := by
  have noOrigin' : ∀ line ∈ (start back).lines, line.NoOrigin :=
    fun line mem => (standalone line mem).noOrigin
  have length := length_code_of_noOrigin noOrigin isOne
  rw [length_code_of_noOrigin noOrigin' isTwo, length] at full
  obtain ⟨⟨fitting, distinct, -⟩, -⟩ := (assembleText_noOrigin_iff noOrigin).1 isOne
  obtain ⟨⟨fitting', -, -⟩, -⟩ := (assembleText_noOrigin_iff noOrigin').1 isTwo
  -- the first source is laid out as it is alone
  obtain ⟨laid, run⟩ : ∃ laid, AddedLines limit 1 (start front).lines (start both) laid :=
    exists_addedLines_iff.2 ⟨fitting, distinct, fun _ _ => rfl⟩
  have cursor : laid.cursor = (cellsOf limit (start front).lines).length := by
    rw [cursor_of_run run, cursorBehind_of_noOrigin noOrigin]
    exact Nat.zero_add _
  have low : laid.cursor ≤ programLimit := by
    rw [cursor]
    rcases ((fitting_iff_of_noOrigin noOrigin _).1 fitting).2 with none | room
    · rw [none]
      exact Nat.zero_le _
    · rwa [Nat.zero_add] at room
  rw [← cursor] at full
  obtain ⟨before, line, after, address, stopped, split, error⟩ :=
    exists_addLines_overflow ((fitting_iff_of_noOrigin noOrigin' _).1 fitting').1 standalone low full
  have stops : ofSource limit both = .error
      ⟨.wrong (.codeTooHigh address), 1 + (start front).lines.length + before.length, stopped⟩ := by
    rw [ofSource, lines, addLines_append_of_ok run, error]
    rfl
  have isLine := mem_numberedLines_iff.2 ⟨before, after, split, rfl⟩
  rw [assembleText, stops]
  refine ⟨_, line, 1 + before.length, rfl, rfl, isLine, ?_⟩
  show ((1 + (start front).lines.length + before.length : Nat) : Int) = _
  rw [Nat.add_right_comm]

end Behind

section Append

variable {limit : DigitLimit} {first second : List Char}

/-- **Assembly is compositional.** A source without `ORG` and, on lines of its own behind it, a
source without `ORG`, labels and references assemble to the code of the one and then the code of the
other, with the symbols of the first, and with both line maps one behind the other. If there is not
enough room for that, the assembly stops at a line of the second source. -/
theorem assembleText_append {one two : Program}
    (noOrigin : ∀ line ∈ (start first).lines, line.NoOrigin)
    (standalone : ∀ line ∈ (start second).lines, line.Standalone)
    (isOne : assembleText limit first = .ok one) (isTwo : assembleText limit second = .ok two) :
    (one.code.length + two.code.length ≤ programLimit →
      assembleText limit (first ++ '\n' :: second) =
        .ok (one.followedBy (splitLines (first ++ ['\n'])).length two)) ∧
    (programLimit < one.code.length + two.code.length →
      ∃ error line number, assembleText limit (first ++ '\n' :: second) = .error (.wrong error) ∧
        error.kind = .outOfBounds ∧ (line, number) ∈ numberedLines second ∧
        error.line = (number + (splitLines (first ++ ['\n'])).length : Nat)) := by
  obtain ⟨noOrigin, isOne⟩ := assembleText_feed noOrigin isOne
  -- the line feed in between is part of the first source
  have lines : (start (first ++ '\n' :: second)).lines =
      (start (first ++ ['\n'])).lines ++ (start second).lines := by
    show (splitLines _).map Source.Line.parse = _
    rw [splitLines_append_feed, List.map_append]
    rfl
  have count : (splitLines (first ++ ['\n'])).length = (start (first ++ ['\n'])).lines.length :=
    (List.length_map _).symm
  rw [count]
  exact ⟨followedBy_of_room lines noOrigin standalone isOne isTwo,
    exists_error_of_no_room lines noOrigin standalone isOne isTwo⟩

end Append

/-- A jump behind a label and an unfinished line break. -/
theorem assembleText_append_behind_return :
    ∃ first second one two, (∀ line ∈ (start first).lines, line.NoOrigin) ∧
      (∀ line ∈ (start second).lines, line.Standalone) ∧
      assembleText (some digitLimit) first = .ok one ∧
      assembleText (some digitLimit) second = .ok two ∧
      (one.followedBy 1 two).lines = [(0, 1), (1, 1), (2, 3), (3, 3)] ∧
      assembleText (some digitLimit) (first ++ '\n' :: second) = .ok (one.followedBy 1 two) := by
  let first := "a: DB a, 7\r".toList
  let second := "\nJMP 0x10".toList
  let one : Program := { code := [0, 7], lines := [(0, 1), (1, 1)], symbols := [("a".toList, 0)] }
  let two : Program := { code := [26, 16], lines := [(0, 2), (1, 2)], symbols := [] }
  -- conditions on lines are read off the parsed lines
  have noOrigin : ∀ line ∈ (start first).lines, line.NoOrigin := by
    have lines : (start first).lines =
        [⟨"a: DB a, 7".toList, some "a".toList, some ⟨"DB".toList, ["a".toList, "7".toList]⟩⟩] := by
      decide +kernel
    rw [lines]
    simp [Source.Line.NoOrigin]
  have standalone : ∀ line ∈ (start second).lines, line.Standalone := by
    have lines : (start second).lines = [⟨[], none, none⟩,
        ⟨"JMP 0x10".toList, none, some ⟨"JMP".toList, ["0x10".toList]⟩⟩] := by
      decide +kernel
    rw [lines, List.forall_mem_cons, List.forall_mem_singleton]
    refine ⟨⟨nofun, rfl, nofun⟩, ⟨by simp [Source.Line.NoOrigin], rfl, ?_⟩⟩
    rintro name ⟨statement, isStatement, operand, mem, mentions⟩
    cases isStatement
    rw [List.mem_singleton.1 mem] at mentions
    exact Operand.not_mentions rfl (by decide) name mentions
  -- both halves assemble by themselves, and the theorem says what they make together
  have isOne : assembleText (some digitLimit) first = .ok one := by decide +kernel
  have isTwo : assembleText (some digitLimit) second = .ok two := by decide +kernel
  exact ⟨first, second, one, two, noOrigin, standalone, isOne, isTwo, rfl,
    (assembleText_append noOrigin standalone isOne isTwo).1 (by decide)⟩

end EightBit
