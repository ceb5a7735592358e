import EightBit.Proofs.Assembly.Bytes
import EightBit.Proofs.Assembly.LineMap
import EightBit.Proofs.Assembly.Resolve
import Mathlib.Data.List.Nodup

/-!
# Sources without Origin

Without `ORG`, the lines of a source write one behind the other from address 0 on, and no address is
written twice. The code is then what the lines write, put together in order, and a label is as many
bytes as the lines in front of it write.

The labels are known only at the end. Each line is therefore looked at with the labels of the finished
layout, as if their addresses had been written at once.

## Main Definitions

- `Source.Line.bytes`: what a line writes when the labels are known.
- `Layout.Contiguous`: the layout holds some code from address 0 on, every byte written once.

## Main Statements

- `Layout.Contiguous.added`: a line makes the code longer by its bytes.
- `code_of_noOrigin`: the code is what the lines write.
- `lookup_of_noOrigin`: a label is the number of bytes in front of it.
-/

namespace EightBit

open Layout

/-- The line does not move the cursor. -/
def Source.Line.NoOrigin (line : Source.Line) : Prop :=
  ∀ statement ∈ line.statement, statement.mnemonic ≠ "ORG".toList

/-- The bytes that a line writes, given the addresses of the labels. -/
def Source.Line.bytes (limit : DigitLimit) (symbols : List (List Char × Nat))
    (line : Source.Line) : List UInt8 :=
  (line.cells limit).map fun cell => placeholder (cell.resolve symbols)

theorem length_bytes (limit : DigitLimit) (symbols : List (List Char × Nat))
    (line : Source.Line) : (line.bytes limit symbols).length = (line.cells limit).length :=
  List.length_map _

namespace Layout

/-! ## Runs in two parts -/

/-- A run over two lists of lines is two runs. -/
theorem addedLines_append {limit : DigitLimit} {number : Nat} {front back : List Source.Line}
    {layout after : Layout} :
    AddedLines limit number (front ++ back) layout after ↔
      ∃ middle, AddedLines limit number front layout middle ∧
        AddedLines limit (number + front.length) back middle after := by
  -- on both sides the lines run one after the other; only the number of the next line has to be followed
  induction front generalizing number layout with
  | nil =>
    constructor
    · exact fun run => ⟨layout, rfl, run⟩
    · rintro ⟨middle, same, run⟩
      obtain rfl : middle = layout := same
      exact run
  | cons line front ih =>
    have count : number + (line :: front).length = number + 1 + front.length := by
      rw [List.length_cons]
      omega
    rw [count]
    constructor
    · rintro ⟨next, first, later⟩
      obtain ⟨middle, toMiddle, behind⟩ := ih.1 later
      exact ⟨middle, ⟨next, first, toMiddle⟩, behind⟩
    · rintro ⟨middle, ⟨next, first, toMiddle⟩, behind⟩
      exact ⟨next, first, ih.2 ⟨middle, toMiddle, behind⟩⟩

section Line

variable {limit : DigitLimit} {number : Nat} {line : Source.Line} {layout after : Layout}

/-! ## One line -/

/-- A line without `ORG` moves the cursor past what it writes, and there is room for that. -/
theorem cursor_of_added (noOrigin : line.NoOrigin) (added : Added limit number line layout after) :
    after.cursor = layout.cursor + (line.cells limit).length ∧
      (line.cells limit = [] ∨ after.cursor ≤ programLimit) := by
  obtain ⟨labelled, isLabelled, effect⟩ := added.effect_cases
  rw [Source.Line.cells, ← isLabelled.cursor]
  -- an `ORG` is excluded, so a statement emits its cells at the cursor
  obtain ⟨noStatement, rfl⟩ | ⟨statement, address, isStatement, moves, -⟩ |
    ⟨statement, cells, isStatement, emits, fits, rfl⟩ := effect
  · rw [noStatement]
    exact ⟨rfl, .inl rfl⟩
  · exact absurd (exists_of_moveTo moves).1 (noOrigin statement isStatement)
  · rw [isStatement, Option.map_some, emits]
    exact ⟨rfl, fits⟩

/-- A line defines its label, which is new, as the address of the cursor. -/
theorem symbols_of_added (added : Added limit number line layout after) :
    (∀ name ∈ line.label, layout.symbols.lookup name = none) ∧
      after.symbols =
        layout.symbols ++ (line.label.map fun name => (name, layout.cursor)).toList := by
  obtain ⟨labelled, isLabelled, effect⟩ := added.effect_cases
  -- a statement makes no symbol: neither does `ORG`, nor do cells
  have same : after.symbols = labelled.symbols := by
    obtain ⟨-, rfl⟩ | ⟨_, _, -, -, rfl⟩ | ⟨_, _, -, -, -, rfl⟩ := effect <;> rfl
  rw [same, isLabelled.eq]
  exact ⟨fun name named => ((labelled_iff.1 isLabelled).1 name named).2, rfl⟩

/-- Labels stay what they are. -/
theorem lookup_of_addedLines {lines : List Source.Line} {name : List Char} {target : Nat}
    (run : AddedLines limit number lines layout after)
    (known : layout.symbols.lookup name = some target) :
    after.symbols.lookup name = some target := by
  refine run.keeps (P := fun other => other.symbols.lookup name = some target) ?_ ?_ ?_ known
  · intro other label _ _ ih
    show (other.symbols ++ _).lookup name = _
    rw [List.lookup_append, ih]
    rfl
  · exact fun _ _ _ _ ih => ih
  · exact fun _ _ _ _ _ _ _ _ _ ih => ih

/-- **A label of a line is the address of the cursor in front of it.** -/
theorem lookup_of_added {lines : List Source.Line} {final : Layout} {next : Nat}
    (added : Added limit number line layout after)
    (run : AddedLines limit next lines after final) {name : List Char}
    (named : name ∈ line.label) : final.symbols.lookup name = some layout.cursor := by
  obtain ⟨new, symbols⟩ := symbols_of_added added
  refine lookup_of_addedLines run ?_
  have isLabel : line.label = some name := named
  rw [symbols, List.lookup_append, new name named, isLabel]
  simp

end Line

/-! ## Code without gaps -/

/-- The layout holds the code from address 0 on, with no byte written twice, once the labels have the
given addresses. -/
structure Contiguous (symbols : List (List Char × Nat)) (code : List UInt8)
    (layout : Layout) : Prop where
  written : Written code (layout.resolve symbols layout.lines)
  once : layout.EmitsOnce
  below : ∀ emission ∈ layout.emitted, emission.address < layout.cursor
  room : code.length ≤ programLimit

theorem contiguous_start (symbols : List (List Char × Nat)) (source : List Char) :
    Contiguous symbols [] (start source) where
  written := written_start source
  once := List.nodup_nil
  below := nofun
  room := Nat.zero_le _

/-- What a layout holds is told by its cursor, its record and its patches. -/
theorem Written.congr {code : List UInt8} {layout other : Layout} (written : Written code layout)
    (cursor : other.cursor = layout.cursor) (emitted : other.emitted = layout.emitted)
    (patches : other.patches = layout.patches) : Written code other where
  cursor := cursor.trans written.cursor
  cells address := by
    rw [emission?, emitted]
    exact written.cells address
  bytes := by
    rw [emitted]
    exact written.bytes
  patches := patches.trans written.patches

theorem address_placed (number start : Nat) (cells : List Cell) :
    (placed number start cells).map Emission.address = List.range' start cells.length := by
  induction cells generalizing start with
  | nil => rfl
  | cons cell cells ih =>
    rw [placed, List.map_cons, ih, List.length_cons, List.range'_succ]

theorem cell_placed (number start : Nat) (cells : List Cell) :
    (placed number start cells).map Emission.cell = cells := by
  induction cells generalizing start with
  | nil => rfl
  | cons cell cells ih => rw [placed, List.map_cons, ih]

section Contiguous

variable {limit : DigitLimit} {number : Nat} {symbols : List (List Char × Nat)}
  {code : List UInt8} {layout after : Layout}

/-- **A line makes the code longer by its bytes**, if the labels in it are known. -/
theorem Contiguous.added {line : Source.Line} (contiguous : Contiguous symbols code layout)
    (noOrigin : line.NoOrigin) (added : Added limit number line layout after)
    (known : ∀ cell ∈ line.cells limit, ∃ byte, cell.resolve symbols = .byte byte) :
    Contiguous symbols (code ++ line.bytes limit symbols) after := by
  obtain ⟨cursor, room⟩ := cursor_of_added noOrigin added
  have emitted := emitted_of_added added
  have single : AddedLines limit number [line] layout after := ⟨after, added, rfl⟩
  have noPatches : after.patches = [] := patches_of_added single contiguous.written.patches
  have addresses : ∀ emission ∈ placed number layout.cursor (line.cells limit),
      layout.cursor ≤ emission.address ∧ emission.address < after.cursor := by
    intro emission mem
    have inRange := List.mem_map_of_mem (f := Emission.address) mem
    rw [address_placed, List.mem_range'_1] at inRange
    omega
  have bytes : (line.cells limit).map (Cell.resolve symbols) =
      (line.bytes limit symbols).map Cell.byte := by
    rw [Source.Line.bytes, List.map_map]
    refine List.map_congr_left fun cell mem => ?_
    obtain ⟨byte, isByte⟩ := known cell mem
    rw [Function.comp_apply, isByte]
    rfl
  refine ⟨?_, ?_, ?_, ?_⟩
  · refine (contiguous.written.write number (line.bytes limit symbols)).congr ?_ ?_
      (noPatches.trans contiguous.written.patches.symm)
    · show after.cursor = layout.cursor + _
      rw [cursor, List.length_map, length_bytes]
    · show after.emitted.map _ = _ ++ layout.emitted.map _
      rw [emitted, List.map_append, List.map_reverse, placed_resolve, bytes]
      rfl
  -- the new addresses go up from the cursor, and the old ones are below it
  · rw [EmitsOnce, emitted, List.map_append, List.map_reverse, address_placed]
    refine List.nodup_append.2 ⟨List.nodup_reverse.2 List.nodup_range', contiguous.once, ?_⟩
    rintro address new other old rfl
    rw [List.mem_reverse, List.mem_range'_1] at new
    obtain ⟨emission, mem, here⟩ := List.mem_map.1 old
    have := contiguous.below emission mem
    omega
  · intro emission mem
    rw [emitted, List.mem_append, List.mem_reverse] at mem
    rcases mem with new | old
    · exact (addresses emission new).2
    · have := contiguous.below emission old
      omega
  · have length : layout.cursor = code.length := contiguous.written.cursor
    have := contiguous.room
    rw [List.length_append, length_bytes]
    rcases room with none | room
    · rw [none, List.length_nil]
      omega
    · omega

/-- **Lines make the code longer by their bytes**, one after the other. -/
theorem Contiguous.addedLines {lines : List Source.Line}
    (contiguous : Contiguous symbols code layout) (noOrigin : ∀ line ∈ lines, line.NoOrigin)
    (run : AddedLines limit number lines layout after)
    (known : ∀ emission ∈ after.emitted, ∃ byte, emission.cell.resolve symbols = .byte byte) :
    Contiguous symbols (code ++ lines.flatMap (Source.Line.bytes limit symbols)) after := by
  induction lines generalizing number layout code with
  | nil =>
    have same : after = layout := run
    rw [same, List.flatMap_nil, List.append_nil]
    exact contiguous
  | cons line rest ih =>
    obtain ⟨middle, first, later⟩ := run
    rw [List.forall_mem_cons] at noOrigin
    -- what a line writes stays on record
    have knownHere : ∀ cell ∈ line.cells limit, ∃ byte, cell.resolve symbols = .byte byte := by
      intro cell mem
      rw [← cell_placed number layout.cursor (line.cells limit)] at mem
      obtain ⟨emission, isPlaced, rfl⟩ := List.mem_map.1 mem
      refine known emission ((mem_emitted_of_added later).2 (.inl ?_))
      rw [emitted_of_added first]
      exact List.mem_append_left _ (List.mem_reverse.2 isPlaced)
    rw [List.flatMap_cons, ← List.append_assoc]
    exact ih (contiguous.added noOrigin.1 first knownHere) noOrigin.2 later

end Contiguous

end Layout

/-! ## Whole sources -/

section Source

variable {limit : DigitLimit} {source : List Char} {final : Layout}
  (noOrigin : ∀ line ∈ (start source).lines, line.NoOrigin)
  (ok : ofSource limit source = .ok final)
include noOrigin ok

/-- At every line, the cursor is behind the bytes of the lines in front. -/
theorem exists_contiguous {front back : List Source.Line}
    (split : (start source).lines = front ++ back) :
    ∃ before, Contiguous final.symbols (front.flatMap (Source.Line.bytes limit final.symbols)) before ∧
      ∃ laid, AddedLines limit (1 + front.length) back before laid ∧
        (∀ reference ∈ laid.references, (laid.symbols.lookup reference.2).isSome) ∧
        final = laid.patched := by
  obtain ⟨laid, run, known, rfl⟩ := ofSource_ok_iff.1 ok
  rw [split, addedLines_append] at run
  obtain ⟨before, toFront, behind⟩ := run
  refine ⟨before, ?_, laid, behind, known, rfl⟩
  refine (contiguous_start laid.symbols source).addedLines (fun line mem => ?_) toFront
    fun emission mem => ?_
  · exact noOrigin line (by rw [split]; exact List.mem_append_left back mem)
  · exact exists_byte_of_known known ((mem_emitted_of_added behind).2 (.inl mem))

/-- **The code is what the lines write**, put together in order. -/
theorem code_of_noOrigin :
    (Program.ofLayout final).code =
        (start source).lines.flatMap (Source.Line.bytes limit final.symbols) ∧
      (Program.ofLayout final).code.length ≤ programLimit := by
  obtain ⟨before, contiguous, laid, same, known, rfl⟩ :=
    exists_contiguous noOrigin ok (List.append_nil _).symm
  obtain rfl : laid = before := same
  -- no address is written twice, so the patches could have been written at once
  have direct := ofLayout_resolve contiguous.once contiguous.written.patches known laid.lines
  have code := code_of_written contiguous.written
  change (Program.ofLayout (laid.resolve laid.symbols laid.lines)).code = _ at code
  rw [direct] at code
  refine ⟨code, ?_⟩
  rw [code]
  exact contiguous.room

/-- **A label is the number of bytes in front of it.** -/
theorem lookup_of_noOrigin {front back : List Source.Line} {line : Source.Line}
    (split : (start source).lines = front ++ line :: back) {name : List Char}
    (named : name ∈ line.label) :
    final.symbols.lookup name =
      some (front.flatMap (Source.Line.bytes limit final.symbols)).length := by
  obtain ⟨before, contiguous, laid, ⟨middle, added, run⟩, -, rfl⟩ :=
    exists_contiguous noOrigin ok split
  have cursor : before.cursor = _ := contiguous.written.cursor
  rw [← cursor]
  exact lookup_of_added added run named

end Source

end EightBit
