import EightBit.Assembly.Listing
import EightBit.Proofs.Assembly.Record
import EightBit.Proofs.Assembly.Report

/-!
# The Listing and the Code

The listing is put together from the extents that the first pass noted for each line and from the
bytes that the second pass patched. It is compared here with what the lines write and with the code
of the program: each line that is not blank has one row, and a row shows the bytes of the final code
from the first address on that its line wrote.

## Main Definitions

- `Source.Line.segment?`: the extent that the first pass notes for a line.
- `Covers`: a line writes the addresses of a stretch, and no others.
- `RowOf`: the row of a line in the listing of a source that became some code.

## Main Statements

- `find?_segments`: the extent on record for a line is the one of that line.
- `row?_eq`: the row of a line, told from the cells that it writes.
- `listing_of_assembled`: the listing has one such row for every line that is not blank.
-/

namespace EightBit

open Layout Text Numeral

/-! ## The extents on record -/

/-- The extent that the first pass notes for a line, if it has a statement that writes. -/
def Source.Line.segment? (limit : DigitLimit) (line : Source.Line) (number cursor : Nat) :
    Option Segment :=
  match line.statement.map (Effect.ofStatement limit) with
  | some (.emit cells none) => some ⟨number, cursor, cursor + cells.length⟩
  | _ => none

/-- An extent with addresses in it is noted for a line that writes cells, and it holds them. -/
theorem Source.Line.filter_segment? (limit : DigitLimit) (line : Source.Line)
    (number cursor : Nat) :
    ((line.segment? limit number cursor).filter fun s => s.start < s.stop) =
      if line.cells limit = [] then none
      else some ⟨number, cursor, cursor + (line.cells limit).length⟩ := by
  rw [Source.Line.segment?, Source.Line.cells]
  generalize line.statement.map (Effect.ofStatement limit) = effect
  rcases effect with _ | _ | ⟨cells, _ | _⟩
  · rfl
  · rfl
  -- only a statement that writes without a mistake counts
  · cases cells <;> simp
  · rfl

namespace Layout

section Run

variable {limit : DigitLimit} {number : Nat} {layout after : Layout}

theorem segments_of_added {line : Source.Line} (added : Added limit number line layout after) :
    after.segments = (line.segment? limit number layout.cursor).toList ++ layout.segments := by
  obtain ⟨labelled, isLabelled, effect⟩ := added.effect_cases
  -- a label makes no segment
  have same : labelled.segments = layout.segments := by rw [isLabelled.eq]
  rw [Source.Line.segment?, ← same, ← isLabelled.cursor]
  -- neither does `ORG`, but cells do
  obtain ⟨noStatement, rfl⟩ | ⟨statement, address, isStatement, moves, rfl⟩ |
    ⟨statement, cells, isStatement, emits, -, rfl⟩ := effect
  · rw [noStatement]
    rfl
  · rw [isStatement, Option.map_some, moves]
    rfl
  · rw [isStatement, Option.map_some, emits]
    rfl

theorem line_of_mem_segment? {line : Source.Line} {cursor : Nat} {segment : Segment}
    (mem : segment ∈ line.segment? limit number cursor) : segment.line = number := by
  rw [Source.Line.segment?] at mem
  split at mem
  · cases mem
    rfl
  · cases mem

/-- Lines note extents under their own numbers only. -/
theorem exists_segments_of_run {lines : List Source.Line}
    (run : AddedLines limit number lines layout after) :
    ∃ newer, after.segments = newer ++ layout.segments ∧
      ∀ segment ∈ newer, number ≤ segment.line ∧ segment.line < number + lines.length := by
  -- the segments of the rest stand in front of the segment of the first line
  induction lines generalizing number layout with
  | nil =>
    have same : after = layout := run
    exact ⟨[], by rw [same]; rfl, nofun⟩
  | cons line rest ih =>
    obtain ⟨middle, first, later⟩ := run
    obtain ⟨newer, segments, bounds⟩ := ih later
    refine ⟨newer ++ (line.segment? limit number layout.cursor).toList, ?_, fun segment mem => ?_⟩
    · rw [segments, segments_of_added first, List.append_assoc]
    · rw [List.length_cons]
      rcases List.mem_append.1 mem with behind | here
      · have := bounds segment behind
        omega
      · have := line_of_mem_segment? (Option.mem_toList.1 here)
        omega

/-- **The extent on record for a line is the one of that line**: no line in front of it and none
behind it has noted one under its number. -/
theorem find?_segments {front back : List Source.Line} {line : Source.Line}
    {before final : Layout} (noSegments : layout.segments = [])
    (toFront : AddedLines limit number front layout before)
    (behind : AddedLines limit (number + front.length) (line :: back) before final) :
    final.segments.find? (·.line == number + front.length) =
      line.segment? limit (number + front.length) before.cursor := by
  -- the run is cut at the line: older segments, its own one, newer ones
  obtain ⟨middle, added, run⟩ := behind
  obtain ⟨older, olderSegments, olderBounds⟩ := exists_segments_of_run toFront
  obtain ⟨newer, newerSegments, newerBounds⟩ := exists_segments_of_run run
  -- no other line has that number
  have notOlder : older.find? (·.line == number + front.length) = none := by
    rw [List.find?_eq_none]
    intro segment mem
    have := olderBounds segment mem
    rw [beq_iff_eq]
    omega
  have notNewer : newer.find? (·.line == number + front.length) = none := by
    rw [List.find?_eq_none]
    intro segment mem
    have := newerBounds segment mem
    rw [beq_iff_eq]
    omega
  rw [newerSegments, segments_of_added added, olderSegments, noSegments, List.append_nil,
    List.find?_append, notNewer, Option.none_or, List.find?_append, notOlder, Option.or_none]
  cases isSegment : line.segment? limit (number + front.length) before.cursor with
  | none => rfl
  | some segment => simp [line_of_mem_segment? isSegment]

end Run

/-! ## The bytes of a row -/

/-- Bytes in hexadecimal, with a space between them. -/
def hexBytes (bytes : List UInt8) : List Char :=
  [' '].intercalate (bytes.map fun b => hexByte b.toNat)

/-- The bytes of a layout between two addresses are those of its code. -/
theorem bytesBetween_eq (layout : Layout) {first count : Nat}
    (inCode : first + count ≤ layout.extent) :
    layout.bytesBetween first (first + count) =
      ((Program.ofLayout layout).code.drop first).take count := by
  show (List.range' first (first + count - first)).map layout.byteAt =
    (((List.range layout.extent).map layout.byteAt).drop first).take count
  rw [Nat.add_sub_cancel_left, ← List.map_drop, ← List.map_take, List.range_eq_range',
    List.drop_range', Nat.zero_add, Nat.mul_one]
  have length : layout.extent - first = count + (layout.extent - first - count) := by omega
  rw [length, ← List.range'_append_1, List.take_left' List.length_range']

/-- A row shows the first four bytes, and two points if there are more. -/
theorem shownBytes_eq (layout : Layout) {first count : Nat}
    (inCode : first + count ≤ layout.extent) :
    shownBytes (layout.bytesBetween first (first + count)) =
      hexBytes (((Program.ofLayout layout).code.drop first).take (min 4 count)) ++
        if 4 < count then " ..".toList else [] := by
  have length : (((Program.ofLayout layout).code.drop first).take count).length = count := by
    rw [List.length_take, List.length_drop, length_code]
    omega
  rw [bytesBetween_eq layout inCode, shownBytes, length, List.take_take]
  split
  · rfl
  · rw [List.append_nil]
    rfl

end Layout

/-! ## The row of a line -/

/-- The line writes the addresses of a stretch, and no others. -/
def Covers (limit : DigitLimit) (source : List Char) (number first count : Nat) : Prop :=
  ∀ address, (∃ cell, Writes limit source number address cell) ↔
    first ≤ address ∧ address < first + count

/-- The row of a line, which is given with its number, in the listing of a source that became some
code. A line that wrote nothing has only its text in the row. -/
inductive RowOf (limit : DigitLimit) (source : List Char) (code : List UInt8) :
    List Char × Nat → List Char → Prop
  | bare {raw : List Char} {number : Nat} :
      (∀ address cell, ¬Writes limit source number address cell) →
      RowOf limit source code (raw, number) (List.replicate 20 ' ' ++ trimEnd raw)
  | coded {raw : List Char} {number first count : Nat} : 0 < count →
      Covers limit source number first count → first + count ≤ code.length →
      RowOf limit source code (raw, number)
        ("  ".toList ++ hexByte first ++ "  ".toList ++
          padTo 12 (hexBytes ((code.drop first).take (min 4 count)) ++
            if 4 < count then " ..".toList else []) ++
          "  ".toList ++ trimEnd raw)

section Line

variable {limit : DigitLimit} {source raw : List Char} {number : Nat}

/-- A blank line has no statement, so it writes nothing. -/
theorem cells_of_allBlank (limit : DigitLimit) (blank : AllBlank raw) :
    (Source.Line.parse raw).cells limit = [] := by
  obtain ⟨tail, -, -, split⟩ := Source.exists_eq_stripComment_append raw
  have code : AllBlank (Source.stripComment raw) := fun c mem =>
    blank c (by rw [split]; exact List.mem_append_left tail mem)
  have empty : trim (Source.stripComment raw) = trim [] := by
    simpa using trim_append_left code []
  rw [Source.Line.parse, empty]
  rfl

theorem trimEnd_eq_nil_iff {text : List Char} : trimEnd text = [] ↔ AllBlank text := by
  rw [trimEnd, List.reverse_eq_nil_iff, List.dropWhile_eq_nil_iff]
  simp [AllBlank]

end Line

section Run

variable {limit : DigitLimit} {source : List Char} {laid : Layout}

/-- What a line writes, told from the cursor behind the lines in front of it. -/
theorem writes_iff {front back : List Source.Line} {line : Source.Line} {before : Layout}
    (split : (start source).lines = front ++ line :: back)
    (toFront : AddedLines limit 1 front (start source) before) {address : Nat} {cell : Cell} :
    Writes limit source (1 + front.length) address cell ↔
      cellAt before.cursor (line.cells limit) address = some cell := by
  constructor
  · rintro ⟨front', line', back', before', split', isNumber, toFront', isCell⟩
    have sameLength : front.length = front'.length := by omega
    rw [split] at split'
    obtain ⟨rfl, rest⟩ := List.append_inj split' sameLength
    obtain ⟨rfl, rfl⟩ := List.cons.inj rest
    rwa [toFront.unique toFront']
  · exact fun isCell => ⟨front, line, back, before, split, rfl, toFront, isCell⟩

variable (run : AddedLines limit 1 (start source).lines (start source) laid)
include run

/-- **The extent on record for a line** holds what the line writes. -/
theorem exists_covers {line : Source.Line} {number : Nat}
    (isLine : (line, number) ∈ numberedLines source) :
    ∃ first, Covers limit source number first (line.cells limit).length ∧
      ((laid.segments.find? (·.line == number)).filter fun s => s.start < s.stop) =
        if line.cells limit = [] then none
        else some ⟨number, first, first + (line.cells limit).length⟩ := by
  obtain ⟨front, back, split, rfl⟩ := mem_numberedLines_iff.1 isLine
  have whole := run
  rw [split, addedLines_append] at whole
  obtain ⟨before, toFront, behind⟩ := whole
  refine ⟨before.cursor, fun address => ?_, ?_⟩
  · simp only [writes_iff split toFront, cellAt_eq_some_iff, exists_and_left,
      ← Option.isSome_iff_exists, isSome_getElem?]
    omega
  · rw [find?_segments rfl toFront behind, Source.Line.filter_segment?]

/-- A row can show the code from where its line wrote. -/
theorem Covers.le_extent {number first count : Nat} (covers : Covers limit source number first count)
    (positive : 0 < count) : first + count ≤ laid.extent := by
  obtain ⟨cell, writes⟩ := (covers (first + count - 1)).2 (by omega)
  have := lt_extent_of_emits run ⟨number, cell, writes⟩
  omega

/-- **The row of a line.** Only a blank line has none. -/
theorem exists_row? {raw : List Char} {number : Nat}
    (isLine : (Source.Line.parse raw, number) ∈ numberedLines source) :
    if AllBlank raw then laid.patched.row? number (Source.Line.parse raw) = none
    else ∃ row, laid.patched.row? number (Source.Line.parse raw) = some row ∧
      RowOf limit source (Program.ofLayout laid.patched).code (raw, number) row := by
  obtain ⟨first, covers, covered⟩ := exists_covers run isLine
  change ((laid.patched.segments.find? _).filter _) = _ at covered
  rw [row?, covered, raw_parse]
  -- a blank line has no cells and nothing to show
  by_cases blank : AllBlank raw
  · rw [if_pos blank, if_pos (cells_of_allBlank limit blank), trimEnd_eq_nil_iff.2 blank]
    rfl
  rw [if_neg blank]
  cases cells : (Source.Line.parse raw).cells limit with
  | nil =>
    -- a line without cells is shown by its text alone
    have shown : (trimEnd raw).isEmpty = false := by
      rw [← Bool.not_eq_true, List.isEmpty_iff, trimEnd_eq_nil_iff]
      exact blank
    rw [cells] at covers
    refine ⟨_, by rw [if_pos rfl, shown]; rfl, .bare fun address cell writes => ?_⟩
    have := (covers address).1 ⟨cell, writes⟩
    rw [List.length_nil] at this
    omega
  | cons cell rest =>
    rw [cells] at covers
    have positive : 0 < (cell :: rest).length := Nat.zero_lt_succ _
    -- its bytes lie inside of the code, all of them at consecutive addresses
    have inCode := covers.le_extent run positive
    refine ⟨_, rfl, ?_⟩
    rw [shownBytes_eq laid.patched inCode]
    refine .coded positive covers ?_
    rw [length_code]
    exact inCode

end Run

/-! ## Rows as lines of text -/

section Row

variable {limit : DigitLimit} {source : List Char} {code : List UInt8}

theorem hexByte_ne_nil (n : Nat) : hexByte n ≠ [] := by
  simp [hexByte, Numeral.write, Nat.toDigits_ne_nil]

theorem noBreak_hexByte (n : Nat) : NoBreak (hexByte n) :=
  forall_mem_hexByte (P := fun c => isLineBreak c = false) (by decide) n

theorem hexBytes_cons_cons (b next : UInt8) (rest : List UInt8) :
    hexBytes (b :: next :: rest) = hexByte b.toNat ++ ' ' :: hexBytes (next :: rest) := by
  simp [hexBytes, List.intercalate]

theorem noBreak_hexBytes (bytes : List UInt8) : NoBreak (hexBytes bytes) := by
  induction bytes with
  | nil => exact NoBreak.nil
  | cons b rest ih =>
    cases rest with
    | nil => simpa [hexBytes] using noBreak_hexByte b.toNat
    | cons next rest =>
      rw [hexBytes_cons_cons]
      exact (noBreak_hexByte b.toNat).append (ih.cons rfl)

theorem noBreak_padTo {text : List Char} (noBreak : NoBreak text) (width : Nat) :
    NoBreak (padTo width text) :=
  noBreak.append fun c mem => by rw [List.eq_of_mem_replicate mem]; rfl

/-- A row is one line of text. -/
theorem RowOf.noBreak {raw row : List Char} {number : Nat}
    (isRow : RowOf limit source code (raw, number) row) (noBreak : NoBreak raw) :
    NoBreak row ∧ row ≠ [] := by
  -- every part of the row is free of line breaks: blanks, digits, and what is left of the line
  have trimmed : NoBreak (trimEnd raw) := by
    obtain ⟨trail, -, split⟩ := exists_eq_trimEnd_append raw
    exact fun c mem => noBreak c (by rw [split]; exact List.mem_append_left trail mem)
  have spaces : NoBreak "  ".toList := by decide
  cases isRow with
  | bare => exact ⟨(show NoBreak (List.replicate 20 ' ') by decide).append trimmed, nofun⟩
  | @coded _ _ first count =>
    have more : NoBreak (if 4 < count then " ..".toList else []) := by
      split
      · decide
      · exact NoBreak.nil
    refine ⟨?_, nofun⟩
    exact ((((spaces.append (noBreak_hexByte first)).append spaces).append
      (noBreak_padTo ((noBreak_hexBytes _).append more) 12)).append spaces).append trimmed

/-- **A row has an address if and only if its line wrote something.** Without one it starts with
blanks in the columns of the address and the bytes. -/
theorem RowOf.take_eq_iff {entry : List Char × Nat} {row : List Char}
    (isRow : RowOf limit source code entry row) :
    (∃ address cell, Writes limit source entry.2 address cell) ↔
      row.take 20 ≠ List.replicate 20 ' ' := by
  cases isRow with
  | bare none =>
    refine ⟨fun ⟨address, cell, writes⟩ => absurd writes (none address cell), fun other => ?_⟩
    exact absurd rfl other
  | @coded raw number first count positive covers =>
    obtain ⟨cell, writes⟩ := (covers first).2 (by omega)
    refine ⟨fun _ blank => ?_, fun _ => ⟨first, cell, writes⟩⟩
    -- the first digit of the address stands in the third column
    obtain ⟨digit, digits, shape⟩ := List.exists_cons_of_ne_nil (hexByte_ne_nil first)
    rw [shape] at blank
    have isSpace : digit = ' ' := (List.cons.inj (List.cons.inj (List.cons.inj blank).2).2).1
    have isDigit : digit ≠ ' ' := forall_mem_hexByte (P := (· ≠ ' ')) (by decide) first digit
      (by rw [shape]; exact List.mem_cons_self)
    exact isDigit isSpace

end Row

/-! ## The whole listing -/

/-- Lines that are left out, and lines that have a row. -/
theorem forall₂_filterMap {α β : Type} {p : α → Prop} [DecidablePred p] {f : α → Option β}
    {R : α → β → Prop} {list : List α}
    (all : ∀ a ∈ list, if p a then f a = none else ∃ b, f a = some b ∧ R a b) :
    List.Forall₂ R (list.filter fun a => ¬p a) (list.filterMap f) := by
  -- the two lists are walked together, and a filtered element is missing from both
  induction list with
  | nil => exact .nil
  | cons a rest ih =>
    rw [List.forall_mem_cons] at all
    have here := all.1
    by_cases out : p a
    · rw [if_pos out] at here
      rw [List.filter_cons_of_neg (by simpa using out), List.filterMap_cons_none here]
      exact ih all.2
    · rw [if_neg out] at here
      obtain ⟨b, isSome, related⟩ := here
      rw [List.filter_cons_of_pos (by simpa using out), List.filterMap_cons_some isSome]
      exact .cons related (ih all.2)

/-- The rows of a listing. -/
def Layout.rows (layout : Layout) (source : List Char) : List (List Char) :=
  ((splitLines source).zipIdx 1).filterMap fun entry =>
    layout.row? entry.2 (Source.Line.parse entry.1)

section Source

variable {limit : DigitLimit} {source : List Char}

theorem listing_eq {layout : Layout} (ok : ofSource limit source = .ok layout) :
    layout.listing = joinLines (listingHead ++ layout.rows source) := by
  rw [Layout.listing, lines_of_ofSource ok]
  show joinLines (_ ++ (((splitLines source).map Source.Line.parse).zipIdx 1).filterMap _) = _
  rw [List.zipIdx_map, List.filterMap_map]
  rfl

variable {laid : Layout} (run : AddedLines limit 1 (start source).lines (start source) laid)
include run

theorem exists_row?_of_mem {entry : List Char × Nat} (mem : entry ∈ (splitLines source).zipIdx 1) :
    if AllBlank entry.1 then laid.patched.row? entry.2 (Source.Line.parse entry.1) = none
    else ∃ row, laid.patched.row? entry.2 (Source.Line.parse entry.1) = some row ∧
      RowOf limit source (Program.ofLayout laid.patched).code entry row := by
  refine exists_row? run ?_
  rw [numberedLines, List.zipIdx_map]
  exact List.mem_map_of_mem mem

/-- Every row is one line of text. -/
theorem noBreak_of_mem_rows {row : List Char} (mem : row ∈ laid.patched.rows source) :
    NoBreak row ∧ row ≠ [] := by
  obtain ⟨entry, isEntry, isRow⟩ := List.mem_filterMap.1 mem
  have here := exists_row?_of_mem run isEntry
  split at here
  · rw [here] at isRow
    cases isRow
  · obtain ⟨shown, isShown, rowOf⟩ := here
    obtain rfl := Option.some.inj (isShown.symm.trans isRow)
    exact rowOf.noBreak (noBreak_of_mem_splitLines (List.fst_mem_of_mem_zipIdx isEntry))

theorem splitLines_listing (ok : ofSource limit source = .ok laid.patched) :
    splitLines laid.patched.listing = listingHead ++ laid.patched.rows source := by
  have single : ∀ row ∈ listingHead ++ laid.patched.rows source, NoBreak row ∧ row ≠ [] := by
    intro row mem
    rcases List.mem_append.1 mem with inHead | inRows
    · have head : ∀ row ∈ listingHead, NoBreak row ∧ row ≠ [] := by decide
      exact head row inHead
    · exact noBreak_of_mem_rows run inRows
  rw [listing_eq ok]
  exact splitLines_joinLines (fun row mem => (single row mem).1) fun row mem => (single row mem).2

end Source

/-- **The listing agrees with the code.** Behind its two lines of head it has one row for every line
that is not blank, in order. The row has an address and bytes if and only if its line wrote something,
and they are those of the final code, from the first address on that the line wrote. -/
theorem listing_of_assembled {limit : DigitLimit} {source : List Char} {program : Program}
    (assembled : assembleText limit source = .ok program) :
    ∃ layout rows, ofSource limit source = .ok layout ∧ program = Program.ofLayout layout ∧
      layout.listing = joinLines (listingHead ++ rows) ∧
      splitLines layout.listing = listingHead ++ rows ∧
      List.Forall₂
        (fun entry row => RowOf limit source program.code entry row ∧
          ((∃ address cell, Writes limit source entry.2 address cell) ↔
            row.take 20 ≠ List.replicate 20 ' '))
        (((splitLines source).zipIdx 1).filter fun entry => ¬AllBlank entry.1) rows := by
  obtain ⟨layout, ok, rfl⟩ := assembleText_ok_iff.1 assembled
  obtain ⟨laid, run, known, rfl⟩ := ofSource_ok_iff.1 ok
  have rows := forall₂_filterMap fun entry mem => exists_row?_of_mem run mem
  exact ⟨laid.patched, laid.patched.rows source, ok, rfl, listing_eq ok, splitLines_listing run ok,
    rows.imp fun entry row isRow => ⟨isRow, isRow.take_eq_iff⟩⟩

/-- A source in which a later line writes over the bytes of an earlier one. -/
def overwritten : List Char :=
  "x: DB 1, 2, 3, 4, 5 ; long\n  \n; note\nDB \"\"\nORG 1\nDB end\nORG 5\nend: HLT  ".toList

/-- A source with a label, a long line, a line without bytes, a comment, a blank line, and a line that
writes over an earlier one. -/
theorem listing_of_assembled_overwritten :
    ∃ program, assembleText none overwritten = .ok program ∧
      ∃ layout rows, ofSource none overwritten = .ok layout ∧ program = Program.ofLayout layout ∧
        layout.listing = joinLines (listingHead ++ rows) ∧
        splitLines layout.listing = listingHead ++ rows ∧
        List.Forall₂
          (fun entry row => RowOf none overwritten program.code entry row ∧
            ((∃ address cell, Writes none overwritten entry.2 address cell) ↔
              row.take 20 ≠ List.replicate 20 ' '))
          (((splitLines overwritten).zipIdx 1).filter fun entry => ¬AllBlank entry.1) rows := by
  have assembled : assembleText none overwritten =
      .ok
        { code := [1, 5, 3, 4, 5, 0]
          lines := [(0, 1), (1, 6), (2, 1), (3, 1), (4, 1), (5, 8)]
          symbols := [("x".toList, 0), ("end".toList, 5)] } := by
    decide +kernel
  exact ⟨_, assembled, listing_of_assembled assembled⟩

end EightBit
