import EightBit.Proofs.Assembly.Contiguous
import EightBit.Proofs.Assembly.Report
import Mathlib.Order.Bounds.Defs

/-!
# Well-Formed Programs

A program that comes of an assembly fits below the display region and ends where the last byte was
written. Its line map covers what was written and nothing else, its gaps are zero, its symbols are
the labels of the source, and no placeholder is left in it.

What was written is said of the source, line by line, and not of the record that the passes keep.

## Main Definitions

- `Emits`: some line of the source writes at an address.
- `numberedLines`, `definedLabels`: the lines of a source, and the labels in front of them.
- `Program.WellFormed`: what holds of every program that comes of an assembly.

## Main Statements

- `symbols_of_run`: the symbols are the labels of the lines, with addresses.
- `emits_iff_mem_emitted`: the addresses on record are those that some line writes at.
- `wellFormed_of_assembled`: every source that assembles gives a well-formed program.
-/

namespace EightBit

open Layout Text

/-! ## What a source writes and defines -/

/-- The lines of a source with their numbers, which start at 1. -/
def numberedLines (source : List Char) : List (Source.Line × Nat) :=
  ((splitLines source).map Source.Line.parse).zipIdx 1

/-- The labels that the lines of a source define, in order. -/
def definedLabels (source : List Char) : List (List Char) :=
  (start source).lines.filterMap Source.Line.label

/-- Some line of the source writes a cell at the address. -/
def Emits (limit : DigitLimit) (source : List Char) (address : Nat) : Prop :=
  ∃ number cell, Writes limit source number address cell

/-- The statement is data or an instruction. -/
def Source.Statement.IsCode (statement : Source.Statement) : Prop :=
  statement.mnemonic = "DB".toList ∨ String.ofList statement.mnemonic ∈ Instr.mnemonics

/-- **Only data and instructions** write cells. -/
theorem isCode_of_mem_cells {limit : DigitLimit} {line : Source.Line} {cell : Cell}
    (mem : cell ∈ line.cells limit) : ∃ statement ∈ line.statement, statement.IsCode := by
  rw [Source.Line.cells] at mem
  split at mem
  · next cells effect =>
    obtain ⟨statement, isStatement, emits⟩ := Option.map_eq_some_iff.1 effect
    refine ⟨statement, isStatement, ?_⟩
    rcases emits_iff.1 emits with ⟨isData, -, -⟩ | ⟨-, encoded⟩
    · exact .inl isData
    · exact .inr (Effect.instrCells_ok_iff.1 encoded).1
  · cases mem

/-- A line that stands behind others has the next number. -/
theorem mem_numberedLines_iff {source : List Char} {line : Source.Line} {number : Nat} :
    (line, number) ∈ numberedLines source ↔
      ∃ front back, (start source).lines = front ++ line :: back ∧ number = 1 + front.length := by
  show (line, number) ∈ (start source).lines.zipIdx 1 ↔ _
  rw [List.mem_zipIdx_iff_le_and_getElem?_sub]
  constructor
  · rintro ⟨positive, found⟩
    obtain ⟨inRange, isLine⟩ := List.getElem?_eq_some_iff.1 found
    have isLine : (start source).lines[number - 1] = line := isLine
    -- the lines in front of it and behind it are what is taken and dropped
    refine ⟨(start source).lines.take (number - 1), (start source).lines.drop (number - 1 + 1), ?_, ?_⟩
    · rw [← isLine, List.getElem_cons_drop, List.take_append_drop]
    · rw [List.length_take_of_le (Nat.le_of_lt inRange)]
      exact (Nat.add_sub_cancel' positive).symm
  · rintro ⟨front, back, split, rfl⟩
    refine ⟨by omega, ?_⟩
    rw [split, Nat.add_sub_cancel_left, List.getElem?_append_right (Nat.le_refl _), Nat.sub_self]
    rfl

theorem Writes.mem_cells {limit : DigitLimit} {source : List Char} {number address : Nat}
    {cell : Cell} (writes : Writes limit source number address cell) :
    ∃ line, (line, number) ∈ numberedLines source ∧ cell ∈ line.cells limit := by
  obtain ⟨front, line, back, before, split, isNumber, -, isCell⟩ := writes
  refine ⟨line, mem_numberedLines_iff.2 ⟨front, back, split, isNumber⟩, ?_⟩
  exact List.mem_of_getElem? (cellAt_eq_some_iff.1 isCell).2

/-! ## Symbols -/

section Run

variable {limit : DigitLimit} {number : Nat} {lines : List Source.Line} {layout after : Layout}

/-- **Lines define their labels in order.** -/
theorem symbols_of_run (run : AddedLines limit number lines layout after) :
    after.symbols.map Prod.fst =
      layout.symbols.map Prod.fst ++ lines.filterMap Source.Line.label := by
  induction lines generalizing number layout with
  | nil =>
    have same : after = layout := run
    rw [same, List.filterMap_nil, List.append_nil]
  | cons line rest ih =>
    obtain ⟨middle, first, later⟩ := run
    rw [ih later, (symbols_of_added first).2, List.map_append, List.append_assoc,
      List.filterMap_cons]
    cases line.label <;> rfl

/-- The symbols have different names, and each name is a label. -/
structure DistinctLabels (symbols : List (List Char × Nat)) : Prop where
  names : (symbols.map Prod.fst).Nodup
  labels : ∀ name ∈ symbols.map Prod.fst, Operand.isLabel name = true

theorem lookup_eq_none_iff_not_mem {symbols : List (List Char × Nat)} {name : List Char} :
    symbols.lookup name = none ↔ name ∉ symbols.map Prod.fst := by
  rw [List.lookup_eq_none_iff, List.mem_map]
  constructor
  · rintro other ⟨entry, mem, rfl⟩
    simpa using other entry mem
  · intro missing entry mem
    simpa using fun same => missing ⟨entry, mem, same.symm⟩

/-- Every label is new when it is defined. -/
theorem distinct_of_run (run : AddedLines limit number lines layout after)
    (distinct : DistinctLabels layout.symbols) : DistinctLabels after.symbols := by
  -- symbols grow by definitions only, so that this is the one case with something to show
  refine run.keeps (P := fun layout => DistinctLabels layout.symbols) ?_ ?_ ?_ distinct
  · intro layout name isLabel new ih
    have missing := lookup_eq_none_iff_not_mem.1 new
    refine ⟨?_, ?_⟩
    · rw [List.map_append, List.nodup_append]
      refine ⟨ih.names, List.nodup_singleton _, fun old mem other single same => ?_⟩
      rw [same, List.mem_singleton.1 single] at mem
      exact missing mem
    · intro other mem
      rw [List.map_append, List.mem_append] at mem
      rcases mem with old | single
      · exact ih.labels other old
      · rw [List.mem_singleton.1 single]
        exact isLabel
  · exact fun _ _ _ _ ih => ih
  · exact fun _ _ _ _ _ _ _ _ _ ih => ih

end Run

/-! ## Programs -/

/-- **What holds of every program that comes of an assembly.** -/
structure Program.WellFormed (limit : DigitLimit) (source : List Char) (program : Program) :
    Prop where
  /-- The code lies below the display region. -/
  room : program.code.length ≤ programLimit
  /-- The code ends at the highest address that is written. -/
  ends : (program.code = [] ∧ ∀ address, ¬Emits limit source address) ∨
    ∃ highest, IsGreatest {address | Emits limit source address} highest ∧
      program.code.length = highest + 1
  /-- What no line writes is zero. -/
  gaps : ∀ address, address < program.code.length → ¬Emits limit source address →
    program.code[address]? = some 0
  /-- The line map has each of its addresses once. -/
  once : (program.lines.map Prod.fst).Nodup
  /-- Its addresses are those that are written. -/
  mapped : ∀ address, address ∈ program.lines.map Prod.fst ↔ Emits limit source address
  /-- A byte is mapped to the line that writes it last, which is data or an instruction. -/
  owned : ∀ entry ∈ program.lines, WritesLast limit source entry.2 entry.1 ∧
    ∃ line, (line, entry.2) ∈ numberedLines source ∧ ∃ statement ∈ line.statement, statement.IsCode
  /-- The symbols are the labels of the source. -/
  defined : program.symbols.map Prod.fst = definedLabels source
  /-- No two of them are the same, and each is a label. -/
  distinct : DistinctLabels program.symbols
  /-- Every label is an address of memory. -/
  addresses : ∀ entry ∈ program.symbols, entry.2 ≤ 255
  /-- Every reference has its label, and the code has the address of the newest one in its place. -/
  resolved : ∀ number address label, Writes limit source number address (.reference label) →
    label ∈ definedLabels source ∧ ∃ newest byte, NewestReference limit source address newest ∧
      program.symbols.lookup newest = some byte.toNat ∧ program.code[address]? = some byte

/-- A source assembles if both passes succeed, to the program of the layout they leave. -/
theorem assembleText_ok_iff {limit : DigitLimit} {source : List Char} {program : Program} :
    assembleText limit source = .ok program ↔
      ∃ final, ofSource limit source = .ok final ∧ program = Program.ofLayout final := by
  rw [assembleText]
  cases ofSource limit source with
  | ok layout => simp [eq_comm]
  | error stopped => simp

section Source

variable {limit : DigitLimit} {source : List Char} {laid : Layout}

theorem length_code (layout : Layout) : (Program.ofLayout layout).code.length = layout.extent := by
  simp [Program.ofLayout]

/-- The line map has its addresses in order. -/
theorem nodup_lines (layout : Layout) : ((Program.ofLayout layout).lines.map Prod.fst).Nodup := by
  have sorted : ∀ addresses : List Nat, List.Sublist ((addresses.filterMap fun address =>
      (layout.owner? address).map fun line => (address, line)).map Prod.fst) addresses := by
    intro addresses
    induction addresses with
    | nil => exact .slnil
    | cons address rest ih =>
      rw [List.filterMap_cons]
      cases layout.owner? address with
      | none => exact .cons address ih
      | some line => exact .cons_cons address ih
  exact (sorted _).nodup List.nodup_range

variable (run : AddedLines limit 1 (start source).lines (start source) laid)
include run

/-- **The addresses on record** are those that some line writes at. -/
theorem emits_iff_mem_emitted {address : Nat} :
    Emits limit source address ↔ ∃ emission ∈ laid.emitted, emission.address = address := by
  constructor
  · rintro ⟨number, cell, writes⟩
    exact ⟨⟨address, cell, number⟩, (mem_emitted_iff run).2 writes, rfl⟩
  · rintro ⟨emission, mem, rfl⟩
    exact ⟨emission.line, emission.cell, (mem_emitted_iff run).1 mem⟩

/-- What is written lies below the extent. -/
theorem lt_extent_of_emits {address : Nat} (emits : Emits limit source address) :
    address < laid.extent := by
  obtain ⟨emission, mem, rfl⟩ := (emits_iff_mem_emitted run).1 emits
  exact lt_extent_iff.2 ⟨emission, mem, Nat.le_refl _⟩

/-- The extent is zero, or one more than the highest address that is written. -/
theorem extent_cases :
    (laid.extent = 0 ∧ ∀ address, ¬Emits limit source address) ∨
      ∃ highest, IsGreatest {address | Emits limit source address} highest ∧
        laid.extent = highest + 1 := by
  cases extent : laid.extent with
  | zero =>
    refine .inl ⟨rfl, fun address emits => ?_⟩
    have := lt_extent_of_emits run emits
    omega
  | succ highest =>
    refine .inr ⟨highest, ⟨?_, fun address emits => ?_⟩, rfl⟩
    · -- something is written there or above, and nothing is above
      have inside : highest < laid.extent := by omega
      obtain ⟨emission, mem, above⟩ := lt_extent_iff.1 inside
      have below : emission.address < laid.extent := lt_extent_iff.2 ⟨emission, mem, Nat.le_refl _⟩
      exact (emits_iff_mem_emitted run).2 ⟨emission, mem, by omega⟩
    · have := lt_extent_of_emits run emits
      omega

/-- Nothing is found at an address that no line writes at. -/
theorem byteAt_of_not_emits {address : Nat} (gap : ¬Emits limit source address) :
    laid.patched.byteAt address = 0 := by
  have elsewhere : ∀ emission ∈ laid.emitted, emission.address ≠ address :=
    fun emission mem here => gap ((emits_iff_mem_emitted run).2 ⟨emission, mem, here⟩)
  have noEmission : laid.emission? address = none :=
    List.find?_eq_none.2 fun emission mem => by simpa using elsewhere emission mem
  have noReference : laid.reference? address = none :=
    List.findSome?_eq_none_iff.2 fun emission mem => if_neg (elsewhere emission mem)
  rw [byteAt_patched (patches_of_added run rfl), noReference, noEmission]
  rfl

variable (known : ∀ reference ∈ laid.references, (laid.symbols.lookup reference.2).isSome)
include known

/-- **No placeholder is left**: the address of the newest label stands there. -/
theorem exists_byte_of_reference {number address : Nat} {label : List Char}
    (writes : Writes limit source number address (.reference label)) :
    label ∈ definedLabels source ∧ ∃ newest byte, NewestReference limit source address newest ∧
      laid.symbols.lookup newest = some byte.toNat ∧ laid.patched.byteAt address = byte := by
  have inMemory : InMemory laid := inMemory_of_added run ⟨Nat.zero_le _, nofun⟩
  have mem : ⟨address, .reference label, number⟩ ∈ laid.emitted := (mem_emitted_iff run).2 writes
  have isReference : (address, label) ∈ laid.references := mem_references_iff.2 ⟨_, mem, rfl, rfl⟩
  -- pass 2 has found every label, and this one is among them
  constructor
  · have isKnown := known _ isReference
    rw [Option.isSome_iff_ne_none, ne_eq, lookup_eq_none_iff_not_mem, not_not,
      symbols_of_run run] at isKnown
    exact isKnown
  -- there is a newest reference at the address, which need not be this one
  · obtain ⟨newest, found⟩ : ∃ newest, laid.reference? address = some newest := by
      refine Option.isSome_iff_exists.1 (Option.isSome_iff_ne_none.2 fun missing => ?_)
      have skipped := List.findSome?_eq_none_iff.1 missing _ mem
      rw [if_pos rfl] at skipped
      cases skipped
    obtain ⟨target, isTarget⟩ := Option.isSome_iff_exists.1
      (known _ (mem_references_of_reference? found))
    have isTarget : laid.symbols.lookup newest = some target := isTarget
    refine ⟨newest, UInt8.ofNat target, (reference?_eq_some_iff run).1 found, ?_, ?_⟩
    · rw [toNat_ofNat_of_le (le_of_lookup inMemory.symbols isTarget)]
      exact isTarget
    · rw [byteAt_patched (patches_of_added run rfl), found]
      show UInt8.ofNat ((laid.symbols.lookup newest).getD 0) = _
      rw [isTarget]
      rfl

end Source

/-- What assembles fits below the display region. -/
theorem length_code_le {limit : DigitLimit} {source : List Char} {program : Program}
    (assembled : assembleText limit source = .ok program) : program.code.length ≤ programLimit := by
  obtain ⟨final, ok, rfl⟩ := assembleText_ok_iff.1 assembled
  have sound := ofSource_sound limit source
  rw [ok] at sound
  have bounded : final.Bounded source := sound
  rw [length_code]
  by_contra long
  obtain ⟨emission, mem, above⟩ := lt_extent_iff.1 (Nat.lt_of_not_le long)
  exact absurd (bounded.stored emission mem) (Nat.not_lt.2 above)

/-- **A source that assembles gives a well-formed program**: it fits, it ends where the last byte was
written, its line map and its symbols are those of the source, its gaps are zero, and every
placeholder has become a byte. -/
theorem wellFormed_of_assembled {limit : DigitLimit} {source : List Char} {program : Program}
    (assembled : assembleText limit source = .ok program) : program.WellFormed limit source := by
  obtain ⟨final, ok, rfl⟩ := assembleText_ok_iff.1 assembled
  -- the bounds of the layout and the run of its first pass say everything about the program
  have sound := ofSource_sound limit source
  rw [ok] at sound
  have bounded : final.Bounded source := sound
  obtain ⟨laid, run, known, rfl⟩ := ofSource_ok_iff.1 ok
  have length : (Program.ofLayout laid.patched).code.length = laid.extent := length_code _
  have inCode {address : Nat} (inRange : address < laid.patched.extent) :
      (Program.ofLayout laid.patched).code[address]? = some (laid.patched.byteAt address) :=
    getElem?_code inRange
  -- the line map is the search for owners, and the owner is the last writer
  have owned {address number : Nat} : (address, number) ∈ (Program.ofLayout laid.patched).lines ↔
      WritesLast limit source number address := by
    refine mem_lines_iff.trans ((and_congr_right fun _ => owner?_eq_some_iff run).trans ?_)
    exact and_iff_right_of_imp fun ⟨⟨cell, writes⟩, _⟩ => lt_extent_of_emits run ⟨number, cell, writes⟩
  have distinct : DistinctLabels laid.symbols := distinct_of_run run ⟨List.nodup_nil, nofun⟩
  refine
    { room := ?_
      ends := ?_
      gaps := fun address inRange gap => ?_
      once := nodup_lines _
      mapped := fun address => ?_
      owned := fun ⟨address, number⟩ mem => ?_
      defined := symbols_of_run run
      distinct := distinct
      addresses := bounded.symbols
      resolved := fun number address label writes => ?_ }
  · rw [length]
    by_contra long
    obtain ⟨emission, mem, above⟩ := lt_extent_iff.1 (Nat.lt_of_not_le long)
    exact absurd (bounded.stored emission mem) (Nat.not_lt.2 above)
  · rw [← List.length_eq_zero_iff, length]
    exact extent_cases run
  · rw [length] at inRange
    rw [inCode inRange, byteAt_of_not_emits run gap]
  -- an address is mapped if and only if something has been emitted there
  · constructor
    · intro mem
      obtain ⟨⟨_, number⟩, entry, rfl⟩ := List.mem_map.1 mem
      obtain ⟨⟨cell, writes⟩, -⟩ := owned.1 entry
      exact ⟨number, cell, writes⟩
    · intro emits
      obtain ⟨emission, mem, rfl⟩ := (emits_iff_mem_emitted run).1 emits
      obtain ⟨newest, found⟩ := Option.isSome_iff_exists.1 (isSome_emission?_of_mem mem)
      have isOwner : laid.owner? emission.address = some newest.line := by rw [owner?, found]; rfl
      exact List.mem_map.2 ⟨_, owned.2 ((owner?_eq_some_iff run).1 isOwner), rfl⟩
  · have last := owned.1 mem
    obtain ⟨⟨cell, writes⟩, -⟩ := id last
    obtain ⟨line, isLine, inCells⟩ := writes.mem_cells
    exact ⟨last, line, isLine, isCode_of_mem_cells inCells⟩
  · obtain ⟨isDefined, newest, byte, isNewest, isTarget, isByte⟩ :=
      exists_byte_of_reference run known writes
    refine ⟨isDefined, newest, byte, isNewest, isTarget, ?_⟩
    rw [inCode (lt_extent_of_emits run ⟨number, _, writes⟩), isByte]

/-- Code with a gap, that moves back over a reference, and a label above everything. -/
theorem wellFormed_of_moved_back :
    ∃ source program, assembleText (some digitLimit) source = .ok program ∧
      program.code = [26, 255, 0, 0, 0, 5] ∧ program.WellFormed (some digitLimit) source := by
  let source := "ORG 1\nDB 9\nORG 5\nDB 5\nORG 0\nJMP far\nORG 255\nfar:".toList
  let program : Program :=
    { code := [26, 255, 0, 0, 0, 5]
      lines := [(0, 6), (1, 6), (5, 4)]
      symbols := [("far".toList, 255)] }
  have assembled : assembleText (some digitLimit) source = .ok program := by decide +kernel
  exact ⟨source, program, assembled, rfl, wellFormed_of_assembled assembled⟩

end EightBit
