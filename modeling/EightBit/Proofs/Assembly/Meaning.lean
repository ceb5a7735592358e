import EightBit.Proofs.Assembly.WellFormed
import EightBit.Proofs.Operand.Addresses

/-!
# What Assembled Lines Mean

A line with an instruction becomes an opcode and one byte for each operand. What such a byte means to
the machine depends on the shape that the instruction has in its place, and what the operand means in
the source depends on how it is written. Both come to the same value, for all registers and memories.

## Main Definitions

- `Operand.value?`: the value of an operand, as it is written.
- `Operand.EncodedBy`: the byte that stands for an operand in a program.

## Main Statements

- `operand?_of_encodedBy`: the byte of an operand has the value of the operand.
- `exists_instr_of_line`: the bytes of a line with an instruction.
-/

namespace EightBit

open Layout

/-! ## Operands -/

namespace Operand

/-- The value of an operand with these registers, this memory and these labels. -/
def value? (regs : Registers) (memory : Memory) (symbols : List (List Char × Nat)) :
    Operand → Option UInt8
  | .register r => some (regs.get r)
  | .immediate byte => some byte
  | .address place => (memory.load place.toNat).toOption
  | .addressOf name => (symbols.lookup name).bind fun place => (memory.load place).toOption
  | .indirect base offset => (memory.load (regs.pointed base + offset)).toOption
  | .stackOffset offset => (memory.load (regs.sp + offset)).toOption
  | .label name => (symbols.lookup name).map UInt8.ofNat
  | .text _ => none

/-- The byte stands for the operand, whose offset it holds without loss. -/
structure EncodedBy (symbols : List (List Char × Nat)) (operand : Operand) (code : UInt8) : Prop where
  inRange : operand.InRange
  cell : operand.cell.StandsFor symbols code

variable {symbols : List (List Char × Nat)} {operand : Operand} {code : UInt8}

/-- In a slot for an immediate byte or for a destination, the byte itself is the value. -/
theorem eq_of_mem_slot {takesLabel : Bool} {expected : Shape} (encoded : expected.isEncoded = true)
    (inSlot : operand.shape ∈ Instr.slot takesLabel expected) :
    expected = operand.shape ∨
      (expected = .immediate ∨ expected = .target) ∧
        (operand.shape = .immediate ∨ operand.shape = .label) := by
  have noTarget : operand.shape ≠ .target := by
    cases operand <;> nofun
  generalize operand.shape = shape at inSlot noTarget
  cases expected with
  | immediate => cases takesLabel <;> simp_all [Instr.slot]
  | target => cases takesLabel <;> simp_all [Instr.slot]
  | label => cases encoded
  | text => cases encoded
  | _ => exact .inl (List.mem_singleton.1 inSlot).symm

/-- **The byte of an operand has the value of the operand**, in every slot that takes it. -/
theorem operand?_of_encodedBy (encodedBy : operand.EncodedBy symbols code) {takesLabel : Bool}
    {expected : Shape} (encoded : expected.isEncoded = true)
    (inSlot : operand.shape ∈ Instr.slot takesLabel expected) (regs : Registers) (memory : Memory) :
    (regs.operand? memory expected code).toOption = operand.value? regs memory symbols := by
  -- immediate bytes and targets are passed on as they are; only addresses are looked up in memory
  have byteItself : expected = .immediate ∨ expected = .target →
      regs.operand? memory expected code = .ok code := by
    rintro (rfl | rfl) <;> rfl
  have loaded : ∀ address, ((memory.load address).mapError Failure.outOfBounds).toOption =
      (memory.load address).toOption := by
    intro address
    cases memory.load address <;> rfl
  obtain ⟨inRange, standsFor⟩ := encodedBy
  -- either the operand has the shape that is expected, or a label stands where a byte is
  rcases eq_of_mem_slot encoded inSlot with rfl | ⟨isByte, isShape⟩
  · cases operand with
    | register register =>
      -- its code is one of the numbers of registers, which is found again by its index
      obtain rfl : code = UInt8.ofNat register.index := standsFor
      have index : (UInt8.ofNat register.index).toNat = register.index := by
        cases register <;> rfl
      show ((regs.read? _).mapError Failure.trap).toOption = _
      rw [index, Registers.read?, Register.ofIndex?_index]
      rfl
    | immediate value =>
      obtain rfl : code = value := standsFor
      rfl
    | address address =>
      obtain rfl : code = address := standsFor
      exact loaded _
    | addressOf name =>
      have isAddress : symbols.lookup name = some code.toNat := standsFor
      rw [value?, isAddress]
      exact loaded _
    | indirect base offset =>
      obtain rfl : code = (Operand.indirect base offset).code := standsFor
      -- the code decodes to the base and the offset, so both name one place
      have place := Option.some.inj (regs.address?_indirect inRange)
      rw [value?, ← place]
      exact loaded _
    | stackOffset offset =>
      obtain rfl : code = (Operand.stackOffset offset).code := standsFor
      have place := Option.some.inj (regs.address?_stackOffset inRange)
      rw [value?, ← place]
      exact loaded _
    | label name => cases encoded
    | text codes => cases encoded
  · rw [byteItself isByte]
    cases operand with
    | immediate value =>
      obtain rfl : code = value := standsFor
      rfl
    | label name =>
      have isAddress : symbols.lookup name = some code.toNat := standsFor
      rw [value?, isAddress, Option.map_some, UInt8.ofNat_toNat]
      rfl
    -- no other operand has one of these shapes
    | _ => rcases isShape with other | other <;> cases other

/-- Only registers and memory count for a value, and of the registers neither the status nor the
instruction pointer. -/
theorem value?_congr {regs other : Registers} (general : ∀ register, other.get register = regs.get register)
    (sp : other.sp = regs.sp) (memory : Memory) :
    operand.value? other memory symbols = operand.value? regs memory symbols := by
  cases operand with
  | register register => rw [value?, value?, general]
  | indirect base offset =>
    have pointed : other.pointed base = regs.pointed base := by
      cases base with
      | general register => rw [Registers.pointed, Registers.pointed, general]
      | stack => exact sp
    rw [value?, value?, pointed]
  | stackOffset offset => rw [value?, value?, sp]
  | _ => rfl

end Operand

/-! ## Lines -/

/-- What is read one after the other is one value for each text. -/
theorem forall₂_of_mapM_ok {ε α β : Type} {f : α → Except ε β} {sources : List α} {values : List β}
    (ok : sources.mapM f = .ok values) :
    List.Forall₂ (fun source value => f source = .ok value) sources values := by
  induction sources generalizing values with
  | nil =>
    cases ok
    exact .nil
  | cons source rest ih =>
    rw [List.mapM_cons] at ok
    obtain ⟨first, isFirst, ok⟩ := bind_ok_iff.1 ok
    obtain ⟨later, areLater, ok⟩ := bind_ok_iff.1 ok
    cases ok
    exact .cons isFirst (ih areLater)

theorem exists_single_of_forall₂ {α β : Type} {R : α → β → Prop} {a : α} {values : List β}
    (related : List.Forall₂ R [a] values) : ∃ x, values = [x] ∧ R a x := by
  obtain _ | ⟨first, _ | _⟩ := related
  exact ⟨_, rfl, first⟩

theorem exists_pair_of_forall₂ {α β : Type} {R : α → β → Prop} {a b : α} {values : List β}
    (related : List.Forall₂ R [a, b] values) : ∃ x y, values = [x, y] ∧ R a x ∧ R b y := by
  obtain _ | ⟨first, _ | ⟨second, _ | _⟩⟩ := related
  exact ⟨_, _, rfl, first, second⟩

/-- What a cell stands for is the byte that is written in the end. -/
theorem placeholder_resolve {symbols : List (List Char × Nat)} {cell : Cell} {own : UInt8}
    (standsFor : cell.StandsFor symbols own) : placeholder (cell.resolve symbols) = own := by
  cases cell with
  | byte value =>
    obtain rfl : own = value := standsFor
    rfl
  | reference label =>
    have isAddress : symbols.lookup label = some own.toNat := standsFor
    rw [Cell.resolve, isAddress]
    exact UInt8.ofNat_toNat

section Source

variable {limit : DigitLimit} {source : List Char} {program : Program}
  (assembled : assembleText limit source = .ok program)
include assembled

/-- In a source that assembles, every line has had its effect, and every cell of it stands for a
byte. -/
theorem exists_added {line : Source.Line} (isLine : line ∈ (start source).lines) :
    (∃ number before after, Added limit number line before after) ∧
      ∀ cell ∈ line.cells limit, ∃ own, cell.StandsFor program.symbols own := by
  obtain ⟨final, ok, rfl⟩ := assembleText_ok_iff.1 assembled
  obtain ⟨laid, run, known, rfl⟩ := ofSource_ok_iff.1 ok
  have inMemory : InMemory laid := inMemory_of_added run ⟨Nat.zero_le _, nofun⟩
  obtain ⟨front, back, split⟩ := List.append_of_mem isLine
  rw [split, addedLines_append] at run
  obtain ⟨before, -, after, added, later⟩ := run
  refine ⟨⟨_, before, after, added⟩, fun cell mem => ?_⟩
  -- what the line has put on record is there to the end
  rw [← cell_placed (1 + front.length) before.cursor (line.cells limit)] at mem
  obtain ⟨emission, isPlaced, rfl⟩ := List.mem_map.1 mem
  refine exists_standsFor inMemory known ((mem_emitted_of_added later).2 (.inl ?_))
  rw [emitted_of_added added]
  exact List.mem_append_left _ (List.mem_reverse.2 isPlaced)

/-- **The bytes of a line with an instruction** are its opcode and one byte for each operand. -/
theorem exists_instr_of_line {line : Source.Line} (isLine : line ∈ (start source).lines)
    {statement : Source.Statement} (isStatement : line.statement = some statement)
    (isInstr : String.ofList statement.mnemonic ∈ Instr.mnemonics) :
    ∃ instr operands codes, List.Forall₂ (fun source operand => Operand.classify limit source =
        .ok operand) statement.operands operands ∧
      Instr.lookup? (String.ofList statement.mnemonic) (operands.map Operand.shape) = some instr ∧
      line.bytes limit program.symbols = UInt8.ofNat instr.opcode :: codes ∧
      List.Forall₂ (Operand.EncodedBy program.symbols) operands codes := by
  obtain ⟨⟨number, before, after, labelled, -, performed⟩, standFor⟩ := exists_added assembled isLine
  -- the mnemonic of an instruction is no directive, so the line has neither moved nor held data
  have notDirective : statement.mnemonic ≠ "ORG".toList ∧ statement.mnemonic ≠ "DB".toList := by
    constructor
    · intro isOrg
      rw [isOrg] at isInstr
      exact absurd isInstr (by decide)
    · intro isData
      rw [isData] at isInstr
      exact absurd isInstr (by decide)
  rw [Source.Line.bytes]
  simp only [isStatement] at performed
  rcases performed with ⟨address, moves, -⟩ | ⟨cells, emits, -, -⟩
  · exact absurd (exists_of_moveTo moves).1 notDirective.1
  · rcases emits_iff.1 emits with ⟨isData, -, -⟩ | ⟨-, encoded⟩
    · exact absurd isData notDirective.2
    · have isCells : line.cells limit = cells := by
        rw [Source.Line.cells, isStatement, Option.map_some, emits]
      -- its cells are the opcode and one cell for each operand
      obtain ⟨-, operands, instr, read, found, rfl⟩ := Effect.instrCells_ok_iff.1 encoded
      rw [isCells] at standFor ⊢
      refine ⟨instr, operands, operands.map fun operand =>
        placeholder (operand.cell.resolve program.symbols), forall₂_of_mapM_ok read, found, ?_, ?_⟩
      · rw [List.map_cons, List.map_map]
        rfl
      · refine List.forall₂_map_right_iff.2 (List.forall₂_same.2 fun operand mem => ?_)
        -- each of them has been resolved to the byte that the operand stands for
        obtain ⟨own, standsFor⟩ := standFor _ (List.mem_cons_of_mem _ (List.mem_map_of_mem mem))
        obtain ⟨text, -, isOperand⟩ := (mem_of_mapM_ok read).2 operand mem
        refine ⟨(Operand.classify_reading text).value isOperand, ?_⟩
        rwa [placeholder_resolve standsFor]

end Source

end EightBit
