import EightBit.Proofs.Assembly.Contiguous
import EightBit.Proofs.Assembly.Statement
import EightBit.Proofs.Disassembly.RoundTrip
import EightBit.Proofs.Instr.Lookup

/-!
# Sweeping over an Assembled Program

A program of instructions and labels alone is found again by reading its code from the start. The
reader needs no map of the code: each instruction is as long as its opcode says, so behind one
instruction line it stands at the next. The operand bytes that an assembler writes are all canonical,
which is why the texts assemble to the same code.

## Main Definitions

- `Encoded`: bytes that are an instruction with canonical operands.
- `Source.Line.isInstruction`: the line has a statement.

## Main Statements

- `encoded_of_encodes`: what an instruction line writes is such an instruction.
- `exists_items_of_encoded`: reading goes line by line.
- `disassemble_assembled`: a program is recovered from its code.
-/

namespace EightBit.Disassembly

open Source Layout

/-! ## What an instruction line writes -/

/-- The bytes of an instruction with that mnemonic, whose operands can be read back. -/
def Encoded (mnemonic : List Char) (bytes : List UInt8) : Prop :=
  ∃ (instr : Instr) (values : List UInt8),
    instr.mnemonic = Instr.canonical (String.ofList mnemonic) ∧
      List.Forall₂ Canonical instr.shapes values ∧
      bytes = UInt8.ofNat instr.opcode :: values

/-- **Operands in range are encoded canonically.** -/
theorem canonical_of_mem_slot {takesLabel : Bool} {expected : Shape} {operand : Operand}
    (inSlot : operand.shape ∈ Instr.slot takesLabel expected) (inRange : operand.InRange)
    (symbols : List (List Char × Nat)) :
    Canonical expected (placeholder (operand.cell.resolve symbols)) := by
  cases expected with
  | register =>
    have isRegister : operand.shape = .register := List.mem_singleton.1 inSlot
    cases operand with
    | register r =>
      show (UInt8.ofNat r.index).toNat < 4
      cases r <;> decide
    | _ => cases isRegister
  | indirect =>
    have isIndirect : operand.shape = .indirect := List.mem_singleton.1 inSlot
    cases operand with
    | indirect base offset =>
      show (Bits.toByte (base.index + 8 * (offset % 32))).toNat % 8 < 4 ∨
        (Bits.toByte (base.index + 8 * (offset % 32))).toNat = 4
      cases base with
      | general r =>
        -- the register takes the lower three bits, whatever the offset is
        have small : r.index < 4 := by cases r <;> decide
        left
        show (Bits.toByte (r.index + 8 * (offset % 32))).toNat % 8 < 4
        rw [Bits.toByte, UInt8.toNat_ofNat']
        omega
      | stack =>
        obtain rfl : offset = 0 := inRange
        exact .inr (by decide)
    | _ => cases isIndirect
  | _ => trivial

/-- **What an instruction line writes** is its opcode and canonical operand bytes. -/
theorem encoded_of_encodes {mnemonic : List Char} {cells : List Cell}
    (encodes : Encodes mnemonic cells) (symbols : List (List Char × Nat)) :
    Encoded mnemonic (cells.map fun cell => placeholder (cell.resolve symbols)) := by
  obtain ⟨instr, operands, found, inRange, rfl⟩ := encodes
  obtain ⟨isMnemonic, spelled⟩ := Instr.lookup?_eq_some_iff.1 found
  refine ⟨instr, operands.map fun operand => placeholder (operand.cell.resolve symbols), isMnemonic,
    ?_, by rw [List.map_cons, List.map_map]; rfl⟩
  rw [List.forall₂_map_right_iff]
  rcases Instr.mem_spellings_iff.1 spelled with regular | ⟨rfl, bare⟩
  · rw [List.forall₂_map_left_iff] at regular
    have both := (List.forall₂_and_left _ _).2 ⟨inRange, regular⟩
    have canonical := both.imp fun operand expected h => canonical_of_mem_slot h.2 h.1 symbols
    exact canonical.flip
  -- the address of a bare label after `PUSH` is canonical, like every address
  · obtain ⟨operand, rfl, -⟩ := List.map_eq_singleton_iff.1 bare
    exact .cons trivial .nil

/-! ## Reading one instruction -/

/-- The first word of an instruction's text is its mnemonic. -/
theorem firstWord_instrText (instr : Instr) (operands : List UInt8) :
    (Text.firstWord (instrText instr operands)).1 = instr.mnemonic.toList := by
  obtain ⟨isWord, -⟩ := mnemonic_word instr
  have noBlank : ∀ c ∈ instr.mnemonic.toList, (!Text.isBlank c) = true :=
    fun c mem => by simp [not_isBlank_of_isLabelChar (isWord c mem)]
  -- behind the mnemonic there is nothing, or a blank
  have shape : ∃ rest, instrText instr operands = instr.mnemonic.toList ++ rest ∧
      ∀ c ∈ rest.head?, (!Text.isBlank c) = false := by
    rw [instrText_eq, written]
    split
    · exact ⟨[], (List.append_nil _).symm, by simp⟩
    · refine ⟨_, rfl, fun c first => ?_⟩
      obtain rfl := Option.some.inj first
      decide
  obtain ⟨rest, text, stops⟩ := shape
  rw [text]
  exact (Text.takeWhile_append_of_stop noBlank stops).1

/-- **The bytes of an instruction are read as one item**, whatever comes behind them. -/
theorem disassemble_instr {instr : Instr} {values : List UInt8}
    (length : values.length = instr.shapes.length) (address : Int) (rest : List UInt8) :
    disassemble address (UInt8.ofNat instr.opcode :: values ++ rest) =
      ⟨address, UInt8.ofNat instr.opcode :: values, instrText instr values⟩ ::
        disassemble (address + instr.size) rest := by
  have whole : whole? (UInt8.ofNat instr.opcode :: (values ++ rest)) = some instr := by
    rw [whole?_eq_some_iff, instr.toNat_ofNat_opcode, List.length_append]
    exact ⟨Instr.decode?_opcode instr, by omega⟩
  rw [List.cons_append, disassemble, whole]
  simp only [← length, List.take_left, List.drop_left]

/-- The item is the instruction of that mnemonic with those bytes, and can be assembled again. -/
structure Item.Shows (item : Item) (address : Int) (mnemonic : List Char)
    (bytes : List UInt8) : Prop where
  address : item.address = address
  bytes : item.bytes = bytes
  instruction : item.isData = false
  mnemonic : (Text.firstWord item.text).1 = (Instr.canonical (String.ofList mnemonic)).toList
  canonical : item.Canonical

/-- **What an instruction line writes is read as one item**, which shows the line. -/
theorem exists_item_of_encoded {mnemonic : List Char} {bytes : List UInt8}
    (encoded : Encoded mnemonic bytes) (address : Int) :
    ∃ item : Item, item.Shows address mnemonic bytes ∧ ∀ rest,
      disassemble address (bytes ++ rest) =
        item :: disassemble (address + (bytes.length : Nat)) rest := by
  obtain ⟨instr, values, isMnemonic, canonical, rfl⟩ := encoded
  have length : values.length = instr.shapes.length := canonical.length_eq.symm
  -- the bytes are as many as the instruction is long
  have size : (UInt8.ofNat instr.opcode :: values).length = instr.size := by
    rw [List.length_cons, length, Instr.size, Nat.add_comm]
  refine ⟨⟨address, UInt8.ofNat instr.opcode :: values, instrText instr values⟩,
    ⟨rfl, rfl, isData_instr _ _ instr values, ?_, ?_⟩, fun rest => ?_⟩
  · rw [firstWord_instrText, isMnemonic]
  -- the opcode is decoded to its instruction, whose operands are canonical by hypothesis
  · have decoded : Instr.decode? (UInt8.ofNat instr.opcode).toNat = some instr := by
      rw [instr.toNat_ofNat_opcode]
      exact Instr.decode?_opcode instr
    rw [canonical_instr_iff address decoded]
    exact fun pair mem => List.forall₂_zip canonical mem
  · rw [size]
    exact disassemble_instr length address rest

/-! ## Reading line by line -/

/-- The number of lines with a statement. -/
def statementCount (lines : List Line) : Nat :=
  lines.countP fun line => line.statement.isSome

/-- What the line writes is an instruction of its mnemonic, or nothing if it has no statement. -/
def Readable (limit : DigitLimit) (symbols : List (List Char × Nat)) (line : Line) : Prop :=
  match line.statement with
  | some statement => Encoded statement.mnemonic (line.bytes limit symbols)
  | none => line.bytes limit symbols = []

section Lines

variable {limit : DigitLimit} {symbols : List (List Char × Nat)}

/-- Lines without statements write nothing. -/
theorem flatMap_bytes_of_no_statement {lines : List Line}
    (noStatement : ∀ line ∈ lines, line.statement = none) :
    lines.flatMap (Line.bytes limit symbols) = [] := by
  rw [List.flatMap_eq_nil_iff]
  intro line mem
  rw [Line.bytes, Line.cells, noStatement line mem]
  rfl

/-- **Reading goes line by line**: one item for each instruction line, and then what comes behind. -/
theorem exists_items_of_readable {lines : List Line}
    (readable : ∀ line ∈ lines, Readable limit symbols line) (address : Int) :
    ∃ items : List Item, items.length = statementCount lines ∧
      (∀ item ∈ items, item.isData = false ∧ item.Canonical) ∧ ∀ rest,
        disassemble address (lines.flatMap (Line.bytes limit symbols) ++ rest) =
          items ++ disassemble
            (address + (lines.flatMap (Line.bytes limit symbols)).length) rest := by
  -- line by line; a line without bytes leaves no item, and any other line leaves one
  induction lines generalizing address with
  | nil => exact ⟨[], rfl, nofun, fun rest => by simp⟩
  | cons line lines ih =>
    rw [List.forall_mem_cons] at readable
    obtain ⟨isReadable, areReadable⟩ := readable
    -- what it means to be readable depends on whether the line has a statement
    rw [Readable] at isReadable
    cases isStatement : line.statement with
    | none =>
      simp only [isStatement] at isReadable
      obtain ⟨items, count, regular, reads⟩ := ih areReadable address
      refine ⟨items, ?_, regular, ?_⟩
      · rw [count, statementCount, statementCount, List.countP_cons_of_neg (by simp [isStatement])]
      · rw [List.flatMap_cons, isReadable]
        exact reads
    | some statement =>
      simp only [isStatement] at isReadable
      obtain ⟨item, shows, read⟩ := exists_item_of_encoded isReadable address
      obtain ⟨items, count, regular, reads⟩ :=
        ih areReadable (address + (line.bytes limit symbols).length)
      refine ⟨item :: items, ?_, ?_, fun rest => ?_⟩
      · rw [List.length_cons, count, statementCount, statementCount,
          List.countP_cons_of_pos (by simp [isStatement])]
      · exact List.forall_mem_cons.2 ⟨⟨shows.instruction, shows.canonical⟩, regular⟩
      · rw [List.flatMap_cons, List.append_assoc, read, reads, List.cons_append, List.length_append]
        congr 3
        omega

end Lines

/-! ## Whole sources -/

/-- The line has no directive. -/
def NoDirective (line : Line) : Prop :=
  ∀ statement ∈ line.statement,
    statement.mnemonic ≠ "ORG".toList ∧ statement.mnemonic ≠ "DB".toList

instance (line : Line) : Decidable (NoDirective line) :=
  inferInstanceAs (Decidable (∀ statement ∈ line.statement, _))

theorem noOrigin_of_noDirective {lines : List Line}
    (noDirective : ∀ line ∈ lines, NoDirective line) : ∀ line ∈ lines, line.NoOrigin :=
  fun line mem statement isStatement => (noDirective line mem statement isStatement).1

theorem readable_of_noDirective {limit : DigitLimit} {source : List Char} {final : Layout}
    (noDirective : ∀ line ∈ (start source).lines, NoDirective line)
    (ok : ofSource limit source = .ok final) :
    ∀ line ∈ (start source).lines, Readable limit final.symbols line := by
  intro line mem
  obtain ⟨front, back, split⟩ := List.append_of_mem mem
  -- with no `ORG` the lines are laid out one behind the other, this one included
  obtain ⟨before, -, laid, ⟨middle, ⟨labelled, -, performed⟩, -⟩, -⟩ :=
    exists_contiguous (noOrigin_of_noDirective noDirective) ok split
  rw [Readable, Line.bytes, Line.cells]
  cases isStatement : line.statement with
  | none => rfl
  | some statement =>
    simp only [isStatement] at performed ⊢
    obtain ⟨notOrigin, notData⟩ := noDirective line mem statement isStatement
    -- neither directive is there, so the line has an instruction
    rcases performed with ⟨address, moves, -⟩ | ⟨cells, emits, -, -⟩
    · exact absurd (exists_of_moveTo moves).1 notOrigin
    · rw [Option.map_some, emits]
      rcases emits_iff.1 emits with ⟨isData, -⟩ | ⟨-, ok⟩
      · exact absurd isData notData
      · exact encoded_of_encodes ((Effect.instrCells_reading _ _).value ok) final.symbols

/-- **Canonical code assembles to itself** from its texts, if it fits. -/
theorem assemble_listed_of_canonical {address : Int} {code : List UInt8}
    (room : code.length ≤ programLimit)
    (canonical : ∀ item ∈ disassemble address code, item.Canonical) :
    ∃ program, assemble (String.ofList (listed address code)) = .ok program ∧
      program.code = code := by
  -- no outcome is a rejection, since every item is canonical
  have origins : ∀ item ∈ disassemble address code, item.Origin :=
    fun _ => origin_of_mem_disassemble
  obtain ⟨outcomes, contribute, agree⟩ := exists_outcomes Numeral.check_digitLimit origins
  have accepted : none ∉ outcomes := by
    intro rejected
    obtain ⟨item, mem, agrees⟩ := exists_agrees agree rejected
    exact nomatch agrees.same.2 (canonical item mem)
  -- the chunks of the items make the code again
  obtain ⟨chunks, rfl, length, same⟩ := exists_chunks agree accepted
  rw [flatMap_bytes_disassemble] at length same
  rw [← splitLines_listed] at contribute
  obtain ⟨program, ok, isCode⟩ := assembleText_accepted contribute (length.trans_le room)
  refine ⟨program, ?_, isCode.trans (same.2 canonical)⟩
  rw [assemble, String.toList_ofList, ok]

/-- The lines of a source. -/
def sourceLines (source : String) : List Line :=
  (Text.splitLines source.toList).map Line.parse

/-- The number of bytes that a line writes. -/
def lineSize (line : Line) : Nat :=
  (line.cells (some digitLimit)).length

theorem length_flatMap_bytes (symbols : List (List Char × Nat)) (lines : List Line) :
    (lines.flatMap (Line.bytes (some digitLimit) symbols)).length = (lines.map lineSize).sum := by
  rw [List.length_flatMap]
  exact congrArg List.sum (List.map_congr_left fun line _ => length_bytes _ symbols line)

section Source

variable {source : String} {final : Layout} {front gap back : List Line} {line : Line}
  (noDirective : ∀ line ∈ sourceLines source, NoDirective line)
  (ok : ofSource (some digitLimit) source.toList = .ok final)
  (split : sourceLines source = front ++ gap ++ line :: back)
  (noStatement : ∀ other ∈ gap, other.statement = none)
include noDirective ok split noStatement

/-- A label in front of an instruction is the number of bytes in front of it. -/
theorem lookup_of_gap {name : List Char} (named : name ∈ line.label) :
    final.symbols.lookup name = some (front.map lineSize).sum := by
  rw [lookup_of_noOrigin (noOrigin_of_noDirective noDirective) ok split named, List.flatMap_append,
    flatMap_bytes_of_no_statement noStatement, List.append_nil, length_flatMap_bytes]

/-- **The item of an instruction line** has the place of the line among the instruction lines. -/
theorem exists_item_of_line {statement : Statement} (isStatement : line.statement = some statement) :
    ∃ item, (disassemble 0 (Program.ofLayout final).code)[statementCount front]? = some item ∧
      item.Shows (front.map lineSize).sum statement.mnemonic
        (line.bytes (some digitLimit) final.symbols) := by
  have isCode := (code_of_noOrigin (noOrigin_of_noDirective noDirective) ok).1
  have readable := readable_of_noDirective noDirective ok
  have lines : (start source.toList).lines = front ++ gap ++ line :: back := split
  rw [lines] at readable
  have readableFront : ∀ other ∈ front, Readable (some digitLimit) final.symbols other :=
    fun other mem => readable other (by simp [mem])
  have readableLine := readable line (by simp)
  rw [Readable] at readableLine
  simp only [isStatement] at readableLine
  -- the front is read, then the line; the gap between them has no bytes
  obtain ⟨items, count, -, reads⟩ := exists_items_of_readable readableFront 0
  obtain ⟨item, shows, read⟩ := exists_item_of_encoded readableLine
    (0 + ((front.flatMap (Line.bytes (some digitLimit) final.symbols)).length : Nat))
  refine ⟨item, ?_, ?_⟩
  · rw [isCode, lines, List.flatMap_append, List.flatMap_append,
      flatMap_bytes_of_no_statement noStatement, List.append_nil, List.flatMap_cons, reads, read,
      ← count, List.getElem?_append_right (Nat.le_refl _), Nat.sub_self]
    rfl
  · rwa [Int.zero_add, length_flatMap_bytes] at shows

end Source

/-- **A program is recovered from its code.** If a source of instructions and labels assembles, then
reading its code from the start gives one item for each instruction line and none that is data. The
item of a line stands behind as many bytes as the lines in front of it write, which is the value of
every label since the instruction line before; and it has the mnemonic of the line, a jump by its first
name. The texts of the items assemble to the same code. -/
theorem disassemble_assembled {source : String} {program : Program}
    (assembled : assemble source = .ok program)
    (noDirective : ∀ line ∈ sourceLines source, NoDirective line) :
    (disassemble 0 program.code).length = statementCount (sourceLines source) ∧
      (∀ item ∈ disassemble 0 program.code, item.isData = false) ∧
      (∀ front gap line statement back, sourceLines source = front ++ gap ++ line :: back →
        (∀ other ∈ gap, other.statement = none) → line.statement = some statement →
        ∃ item, (disassemble 0 program.code)[statementCount front]? = some item ∧
          item.address = (front.map lineSize).sum ∧ item.bytes.length = lineSize line ∧
          (Text.firstWord item.text).1 =
            (Instr.canonical (String.ofList statement.mnemonic)).toList ∧
          ∀ other ∈ gap ++ [line], ∀ name ∈ other.label,
            program.symbols.lookup name = some (front.map lineSize).sum) ∧
      ∃ again, assemble (String.ofList (listed 0 program.code)) = .ok again ∧
        again.code = program.code := by
  obtain ⟨final, ok, rfl⟩ := assemble_ok_iff.1 assembled
  obtain ⟨isCode, room⟩ := code_of_noOrigin (noOrigin_of_noDirective noDirective) ok
  obtain ⟨items, count, regular, reads⟩ :=
    exists_items_of_readable (readable_of_noDirective noDirective ok) 0
  have whole : disassemble 0 (Program.ofLayout final).code = items := by
    have all := reads []
    rw [List.append_nil, ← isCode] at all
    simpa [disassemble] using all
  refine ⟨by rw [whole]; exact count, fun item mem => ?_, ?_,
    assemble_listed_of_canonical room fun item mem => ?_⟩
  · exact (regular item (whole ▸ mem)).1
  · intro front gap line statement back split noStatement isStatement
    obtain ⟨item, found, shows⟩ :=
      exists_item_of_line noDirective ok split noStatement isStatement
    refine ⟨item, found, shows.address, ?_, shows.mnemonic, fun other mem name named => ?_⟩
    · rw [shows.bytes]
      exact length_bytes ..
    · show final.symbols.lookup name = _
      rcases List.mem_append.1 mem with inGap | isLine
      -- a label on a line of its own
      · obtain ⟨before, behind, rfl⟩ := List.append_of_mem inGap
        have earlier : sourceLines source =
            front ++ before ++ other :: (behind ++ line :: back) := by
          rw [split]
          simp
        exact lookup_of_gap noDirective ok earlier
          (fun other mem => noStatement other (List.mem_append_left _ mem)) named
      · obtain rfl := List.mem_singleton.1 isLine
        exact lookup_of_gap noDirective ok split noStatement named
  · exact (regular item (whole ▸ mem)).2

/-- A loop, whose label stands on a line of its own and is jumped to by the second name of the jump. -/
theorem disassemble_assembled_of_loop :
    ∃ source program item, assemble source = .ok program ∧
      (∀ line ∈ sourceLines source, NoDirective line) ∧
      (disassemble 0 program.code).length = 3 ∧
      (disassemble 0 program.code)[1]? = some item ∧ item.address = 3 ∧
      (Text.firstWord item.text).1 = "JNZ".toList ∧
      program.symbols.lookup "again".toList = some 3 ∧
      ∃ again, assemble (String.ofList (listed 0 program.code)) = .ok again ∧
        again.code = program.code := by
  let source := "  MOV AL, 5\nagain:\n  JNE again\n  HLT"
  let program : Program :=
    { code := [1, 0, 5, 34, 3, 0]
      lines := [(0, 1), (1, 1), (2, 1), (3, 3), (4, 3), (5, 4)]
      symbols := [("again".toList, 3)] }
  -- the label is found at the address that the disassembler shows
  have assembled : assemble source = .ok program := by decide +kernel
  have noDirective : ∀ line ∈ sourceLines source, NoDirective line := by decide +kernel
  obtain ⟨count, -, items, again⟩ := disassemble_assembled assembled noDirective
  obtain ⟨item, found, address, -, mnemonic, labels⟩ :=
    items [Line.parse "  MOV AL, 5".toList] [Line.parse "again:".toList]
      (Line.parse "  JNE again".toList) ⟨"JNE".toList, ["again".toList]⟩
      [Line.parse "  HLT".toList] (by decide +kernel) (by decide +kernel) (by decide +kernel)
  exact ⟨source, program, item, assembled, noDirective, count.trans (by decide +kernel), found,
    address.trans (by decide +kernel), mnemonic.trans (by decide +kernel),
    labels (Line.parse "again:".toList) (by simp) "again".toList (by decide +kernel), again⟩

end EightBit.Disassembly
