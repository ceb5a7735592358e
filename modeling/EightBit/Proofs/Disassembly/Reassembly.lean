import EightBit.Proofs.Assembly.Meaning
import EightBit.Proofs.Disassembly.RoundTrip
import EightBit.Proofs.Machine.Boundaries

/-!
# Reassembling an Instruction

The text of an instruction does not tell every operand byte from every other. A register in brackets has
three bits in its byte, and five of the eight numbers stand for the stack pointer; an offset from the stack
pointer has a shape of its own besides. So an instruction can come back from its text with another byte, and
a move even with another opcode. The bytes that come back denote the same places in memory.

## Main Definitions

- `Synonymous`: two operand bytes that mean the same to the machine.
- `Restates`: two instructions whose operands mean the same.

## Main Statements

- `exists_synonym`: what the text of a register in brackets is read as.
- `assemble_instrText`: the text of an instruction assembles to one that restates it.
-/

namespace EightBit.Disassembly

open Layout

/-! ## Operand bytes that mean the same -/

/-- **Two operand bytes mean the same**: they are one byte of one shape, or they denote one place in
memory, whatever the registers hold. -/
inductive Synonymous : Shape → UInt8 → Shape → UInt8 → Prop
  | refl {shape code} : Synonymous shape code shape code
  | place {shape code other value} (address : Registers → Int)
      (one : ∀ regs : Registers, regs.address? shape code = some (address regs))
      (another : ∀ regs : Registers, regs.address? other value = some (address regs)) :
      Synonymous shape code other value

/-- Bytes that denote no place mean the same only if they are the same. -/
theorem Synonymous.eq_of_placeless {shape other : Shape} {code value : UInt8}
    (synonymous : Synonymous shape code other value)
    (placeless : ∀ regs : Registers, regs.address? shape code = none) : other = shape ∧ value = code := by
  cases synonymous with
  | refl => exact ⟨rfl, rfl⟩
  | place address one another =>
    have place := one {}
    rw [placeless] at place
    cases place

/-! ## Reading one operand -/

/-- The text of a register in brackets is read as one, or as an offset from the stack pointer; either way
it denotes what the byte denotes. -/
theorem exists_synonym {limit : DigitLimit} (room : limit.check 3 = .ok ()) (byte : UInt8) :
    ∃ operand value, Operand.classify limit (shown .indirect byte) = .ok operand ∧
      operand.cell = .byte value ∧ (operand.shape = .indirect ∨ operand.shape = .stackOffset) ∧
      Synonymous .indirect byte operand.shape value := by
  have bound : byte.toNat < 256 := byte.toNat_lt
  have small : -16 ≤ offsetOf byte.toNat ∧ offsetOf byte.toNat ≤ 15 := by
    unfold offsetOf
    split <;> omega
  have one : ∀ regs : Registers, regs.address? .indirect byte =
      some (regs.pointed (pointerOf ((byte.toNat : Int) % 8)) + offsetOf byte.toNat) :=
    fun regs => congrArg some (regs.indirectAddress_eq byte)
  have text : shown .indirect byte = indirectText byte.toNat := rfl
  rw [text, indirectText_eq]
  generalize pointerOf ((byte.toNat : Int) % 8) = pointer at one
  generalize offsetOf byte.toNat = offset at one small
  split
  · next zero =>
    subst zero
    rw [Operand.classify_pointer]
    have inRange := Operand.inRange_pointer pointer
    exact ⟨.indirect pointer 0, _, rfl, rfl, .inl rfl,
      .place _ one fun regs => regs.address?_indirect inRange⟩
  · -- every offset of five bits is in the reach of every register
    have reaches : pointer.Reaches offset := by
      cases pointer with
      | general register => exact small
      | stack => exact ⟨by omega, by omega⟩
    obtain ⟨operand, value, read, isShape, cell, another⟩ :=
      Operand.offsetFrom_of_reaches (pointer.name.toList ++ Numeral.withSign offset) reaches
    rw [Operand.classify_offset room _ (by omega)]
    refine ⟨operand, value, read, cell, ?_, ?_⟩
    · rw [isShape]
      cases pointer with
      | general register => exact .inl rfl
      | stack => exact .inr rfl
    · rw [isShape]
      exact .place _ one another

/-- An operand and its byte, read from the text of another byte, which they restate: in the shape that is
written for that byte, or as an offset from the stack pointer. -/
inductive Restated (shape : Shape) (byte : UInt8) : Operand × UInt8 → Prop
  | same {operand value} (cell : operand.cell = .byte value) (isShape : operand.shape = shape.written)
      (synonymous : Synonymous shape byte shape value) : Restated shape byte (operand, value)
  | stack {operand value} (cell : operand.cell = .byte value) (isShape : operand.shape = .stackOffset)
      (synonymous : Synonymous shape byte .stackOffset value) : Restated shape byte (operand, value)

/-- A byte of the same shape that is read from a canonical byte is that byte. -/
theorem restated_of_reread {shape : Shape} {byte : UInt8} {operand : Operand}
    (reread : Reread shape byte (.ok operand)) (canonical : Canonical shape byte) :
    ∃ value, Restated shape byte (operand, value) := by
  cases reread with
  | @read _ value isShape cell same =>
    obtain rfl := same.2 canonical
    exact ⟨value, .same cell isShape .refl⟩
  | stack _ odd => exact absurd canonical odd

/-- **The text of an operand byte restates it**, if it is an operand. -/
theorem exists_restated {limit : DigitLimit} (room : limit.check 3 = .ok ()) {shape : Shape}
    (encoded : shape.isEncoded = true) {byte : UInt8} {operand : Operand}
    (read : Operand.classify limit (shown shape byte) = .ok operand) :
    ∃ value, Restated shape byte (operand, value) := by
  have reread := reread_classify room encoded byte
  rw [read] at reread
  cases shape with
  | indirect =>
    obtain ⟨other, value, again, cell, isShape | isShape, synonymous⟩ := exists_synonym room byte
    · obtain rfl := Except.ok.inj (read.symm.trans again)
      rw [isShape] at synonymous
      exact ⟨value, .same cell isShape synonymous⟩
    · obtain rfl := Except.ok.inj (read.symm.trans again)
      rw [isShape] at synonymous
      exact ⟨value, .stack cell isShape synonymous⟩
  | register =>
    by_cases small : byte.toNat < 4
    · exact restated_of_reread reread small
    · -- the number of no register is shown with a question mark
      have text : shown .register byte = '?' :: Nat.toDigits 10 byte.toNat := by
        rw [shown, operandText, registerText_of_le (by omega)]
      rw [text, classify_unknown_register] at read
      cases read
  | immediate => exact restated_of_reread reread trivial
  | address => exact restated_of_reread reread trivial
  | stackOffset => exact restated_of_reread reread trivial
  | target => exact restated_of_reread reread trivial
  | label => cases encoded
  | text => cases encoded

/-! ## Reading the operands of an instruction -/

/-- The operands, one for each pair of a shape and a byte, restate these bytes. -/
abbrev RestatedAll (pairs : List (Shape × UInt8)) (reads : List (Operand × UInt8)) : Prop :=
  List.Forall₂ (fun pair read => Restated pair.1 pair.2 read) pairs reads

theorem exists_restatedAll {limit : DigitLimit} (room : limit.check 3 = .ok ())
    {pairs : List (Shape × UInt8)} (encoded : ∀ pair ∈ pairs, pair.1.isEncoded = true)
    {operands : List Operand} (ok : (shownAll pairs).mapM (Operand.classify limit) = .ok operands) :
    ∃ reads, operands = reads.map Prod.fst ∧ RestatedAll pairs reads := by
  have each := forall₂_of_mapM_ok ok
  rw [shownAll, List.forall₂_map_left_iff] at each
  clear ok
  induction each with
  | nil => exact ⟨[], rfl, .nil⟩
  | @cons pair operand pairs operands read _ ih =>
    rw [List.forall_mem_cons] at encoded
    obtain ⟨value, first⟩ := exists_restated room encoded.1 read
    obtain ⟨reads, rfl, rest⟩ := ih encoded.2
    exact ⟨(operand, value) :: reads, rfl, .cons first rest⟩

theorem cells_of_restatedAll {pairs : List (Shape × UInt8)} {reads : List (Operand × UInt8)}
    (all : RestatedAll pairs reads) :
    (reads.map Prod.fst).map Operand.cell = (reads.map Prod.snd).map Cell.byte := by
  induction all with
  | nil => rfl
  | @cons pair read pairs reads first _ ih =>
    rw [List.map_cons, List.map_cons, List.map_cons, List.map_cons, ih]
    cases first with
    | same cell => rw [cell]
    | stack cell => rw [cell]

/-- Two instructions restate each other: they are one instruction whose operand bytes mean the same, or two
moves between operands that mean the same. -/
inductive Restates : Instr → List UInt8 → Instr → List UInt8 → Prop
  | operands {instr codes values}
      (all : List.Forall₂ (fun pair value => Synonymous pair.1 pair.2 pair.1 value)
        (instr.shapes.zip codes) values) : Restates instr codes instr values
  | move {form other : Move} {left right value value' : UInt8}
      (destination : Synonymous form.shapes.1 left other.shapes.1 value)
      (source : Synonymous form.shapes.2 right other.shapes.2 value') :
      Restates (.move form) [left, right] (.move other) [value, value']

/-- An operand that is not written as a number means the same in its own shape. -/
theorem Restated.synonymous {shape : Shape} {byte value : UInt8} {operand : Operand}
    (restated : Restated shape byte (operand, value)) (noNumber : operand.shape ≠ .immediate) :
    Synonymous shape byte operand.shape value := by
  cases restated with
  | same _ isShape synonymous =>
    rw [isShape] at noNumber ⊢
    cases shape <;> first | exact synonymous | exact absurd rfl noNumber
  | stack _ isShape synonymous => rwa [isShape]

/-- Without an offset from the stack pointer, the shapes are those that are written. -/
theorem shapes_of_noStack {pairs : List (Shape × UInt8)} {reads : List (Operand × UInt8)}
    (all : RestatedAll pairs reads)
    (noStack : ∀ read ∈ reads, read.1.shape ≠ .stackOffset) :
    (reads.map Prod.fst).map Operand.shape = (pairs.map Prod.fst).map Shape.written ∧
      List.Forall₂ (fun pair value => Synonymous pair.1 pair.2 pair.1 value) pairs
        (reads.map Prod.snd) := by
  induction all with
  | nil => exact ⟨rfl, .nil⟩
  | @cons pair read pairs reads first _ ih =>
    rw [List.forall_mem_cons] at noStack
    obtain ⟨shapes, rest⟩ := ih noStack.2
    simp only [List.map_cons, shapes]
    cases first with
    | same _ isShape synonymous =>
      rw [isShape]
      exact ⟨rfl, .cons synonymous rest⟩
    | stack _ isShape => exact absurd isShape noStack.1

/-- Two moves take an offset from the stack pointer, and nothing else does. -/
theorem exists_stackMove {instr : Instr} {shapes : List Shape} (spelled : shapes ∈ instr.spellings)
    (stack : Shape.stackOffset ∈ shapes) :
    ∃ form, instr = .move form ∧ shapes = [form.shapes.1, form.shapes.2] ∧
      form.shapes.1 ≠ .immediate ∧ form.shapes.2 ≠ .immediate := by
  -- two forms of a move are spelled like this, which a look at all spellings shows
  have checked : Instr.all.all (fun instr => instr.spellings.all fun shapes =>
      !shapes.contains .stackOffset ||
        decide (instr = .move .registerStack ∧ shapes = [.register, .stackOffset] ∨
          instr = .move .stackRegister ∧ shapes = [.stackOffset, .register])) = true := by
    decide +kernel
  have here := List.all_eq_true.1 (List.all_eq_true.1 checked instr (Instr.mem_all instr)) shapes spelled
  rcases (by simpa [stack] using here : _ ∨ _) with ⟨rfl, rfl⟩ | ⟨rfl, rfl⟩
  · exact ⟨.registerStack, rfl, rfl, nofun, nofun⟩
  · exact ⟨.stackRegister, rfl, rfl, nofun, nofun⟩

/-- Only moves are called so. -/
theorem exists_move_of_mnemonic {instr : Instr} (mnemonic : instr.mnemonic = "MOV") :
    ∃ form, instr = .move form := by
  have checked : Instr.all.all (fun instr => instr.mnemonic != "MOV" || match instr with
      | .move _ => true
      | _ => false) = true := by
    decide +kernel
  have here := List.all_eq_true.1 checked instr (Instr.mem_all instr)
  rw [mnemonic] at here
  cases instr with
  | move form => exact ⟨form, rfl⟩
  | _ => cases here

/-- **What is found for restated operands restates the instruction.** -/
theorem restates_of_lookup {instr other : Instr} {codes : List UInt8} {reads : List (Operand × UInt8)}
    (length : codes.length = instr.shapes.length)
    (all : RestatedAll (instr.shapes.zip codes) reads)
    (found : Instr.lookup? instr.mnemonic ((reads.map Prod.fst).map Operand.shape) = some other) :
    Restates instr codes other (reads.map Prod.snd) := by
  by_cases stack : Shape.stackOffset ∈ (reads.map Prod.fst).map Operand.shape
  · -- a move, and the one that was found is the move with these shapes
    obtain ⟨mnemonic, spelled⟩ := Instr.lookup?_eq_some_iff.1 found
    obtain ⟨other, rfl, shapes, noNumberLeft, noNumberRight⟩ := exists_stackMove spelled stack
    rw [Instr.canonical_mnemonic] at mnemonic
    obtain ⟨form, rfl⟩ := exists_move_of_mnemonic mnemonic.symm
    match codes, length with
    | [left, right], _ =>
      obtain ⟨⟨first, value⟩, ⟨second, value'⟩, rfl, isFirst, isSecond⟩ :=
        exists_pair_of_forall₂ (show List.Forall₂ _ [_, _] reads from all)
      obtain ⟨sameLeft, sameRight⟩ : first.shape = other.shapes.1 ∧ second.shape = other.shapes.2 := by
        simpa using shapes
      rw [← sameLeft] at noNumberLeft
      rw [← sameRight] at noNumberRight
      exact .move (sameLeft ▸ isFirst.synonymous noNumberLeft)
        (sameRight ▸ isSecond.synonymous noNumberRight)
  · have noStack : ∀ read ∈ reads, read.1.shape ≠ .stackOffset := by
      intro read mem isStack
      exact stack (List.mem_map.2 ⟨read.1, List.mem_map_of_mem mem, isStack⟩)
    obtain ⟨shapes, synonymous⟩ := shapes_of_noStack all noStack
    rw [shapes, List.map_fst_zip (by omega), lookup?_written] at found
    obtain rfl := Option.some.inj found
    exact .operands synonymous

/-! ## The text of an instruction -/

/-- **The text of an instruction assembles to one that restates it**, if it assembles at all. -/
theorem assemble_instrText {instr : Instr} {codes : List UInt8}
    (length : codes.length = instr.shapes.length) {program : Program}
    (assembled : assemble (String.ofList (instrText instr codes)) = .ok program) :
    ∃ other values, program.code = UInt8.ofNat other.opcode :: values ∧
      values.length = codes.length ∧ Restates instr codes other values := by
  have room := Numeral.check_digitLimit
  have encoded : ∀ pair ∈ instr.shapes.zip codes, pair.1.isEncoded = true :=
    fun _ => isEncoded_of_mem_zip
  have origin : Item.Origin ⟨0, UInt8.ofNat instr.opcode :: codes, instrText instr codes⟩ := by
    refine .instr 0 ?_ length
    rw [Instr.toNat_ofNat_opcode]
    exact Instr.decode?_opcode instr
  obtain ⟨noBreak, nonempty⟩ := line_text origin
  rw [assemble, String.toList_ofList] at assembled
  -- the source is one line, and it is not rejected
  have oneLine : ∀ {outcome}, Contributes (some digitLimit) (Source.Line.parse (instrText instr codes))
      outcome → List.Forall₂ (Contributes (some digitLimit))
        ((Text.splitLines (instrText instr codes)).map Source.Line.parse) [outcome] := by
    intro outcome contributes
    rw [Text.splitLines_of_noBreak noBreak nonempty]
    exact .cons contributes .nil
  have accepted : ∀ problem, Effect.ofInstr (some digitLimit) instr.mnemonic.toList
      (shownAll (instr.shapes.zip codes)) ≠ .fail (.wrong problem) := by
    intro problem fails
    have contributes : Contributes (some digitLimit) (Source.Line.parse (instrText instr codes)) none :=
      contributes_instr ⟨problem, fails⟩
    obtain ⟨error, rejected⟩ := assembleText_rejected (oneLine contributes) (.inl (by simp))
    rw [assembled] at rejected
    cases rejected
  rcases mapM_classify_shownAll room encoded with ⟨problem, error, -⟩ | ⟨operands, ok, -⟩
  · refine absurd ?_ (accepted problem)
    rw [Effect.ofInstr, instrCells_mnemonic, error]
    rfl
  obtain ⟨reads, rfl, all⟩ := exists_restatedAll room encoded ok
  have effect := ofInstr_mnemonic instr ok
  cases found : Instr.lookup? instr.mnemonic ((reads.map Prod.fst).map Operand.shape) with
  | none =>
    rw [found] at effect
    exact absurd effect (accepted _)
  | some other =>
    rw [found, cells_of_restatedAll all] at effect
    have contributes : Contributes (some digitLimit) (Source.Line.parse (instrText instr codes))
        (some (UInt8.ofNat other.opcode :: reads.map Prod.snd)) := contributes_instr effect
    have count : (reads.map Prod.snd).length = codes.length := by
      rw [List.length_map, ← all.length_eq, List.length_zip]
      omega
    have fits : [UInt8.ofNat other.opcode :: reads.map Prod.snd].flatten.length ≤ programLimit := by
      have short := Machine.length_shapes_le instr
      have limits : programLimit = 192 := by decide
      rw [List.flatten_singleton, List.length_cons, count, length]
      omega
    obtain ⟨again, ok, code⟩ := assembleText_accepted (oneLine contributes) fits
    obtain rfl := Except.ok.inj (assembled.symm.trans ok)
    exact ⟨other, _, by simpa using code, count, restates_of_lookup length all found⟩

end EightBit.Disassembly
