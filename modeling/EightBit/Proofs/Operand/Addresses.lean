import EightBit.Assembly.Effect
import EightBit.Proofs.Disassembly.Operands
import EightBit.Proofs.Machine.Execution
import EightBit.Proofs.Operand.Forms
import EightBit.Proofs.Operand.Reading

/-!
# What Operands in Brackets Mean

A register in brackets with an offset is written in one place and followed in another. The assembler
folds sign and number into an offset, holds it against the offsets that the register allows, and packs
it into a byte; the machine takes register and offset out of the byte again and adds them. The address
that comes out is the value of the register plus the offset that was written, never wrapped.

## Main Definitions

- `Registers.pointed`: the value of a register that can stand in brackets.
- `Pointer.Reaches`, `Pointer.offsetShape`: the offsets from a register, and the shape that holds them.

## Main Statements

- `indirectAddress_eq`: the address of every byte, as a register plus an offset.
- `address?_indirect`, `address?_stackOffset`: the address that an encoded operand denotes.
- `classify_pointer_offset`: a register in brackets with an offset, in any spelling.
-/

namespace EightBit

open Disassembly Text

/-! ## Addresses of encoded operands -/

namespace Registers

/-- The value of a register that can stand in brackets. -/
def pointed (regs : Registers) : Pointer → Int
  | .general register => (regs.get register).toNat
  | .stack => regs.sp

variable (regs : Registers)

/-- The three low bits choose the register, and the five above them are its offset. -/
theorem indirectAddress_eq (code : UInt8) :
    regs.indirectAddress code =
      regs.pointed (pointerOf ((code.toNat : Int) % 8)) + offsetOf code.toNat := by
  -- five bits of an operand byte are an offset with a sign, the other three name the register
  have units : (if 15 < code.toNat / 8 then ((code.toNat / 8 : Nat) : Int) - 32
      else (code.toNat / 8 : Nat)) = offsetOf code.toNat := by
    rw [offsetOf]
    split <;> split <;> omega
  have index : ((code.toNat % 8 : Nat) : Int) = (code.toNat : Int) % 8 := Int.natCast_emod ..
  simp only [indirectAddress, units, index, pointerOf]
  cases Register.ofIndex? ((code.toNat : Int) % 8) <;> rfl

/-- **A register plus five bits**: the byte of such an operand denotes the value of the register plus
the offset. -/
theorem address?_indirect {pointer : Pointer} {offset : Int}
    (inRange : (Operand.indirect pointer offset).InRange) :
    regs.address? .indirect (Operand.indirect pointer offset).code =
      some (regs.pointed pointer + offset) := by
  have small : -16 ≤ offset ∧ offset ≤ 15 := by
    cases pointer with
    | general register => exact inRange
    | stack =>
      obtain rfl : offset = 0 := inRange
      decide
  have index : pointer.index < 8 ∧ pointerOf pointer.index = pointer := by
    cases pointer with
    | general register => cases register <;> decide
    | stack => decide
  -- neither part spills into the bits of the other
  have code : ((Operand.indirect pointer offset).code.toNat : Int) =
      pointer.index + 8 * (offset % 32) := by
    rw [Operand.code, Bits.toNat_toByte]
    omega
  have base : ((Operand.indirect pointer offset).code.toNat : Int) % 8 = pointer.index := by
    omega
  have units : offsetOf (Operand.indirect pointer offset).code.toNat = offset := by
    rw [offsetOf]
    split <;> omega
  show some (regs.indirectAddress _) = _
  rw [indirectAddress_eq, base, index.2, units]

/-- **The stack pointer plus eight bits.** -/
theorem address?_stackOffset {offset : Int} (inRange : (Operand.stackOffset offset).InRange) :
    regs.address? .stackOffset (Operand.stackOffset offset).code = some (regs.sp + offset) := by
  obtain ⟨low, high⟩ : -128 ≤ offset ∧ offset ≤ 127 := inRange
  have signed : Bits.signed8 (Operand.stackOffset offset).code.toNat = offset := by
    rw [Operand.code, Bits.signed8, Bits.toNat_toByte, Int.bmod]
    split <;> omega
  show some (regs.sp + Bits.signed8 _) = _
  rw [signed]

end Registers

/-! ## Offsets -/

namespace Pointer

/-- The offsets that can be written behind a register: five bits, or eight behind the stack pointer. -/
def Reaches (pointer : Pointer) (offset : Int) : Prop :=
  match pointer with
  | .general _ => -16 ≤ offset ∧ offset ≤ 15
  | .stack => -128 ≤ offset ∧ offset ≤ 127

/-- The shape of an operand that is a register in brackets with an offset. -/
def offsetShape : Pointer → Shape
  | .general _ => .indirect
  | .stack => .stackOffset

/-- The name of a register holds no blank, in whichever case its letters are. -/
theorem Matches.noBlank {pointer : Pointer} {name : List Char} (isName : pointer.Matches name) :
    NoBlank name := by
  -- letters of registers are compared up to case, and no letter is a blank in either
  have letters : nameLetters.all (fun letter => !isBlank letter && !isBlank letter.toLower) = true := by
    decide
  have known := mem_nameLetters pointer
  unfold Matches at isName
  generalize pointer.name.toList = spelled at isName known
  induction isName with
  | nil => exact nofun
  | @cons letter c _ _ same _ ih =>
    rw [List.forall_mem_cons] at known
    obtain ⟨upper, lower⟩ := Bool.and_eq_true_iff.1 (List.all_eq_true.1 letters letter known.1)
    refine List.forall_mem_cons.2 ⟨?_, ih known.2⟩
    -- the letter itself, its other case, or the long s
    rcases same with rfl | rfl | ⟨rfl, rfl⟩
    · simpa using upper
    · simpa using lower
    · decide

theorem Matches.ne_nil {pointer : Pointer} {name : List Char} (isName : pointer.Matches name) :
    name ≠ [] := by
  rintro rfl
  obtain ⟨c, d, spelled, -⟩ := Operand.exists_name pointer
  rw [Matches, spelled] at isName
  cases isName

/-- Three characters or more are no register. -/
theorem ofText?_of_long {text : List Char} (long : 2 < (upper text).length) :
    Pointer.ofText? text = none := by
  have short : ∀ pointer : Pointer, pointer.name.toList.length = 2 := by
    intro pointer
    obtain ⟨c, d, spelled, -⟩ := Operand.exists_name pointer
    rw [spelled]
    rfl
  rw [Pointer.ofText?, List.find?_eq_none]
  intro pointer _ same
  rw [← beq_iff_eq.1 same, short] at long
  exact absurd long (Nat.lt_irrefl 2)

end Pointer

/-! ## Numbers -/

namespace Numeral

/-- Blanks around a numeral do not count. -/
theorem read_trim (limit : DigitLimit) (text : List Char) : read limit (trim text) = read limit text := by
  have idempotent : trim (trim text) = trim text := trim_of_trimmed (trimmed_trim text)
  simp only [read, parse?, decimalLength, idempotent]

end Numeral

/-! ## Registers in brackets -/

namespace Operand

/-- A text between two others that have no blanks at the outer ends. -/
theorem trimmed_append {first middle last : List Char} (noBlankFirst : NoBlank first)
    (nonemptyFirst : first ≠ []) (noBlankLast : NoBlank last) (nonemptyLast : last ≠ []) :
    Trimmed (first ++ (middle ++ last)) := by
  obtain ⟨c, more, rfl⟩ := List.exists_cons_of_ne_nil nonemptyFirst
  obtain ⟨front, d, rfl⟩ := (List.eq_nil_or_concat last).resolve_left nonemptyLast
  have shape : c :: more ++ (middle ++ front.concat d) = c :: (more ++ (middle ++ front)) ++ [d] := by
    simp
  exact trimmed_of_ends shape (noBlankFirst c (by simp)) (noBlankLast d (by simp))

variable (limit : DigitLimit) {pointer : Pointer} {name : List Char}

/-- A register in brackets is read as that register, in any letter case and with blanks around it. -/
theorem classify_matches (isName : pointer.Matches name) {lead trail : List Char}
    (blankLead : AllBlank lead) (blankTrail : AllBlank trail) :
    classify limit ('[' :: (lead ++ name ++ trail) ++ [']']) = .ok (.indirect pointer 0) := by
  rw [classify_brackets, trim_between_blanks blankLead isName.noBlank.trimmed blankTrail,
    classifyMemory, ofText?_of_matches isName]

variable {limit}

/-- A register in brackets with an offset is read as that register and that offset, in any spelling of
the number. -/
theorem classify_matches_offset (isName : pointer.Matches name) {lead before gap trail : List Char}
    (blankLead : AllBlank lead) (blankBefore : AllBlank before) (blankGap : AllBlank gap)
    (blankTrail : AllBlank trail) {number : List Char} {value : Int}
    (isNumber : Numeral.read limit number = .ok (some value)) {sign : Char} {offset : Int}
    (signed : sign = '+' ∧ offset = value ∨ sign = '-' ∧ offset = -value) :
    ∃ inner, classify limit
        ('[' :: (lead ++ (name ++ (before ++ sign :: (gap ++ number))) ++ trail) ++ [']']) =
      offsetFrom inner pointer offset := by
  -- the number is what its blanks leave of it
  obtain ⟨blankStart, blankEnd, allStart, allEnd, -, split⟩ := exists_eq_append_trim number
  have isSigned : Numeral.Signed (trim number) := by
    rw [← Numeral.isSome_parse?_iff, (Numeral.read_eq_ok_iff.1 isNumber).1]
    rfl
  rw [← Numeral.read_trim] at isNumber
  generalize trim number = digits at isSigned isNumber split
  subst split
  have blankInner : AllBlank (gap ++ blankStart) :=
    fun c mem => (List.mem_append.1 mem).elim (blankGap c) (allStart c)
  have blankOuter : AllBlank (blankEnd ++ trail) :=
    fun c mem => (List.mem_append.1 mem).elim (allEnd c) (blankTrail c)
  obtain ⟨unit, readSign, product, same⟩ : ∃ unit : Int,
      Expression.sign? (sign :: (gap ++ blankStart ++ digits)) =
        some (unit, gap ++ blankStart ++ digits) ∧ unit * value = offset ∧ upperChar sign = [sign] := by
    rcases signed with ⟨rfl, rfl⟩ | ⟨rfl, rfl⟩
    · exact ⟨1, rfl, by omega, by decide⟩
    · exact ⟨-1, rfl, by omega, by decide⟩
  let inner := name ++ (before ++ sign :: (gap ++ blankStart ++ digits))
  have core : trim (lead ++ (name ++ (before ++ sign :: (gap ++ (blankStart ++ digits ++ blankEnd)))) ++
      trail) = inner := by
    have trimmed : Trimmed inner := by
      have ends : Trimmed (name ++ ((before ++ sign :: (gap ++ blankStart)) ++ digits)) :=
        trimmed_append isName.noBlank isName.ne_nil isSigned.noBlank isSigned.ne_nil
      simpa [inner] using ends
    have between := trim_between_blanks blankLead trimmed blankOuter
    simpa [inner] using between
  have noRegister : Pointer.ofText? inner = none := by
    apply Pointer.ofText?_of_long
    obtain ⟨c, d, spelled, -⟩ := exists_name pointer
    have front : upper name = [c, d] := by
      rw [← spelled]
      exact upper_of_forall₂ isName (mem_nameLetters pointer)
    simp only [inner, upper, List.flatMap_append, List.flatMap_cons] at front ⊢
    rw [front, same]
    simp only [List.length_append, List.length_cons]
    omega
  have read : Operand.number limit digits = .ok (some value) := by
    rw [Operand.number, isNumber]
    rfl
  refine ⟨inner, ?_⟩
  have found : registerOffset? inner = some (pointer, unit, digits) :=
    registerOffset?_of_parts isName blankBefore readSign blankInner isSigned.ne_nil isSigned.noBlank
  rw [classify_brackets, core, classifyMemory, noRegister, found]
  simp only [read]
  show offsetFrom inner pointer (unit * value) = _
  rw [product]

/-- The register alone is the register with the offset zero, whichever register it is. -/
theorem inRange_pointer (pointer : Pointer) : (Operand.indirect pointer 0).InRange := by
  cases pointer with
  | general register => exact ⟨by decide, by decide⟩
  | stack => exact rfl

/-- An offset that the register reaches is kept in the byte of the operand. -/
theorem offsetFrom_of_reaches (inner : List Char) {offset : Int} (reaches : pointer.Reaches offset) :
    ∃ operand code, offsetFrom inner pointer offset = .ok operand ∧
      operand.shape = pointer.offsetShape ∧ operand.cell = .byte code ∧
      ∀ regs : Registers,
        regs.address? pointer.offsetShape code = some (regs.pointed pointer + offset) := by
  -- each kind of pointer has its own range of offsets and its own code
  cases pointer with
  | general register =>
    have inRange : (Operand.indirect (.general register) offset).InRange := reaches
    refine ⟨.indirect (.general register) offset, _, ?_, rfl, rfl,
      fun regs => regs.address?_indirect inRange⟩
    rw [offsetFrom, if_neg (by simp)]
    exact if_pos reaches
  | stack =>
    have inRange : (Operand.stackOffset offset).InRange := reaches
    refine ⟨.stackOffset offset, _, ?_, rfl, rfl, fun regs => regs.address?_stackOffset inRange⟩
    rw [offsetFrom, if_pos rfl]
    exact if_pos reaches

/-- An offset that the register does not reach is a mistake in the form of the operand. -/
theorem offsetFrom_of_not_reaches (inner : List Char) {offset : Int}
    (tooFar : ¬pointer.Reaches offset) :
    ∃ problem, offsetFrom inner pointer offset = .error (.wrong problem) ∧
      problem.kind = .malformed := by
  cases pointer with
  | general register =>
    refine ⟨.registerOffsetOutOfRange inner, ?_, rfl⟩
    rw [offsetFrom, if_neg (by simp)]
    exact if_neg tooFar
  | stack =>
    refine ⟨.stackOffsetOutOfRange inner, ?_, rfl⟩
    rw [offsetFrom, if_pos rfl]
    exact if_neg tooFar

/-- **Operands in brackets mean what they say.** A register in any letter case with a sign and a number,
and any blanks around these, is accepted just when the register reaches that far, and the address of the
encoded byte is then the value of the register plus the offset, for all registers. The register alone
is always accepted, and its address is its value. -/
theorem classify_pointer_offset (isName : pointer.Matches name) {lead before gap trail : List Char}
    (blankLead : AllBlank lead) (blankBefore : AllBlank before) (blankGap : AllBlank gap)
    (blankTrail : AllBlank trail) {number : List Char} {value : Int}
    (isNumber : Numeral.read limit number = .ok (some value)) {sign : Char} {offset : Int}
    (signed : sign = '+' ∧ offset = value ∨ sign = '-' ∧ offset = -value) :
    let outcome := classify limit
      ('[' :: (lead ++ (name ++ (before ++ sign :: (gap ++ number))) ++ trail) ++ [']'])
    (pointer.Reaches offset → ∃ operand code, outcome = .ok operand ∧
        operand.shape = pointer.offsetShape ∧ operand.cell = .byte code ∧
        ∀ regs : Registers,
          regs.address? pointer.offsetShape code = some (regs.pointed pointer + offset)) ∧
      (¬pointer.Reaches offset → ∃ problem, outcome = .error (.wrong problem) ∧
        problem.kind = .malformed) ∧
      ∃ operand code, classify limit ('[' :: (lead ++ name ++ trail) ++ [']']) = .ok operand ∧
        operand.shape = .indirect ∧ operand.cell = .byte code ∧
        ∀ regs : Registers, regs.address? .indirect code = some (regs.pointed pointer) := by
  intro outcome
  obtain ⟨inner, read⟩ := classify_matches_offset isName blankLead blankBefore blankGap blankTrail
    isNumber signed
  have isOutcome : outcome = offsetFrom inner pointer offset := read
  rw [isOutcome]
  refine ⟨offsetFrom_of_reaches inner, offsetFrom_of_not_reaches inner, ?_⟩
  refine ⟨.indirect pointer 0, _, classify_matches limit isName blankLead blankTrail, rfl, rfl,
    fun regs => ?_⟩
  rw [regs.address?_indirect (inRange_pointer pointer), Int.add_zero]

/-- Two minus signs add up, and one step beyond the reach of the stack pointer is a mistake. -/
theorem classify_pointer_offset_signs :
    (∃ operand code, classify (some 640) "[ bL - -7 ]".toList = .ok operand ∧
        operand.shape = .indirect ∧ operand.cell = .byte code ∧
        ∀ regs : Registers, regs.address? .indirect code = some ((regs.bl.toNat : Int) + 7)) ∧
      ∃ problem, classify (some 640) "[sP+0x80]".toList = .error (.wrong problem) ∧
        problem.kind = .malformed := by
  have space := allBlank_space
  have none := AllBlank.nil
  have isBase : (Pointer.general .bl).Matches ['b', 'L'] :=
    .cons (.inr (.inl rfl)) (.cons (.inl rfl) .nil)
  have isStack : Pointer.stack.Matches ['s', 'P'] := .cons (.inr (.inl rfl)) (.cons (.inl rfl) .nil)
  -- a sign in front of a negative number, and an offset that is one too large
  refine ⟨?_, ?_⟩
  · have isNumber : Numeral.read (some 640) ['-', '7'] = .ok (some (-7)) := rfl
    have signed : '-' = '+' ∧ (7 : Int) = -7 ∨ '-' = '-' ∧ (7 : Int) = -(-7) := .inr ⟨rfl, rfl⟩
    exact (classify_pointer_offset isBase space space space space isNumber signed).1
      ⟨by decide, by decide⟩
  · have isNumber : Numeral.read (some 640) ['0', 'x', '8', '0'] = .ok (some 128) := rfl
    have signed : '+' = '+' ∧ (128 : Int) = 128 ∨ '+' = '-' ∧ (128 : Int) = -128 := .inl ⟨rfl, rfl⟩
    exact (classify_pointer_offset isStack none none none none isNumber signed).2.1
      fun ⟨_, high⟩ => absurd high (by decide)

end Operand

end EightBit
