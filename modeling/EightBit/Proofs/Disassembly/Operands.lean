import EightBit.Assembly.Effect
import EightBit.Disassembly
import EightBit.Proofs.Instr.Lookup
import EightBit.Proofs.Operand.Notation
import EightBit.Proofs.Source.Operands

/-!
# Reading Disassembled Operands

The text of an operand byte is read back as that byte, with two exceptions. The number of a register
may be too large, and a register in brackets may be the stack pointer: with an offset it is then
read as an operand of another shape, and without one as the byte 4.

## Main Definitions

- `Canonical`: the operand bytes that are read back.
- `Reread`: what reading the text of an operand byte comes to.

## Main Statements

- `reread_classify`: every operand text is `Reread`.
- `simple_shown`: every operand text is simple.
-/

namespace EightBit

/-- The shape that an operand of code has when it is written. A jump destination is written as a
number. -/
def Shape.written : Shape → Shape
  | .target => .immediate
  | shape => shape

namespace Disassembly

open Numeral

/-- The text of an operand byte. -/
def shown (shape : Shape) (byte : UInt8) : List Char :=
  match operandText shape byte.toNat with
  | .ok text => text
  | .error _ => []

/-- The byte is what its text is read back as. -/
def Canonical (shape : Shape) (byte : UInt8) : Prop :=
  match shape with
  | .register => byte.toNat < 4
  | .indirect => byte.toNat % 8 < 4 ∨ byte.toNat = 4
  | _ => True

instance (shape : Shape) (byte : UInt8) : Decidable (Canonical shape byte) := by
  unfold Canonical
  split <;> infer_instance

/-- What reading the text of an operand byte comes to. -/
inductive Reread (shape : Shape) (byte : UInt8) : Except (Rejection Problem) Operand → Prop
  /-- The text is no operand. -/
  | rejected {problem : Problem} : ¬Canonical shape byte → Reread shape byte (.error (.wrong problem))
  /-- The text is an operand of the same shape. -/
  | read {operand : Operand} {value : UInt8} : operand.shape = shape.written →
      operand.cell = .byte value → (value = byte ↔ Canonical shape byte) →
      Reread shape byte (.ok operand)
  /-- The text is an offset from the stack pointer, which nothing said about the byte. -/
  | stack {offset : Int} : shape = .indirect → ¬Canonical shape byte →
      Reread shape byte (.ok (.stackOffset offset))

/-! ## Registers -/

theorem registerText_of_lt {index : Nat} (small : index < 4) :
    ∃ register : Register, registerText index = .ok register.name.toList ∧
      register.index = index := by
  interval_cases index
  · exact ⟨.al, rfl, rfl⟩
  · exact ⟨.bl, rfl, rfl⟩
  · exact ⟨.cl, rfl, rfl⟩
  · exact ⟨.dl, rfl, rfl⟩

theorem registerText_of_le {index : Nat} (large : 4 ≤ index) :
    registerText index = .ok ('?' :: Nat.toDigits 10 index) := by
  rw [registerText, if_pos (by omega), decimal_natCast]

/-- A register number that is too large is no operand. -/
theorem classify_unknown_register (limit : DigitLimit) (n : Nat) :
    Operand.classify limit ('?' :: Nat.toDigits 10 n) =
      .error (.wrong (.invalidOperand ('?' :: Nat.toDigits 10 n))) := by
  have noBlank : Text.NoBlank ('?' :: Nat.toDigits 10 n) := by
    intro c mem
    rcases List.mem_cons.1 mem with rfl | digit
    · decide
    · exact noBlank_toDigits n c digit
  have single : Expression.parse? ('?' :: Nat.toDigits 10 n) = none :=
    Operand.parse?_of_first noBlank.trimmed (by decide) (by decide) (by decide)
  have noRegister : Pointer.ofText? ('?' :: Nat.toDigits 10 n) = none :=
    Operand.ofText?_of_first _ (by decide) (by decide)
  have noNumber : natural? 10 Text.digitValue? ('?' :: Nat.toDigits 10 n) = none := by
    have first : Text.digitValue? '?' = none := by decide
    simp [natural?, List.mapM_cons, first]
  -- no sign and no marker, so a decimal number, and `?` is no digit
  have noNumeral : parse? ('?' :: Nat.toDigits 10 n) = none := by
    rw [parse?, Text.trim_of_trimmed noBlank.trimmed]
    show (natural? 10 Text.digitValue? ('?' :: Nat.toDigits 10 n)).map Int.ofNat = none
    rw [noNumber]
    rfl
  have read : Operand.number limit ('?' :: Nat.toDigits 10 n) = .ok none := by
    rw [Operand.number, read_of_not_parse? noNumeral]
    rfl
  rw [Operand.classify_word limit (by decide) (by decide) (by decide) single,
    Operand.classifyWord, noRegister, read]
  rfl

theorem reread_register (limit : DigitLimit) (byte : UInt8) :
    Reread .register byte (Operand.classify limit (shown .register byte)) := by
  -- four bytes have the name of a register, and the others are shown as numbers that no operand has
  by_cases small : byte.toNat < 4
  · obtain ⟨register, text, index⟩ := registerText_of_lt small
    have shownEq : shown .register byte = register.name.toList := by
      rw [shown, operandText, text]
    rw [shownEq, Operand.classify_register]
    refine .read rfl rfl ?_
    have same : UInt8.ofNat register.index = byte := by
      rw [index]
      exact UInt8.ofNat_toNat
    exact ⟨fun _ => small, fun _ => same⟩
  · have shownEq : shown .register byte = '?' :: Nat.toDigits 10 byte.toNat := by
      rw [shown, operandText, registerText_of_le (by omega)]
    rw [shownEq, classify_unknown_register]
    exact .rejected small

/-! ## Numbers -/

theorem reread_immediate (limit : DigitLimit) (byte : UInt8) {shape : Shape}
    (isNumber : shape = .immediate ∨ shape = .target) :
    Reread shape byte (Operand.classify limit (shown shape byte)) := by
  have text : shown shape byte = '0' :: 'x' :: hexByte byte.toNat := by
    rcases isNumber with rfl | rfl <;> rfl
  rw [text, Operand.classify_byte limit byte.toNat_lt, UInt8.ofNat_toNat]
  have cell : (Operand.immediate byte).cell = .byte byte := rfl
  rcases isNumber with rfl | rfl
  · exact .read rfl cell (by simp [Canonical])
  · exact .read rfl cell (by simp [Canonical])

theorem reread_address (limit : DigitLimit) (byte : UInt8) :
    Reread .address byte (Operand.classify limit (shown .address byte)) := by
  have text : shown .address byte = '[' :: ('0' :: 'x' :: hexByte byte.toNat) ++ [']'] := rfl
  rw [text, Operand.classify_byte_memory limit byte.toNat_lt, UInt8.ofNat_toNat]
  have cell : (Operand.address byte).cell = .byte byte := rfl
  exact .read rfl cell (by simp [Canonical])

/-! ## Registers in brackets -/

/-- The register that a number stands for in brackets. -/
def pointerOf (index : Int) : Pointer :=
  (Register.ofIndex? index).elim .stack .general

theorem name_pointerOf (index : Int) :
    (pointerOf index).name = (Register.ofIndex? index).elim "SP" Register.name := by
  unfold pointerOf
  cases Register.ofIndex? index <;> rfl

/-- The offset in the upper five bits of a byte. -/
def offsetOf (code : Int) : Int :=
  if 15 < code / 8 then code / 8 - 32 else code / 8

theorem indirectText_eq (code : Int) :
    indirectText code =
      if offsetOf code = 0 then '[' :: (pointerOf (code % 8)).name.toList ++ [']']
      else '[' :: ((pointerOf (code % 8)).name.toList ++ withSign (offsetOf code)) ++ [']'] := by
  rw [name_pointerOf]
  rfl

/-- The lower three bits of a byte are a general register, or they stand for the stack pointer. -/
theorem pointerOf_cases (byte : UInt8) :
    byte.toNat % 8 < 4 ∧ (∃ register, pointerOf ((byte.toNat : Int) % 8) = .general register ∧
        register.index = byte.toNat % 8) ∨
      4 ≤ byte.toNat % 8 ∧ pointerOf ((byte.toNat : Int) % 8) = .stack := by
  have cast : (byte.toNat : Int) % 8 = ((byte.toNat % 8 : Nat) : Int) := by omega
  have bound : byte.toNat % 8 < 8 := Nat.mod_lt _ (by decide)
  rw [cast]
  -- one case for each of the eight numbers
  generalize byte.toNat % 8 = index at bound
  interval_cases index
  · exact .inl ⟨by decide, .al, rfl, rfl⟩
  · exact .inl ⟨by decide, .bl, rfl, rfl⟩
  · exact .inl ⟨by decide, .cl, rfl, rfl⟩
  · exact .inl ⟨by decide, .dl, rfl, rfl⟩
  · exact .inr ⟨by decide, rfl⟩
  · exact .inr ⟨by decide, rfl⟩
  · exact .inr ⟨by decide, rfl⟩
  · exact .inr ⟨by decide, rfl⟩

theorem reread_indirect {limit : DigitLimit} (room : limit.check 3 = .ok ()) (byte : UInt8) :
    Reread .indirect byte (Operand.classify limit (shown .indirect byte)) := by
  have bound : byte.toNat < 256 := byte.toNat_lt
  have text : shown .indirect byte = indirectText byte.toNat := rfl
  -- the upper five bits are an offset in two's complement
  have low : -16 ≤ offsetOf byte.toNat ∧ offsetOf byte.toNat ≤ 15 := by
    unfold offsetOf
    split <;> omega
  have units : offsetOf byte.toNat % 32 = (byte.toNat : Int) / 8 := by
    unfold offsetOf
    split <;> omega
  rw [text, indirectText_eq]
  rcases pointerOf_cases byte with ⟨general, register, pointer, index⟩ | ⟨large, pointer⟩
  · -- a general register is read back, whatever its offset
    have cell : (Operand.indirect (.general register) (offsetOf byte.toNat)).cell = .byte byte := by
      have value : ((register.index : Nat) : Int) + 8 * (offsetOf byte.toNat % 32) = byte.toNat := by
        rw [units, index]
        omega
      show Cell.byte (Bits.toByte ((register.index : Nat) + 8 * (offsetOf byte.toNat % 32))) = _
      rw [value, Operand.toByte_natCast, UInt8.ofNat_toNat]
    have canonical : byte = byte ↔ Canonical .indirect byte := by
      simp [Canonical, general]
    rw [pointer]
    split
    · next zero =>
      rw [Operand.classify_pointer]
      rw [zero] at cell
      exact .read rfl cell canonical
    · rw [Operand.classify_offset room _ (by omega), Operand.offsetFrom,
        if_neg (by simp), if_pos low]
      exact .read rfl cell canonical
  · rw [pointer]
    split
    · -- without an offset the stack pointer is read as the byte 4
      next zero =>
      rw [Operand.classify_pointer]
      have cell : (Operand.indirect .stack 0).cell = .byte 4 := rfl
      refine .read rfl cell ?_
      rw [zero] at units
      have four : (4 : UInt8) = byte ↔ byte.toNat = 4 := by
        rw [eq_comm, ← UInt8.toNat_inj]
        rfl
      rw [four, Canonical]
      omega
    · -- with an offset it is an operand of the other shape
      next nonzero =>
      rw [Operand.classify_offset room _ (by omega), Operand.offsetFrom, if_pos rfl,
        if_pos (by omega)]
      refine .stack rfl ?_
      rw [Canonical]
      rintro (isGeneral | isFour)
      · omega
      · refine nonzero ?_
        rw [isFour]
        rfl

/-- A byte as a two's complement number. -/
def signedOf (code : Int) : Int :=
  if code / 128 % 2 = 1 then code - 256 else code

theorem stackText_eq (code : Int) :
    stackText code = '[' :: (Pointer.stack.name.toList ++ withSign (signedOf code)) ++ [']'] :=
  rfl

theorem reread_stackOffset {limit : DigitLimit} (room : limit.check 3 = .ok ()) (byte : UInt8) :
    Reread .stackOffset byte (Operand.classify limit (shown .stackOffset byte)) := by
  have bound : byte.toNat < 256 := byte.toNat_lt
  have text : shown .stackOffset byte = stackText byte.toNat := rfl
  -- a whole byte in two's complement
  have range : -128 ≤ signedOf byte.toNat ∧ signedOf byte.toNat ≤ 127 := by
    unfold signedOf
    split <;> omega
  have low : (signedOf byte.toNat % 256).toNat = byte.toNat := by
    unfold signedOf
    split <;> omega
  have cell : (Operand.stackOffset (signedOf byte.toNat)).cell = .byte byte := by
    show Cell.byte (Bits.toByte (signedOf byte.toNat)) = _
    rw [Bits.toByte, low, UInt8.ofNat_toNat]
  rw [text, stackText_eq, Operand.classify_offset room _ (by omega), Operand.offsetFrom, if_pos rfl,
    if_pos range]
  exact .read rfl cell (by simp [Canonical])

/-- **What reading the text of an operand byte comes to.** -/
theorem reread_classify {limit : DigitLimit} (room : limit.check 3 = .ok ()) {shape : Shape}
    (encoded : shape.isEncoded = true) (byte : UInt8) :
    Reread shape byte (Operand.classify limit (shown shape byte)) := by
  cases shape with
  | register => exact reread_register limit byte
  | immediate => exact reread_immediate limit byte (.inl rfl)
  | address => exact reread_address limit byte
  | indirect => exact reread_indirect room byte
  | stackOffset => exact reread_stackOffset room byte
  | target => exact reread_immediate limit byte (.inr rfl)
  | label => cases encoded
  | text => cases encoded

/-! ## The texts are simple -/

theorem ink_toDigits (n : Nat) : ∀ c ∈ Nat.toDigits 10 n, Source.isInk c = true :=
  forall_mem_decimal (by decide) n

theorem ink_markedByte (n : Nat) : ∀ c ∈ '0' :: 'x' :: hexByte n, Source.isInk c = true := by
  intro c mem
  simp only [List.mem_cons] at mem
  rcases mem with rfl | rfl | digit
  · decide
  · decide
  · exact forall_mem_hexByte (P := fun c => Source.isInk c = true) (by decide) n c digit

theorem ink_name (pointer : Pointer) : ∀ c ∈ pointer.name.toList, Source.isInk c = true := by
  cases pointer with
  | general register => cases register <;> exact List.all_eq_true.1 (by decide)
  | stack => exact List.all_eq_true.1 (by decide)

theorem ink_offset (pointer : Pointer) (value : Int) :
    ∀ c ∈ pointer.name.toList ++ withSign value, Source.isInk c = true := by
  intro c mem
  rcases List.mem_append.1 mem with inName | inOffset
  · exact ink_name pointer c inName
  -- a sign stands in front of the digits in both cases
  · by_cases negative : value < 0
    · rw [withSign, if_pos negative, decimal_of_neg negative] at inOffset
      rcases List.mem_cons.1 inOffset with rfl | digit
      · decide
      · exact ink_toDigits _ c digit
    · rw [withSign, if_neg negative, ← Int.natAbs_of_nonneg (by omega : 0 ≤ value),
        decimal_natCast] at inOffset
      rcases List.mem_cons.1 inOffset with rfl | digit
      · decide
      · exact ink_toDigits _ c digit

/-- **The text of an operand byte is simple.** -/
theorem simple_shown {shape : Shape} (encoded : shape.isEncoded = true) (byte : UInt8) :
    Source.Simple (shown shape byte) := by
  cases shape with
  | register =>
    -- a name, or a number behind a question mark
    by_cases small : byte.toNat < 4
    · obtain ⟨register, text, -⟩ := registerText_of_lt small
      have shownEq : shown .register byte = (Pointer.general register).name.toList := by
        rw [shown, operandText, text]
        rfl
      rw [shownEq]
      refine Source.simple_of_ink (ink_name _) ?_
      cases register <;> decide
    · have shownEq : shown .register byte = '?' :: Nat.toDigits 10 byte.toNat := by
        rw [shown, operandText, registerText_of_le (by omega)]
      rw [shownEq]
      refine Source.simple_of_ink (fun c mem => ?_) (by simp)
      rcases List.mem_cons.1 mem with rfl | digit
      · decide
      · exact ink_toDigits _ c digit
  | immediate => exact Source.simple_of_ink (ink_markedByte _) (List.cons_ne_nil _ _)
  | target => exact Source.simple_of_ink (ink_markedByte _) (List.cons_ne_nil _ _)
  | address => exact Source.simple_brackets_of_ink (ink_markedByte _)
  | indirect =>
    have text : shown .indirect byte = indirectText byte.toNat := rfl
    rw [text, indirectText_eq]
    split
    · exact Source.simple_brackets_of_ink (ink_name _)
    · exact Source.simple_brackets_of_ink (ink_offset _ _)
  | stackOffset => exact Source.simple_brackets_of_ink (ink_offset .stack _)
  | label => cases encoded
  | text => cases encoded

end Disassembly

end EightBit
