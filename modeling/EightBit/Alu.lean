import EightBit.Bits
import EightBit.Fault
import EightBit.Instr

/-!
# Arithmetic and Logic

The operations compute on unbounded integers and report four flags. Most results are cut to a
byte; the bitwise ones are bytes whenever their operands are, and are left as they come.

## Flags

- zero and sign are those of the low byte of the result;
- carry is a result above 255 or, for a difference, below zero;
- overflow is a sign that two's complement arithmetic on bytes could not produce.

## Main Definitions

- `Flags`, `Outcome`: what an operation reports.
- `Binary.eval?`, `Unary.eval`, `Shift.eval?`: the operations.
-/

namespace EightBit

/-- The flags that an operation sets. -/
structure Flags where
  carry : Bool := false
  overflow : Bool := false
  zero : Bool := false
  sign : Bool := false
  deriving DecidableEq, Repr

namespace Flags

/-- One for a raised flag, zero for a lowered one. -/
def unit (flag : Bool) : Int :=
  if flag then 1 else 0

/-- The flags as bits 1 to 4 of a status. -/
def bits (flags : Flags) : Int :=
  2 * unit flags.carry + 4 * unit flags.overflow + 8 * unit flags.zero + 16 * unit flags.sign

/-- The flags in bits 1 to 4 of a number. -/
def ofBits (value : Int) : Flags where
  carry := Bits.bit 1 value
  overflow := Bits.bit 2 value
  zero := Bits.bit 3 value
  sign := Bits.bit 4 value

/-- Zero and sign of a result, the other flags being lowered. -/
def ofResult (result : Int) : Flags where
  zero := result % 256 == 0
  sign := Bits.bit 7 result

end Flags

/-- The result of an operation with its flags. -/
structure Outcome where
  value : Int
  flags : Flags
  deriving DecidableEq, Repr

namespace Alu

/-- Sum. -/
def add (a b : Int) : Outcome :=
  let result := a + b
  let a7 := Bits.bit 7 a
  let b7 := Bits.bit 7 b
  let r7 := Bits.bit 7 result
  ⟨result % 256, { Flags.ofResult result with
    carry := 255 < result
    overflow := (a7 && b7 && !r7) || (!a7 && !b7 && r7) }⟩

/-- Difference. -/
def sub (a b : Int) : Outcome :=
  let result := a - b
  let a7 := Bits.bit 7 a
  let b7 := Bits.bit 7 b
  let r7 := Bits.bit 7 result
  ⟨result % 256, { Flags.ofResult result with
    carry := a < b
    overflow := (a7 && !b7 && !r7) || (!a7 && b7 && r7) }⟩

/-- Product; carry and overflow tell that it is no byte. -/
def mul (a b : Int) : Outcome :=
  let result := a * b
  ⟨result % 256, { Flags.ofResult result with carry := 255 < result, overflow := 255 < result }⟩

/-- Quotient rounded downwards, for a divisor that is not zero. -/
def div (a b : Int) : Outcome :=
  let result := a.fdiv b
  ⟨result % 256, Flags.ofResult result⟩

/-- A result of a bitwise operation. -/
def bitwise (result : Int) : Outcome :=
  ⟨result, Flags.ofResult result⟩

/-- One more. -/
def inc (a : Int) : Outcome :=
  let result := a + 1
  ⟨result % 256, { Flags.ofResult result with carry := a == 255, overflow := a == 127 }⟩

/-- One less; it does not say anything about the carry. -/
def dec (a : Int) : Outcome :=
  let result := a - 1
  ⟨result % 256, { Flags.ofResult result with overflow := a == 128 }⟩

/-- Two's complement. -/
def neg (a : Int) : Outcome :=
  let result := -a
  ⟨result % 256, { Flags.ofResult result with carry := a != 0, overflow := a == 128 }⟩

/-- One's complement. -/
def not (a : Int) : Outcome :=
  bitwise (a.not % 256)

/-- Shift to the left by one place or more; the carry is the last bit that left the byte. After nine
places neither the byte nor the carry has a bit of the operand left, so no more are taken. -/
def shl (a : Int) (count : Nat) : Outcome :=
  let places := min count 9
  let result := a * Int.pow 2 places
  ⟨result % 256, { Flags.ofResult result with carry := Bits.bit 7 (a * Int.pow 2 (places - 1)) }⟩

/-- Shift to the right by one place or more; the carry is the last bit that left. -/
def shr (a : Int) (count : Nat) : Outcome :=
  let result := a >>> count
  ⟨result % 256, { Flags.ofResult result with carry := Bits.bit 0 (a >>> (count - 1)) }⟩

end Alu

/-- A binary operation; only a division can fail. -/
def Binary.eval? (op : Binary) (a b : Int) : Except Trap Outcome :=
  match op with
  | .add => .ok (Alu.add a b)
  | .sub => .ok (Alu.sub a b)
  | .mul => .ok (Alu.mul a b)
  | .div => if b = 0 then .error .divisionByZero else .ok (Alu.div a b)
  | .and => .ok (Alu.bitwise (Bits.conj a b))
  | .or => .ok (Alu.bitwise (Bits.disj a b))
  | .xor => .ok (Alu.bitwise (Bits.xor a b))

/-- A unary operation. -/
def Unary.eval (op : Unary) (a : Int) : Outcome :=
  match op with
  | .inc => Alu.inc a
  | .dec => Alu.dec a
  | .neg => Alu.neg a
  | .not => Alu.not a

/-- A shift by a count of at least one. A smaller count has no last bit that left. -/
def Shift.eval? (direction : Shift) (a count : Int) : Option Outcome :=
  if count < 1 then none
  else match direction with
    | .left => some (Alu.shl a count.toNat)
    | .right => some (Alu.shr a count.toNat)

end EightBit
