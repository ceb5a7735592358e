import EightBit.Alu
import EightBit.Parameters

/-!
# Registers

Four general registers of a byte each, by name and by the number that operand bytes use, and three
registers that are kept as unbounded integers: stack pointer, instruction pointer and status. An
instruction that goes out of bounds is told from one that stays inside by the value of the pointer, so
pointers are never wrapped.

## Status

| bit | 4 | 3 | 2 | 1 | 0 |
|---|---|---|---|---|---|
| flag | sign | zero | overflow | carry | fault |

## Main Definitions

- `Register`: the general registers.
- `Status`: reading and replacing the flags of a status.
- `Registers`: the register file, with `get` and `set` by register.
- `Registers.summary`: the line that traces and messages print.
-/

namespace EightBit

/-! ## General registers -/

/-- A general register. -/
inductive Register
  | al
  | bl
  | cl
  | dl
  deriving DecidableEq, Repr

namespace Register

/-- Every general register, in order of number. -/
def all : List Register :=
  [.al, .bl, .cl, .dl]

/-- The number of a register. -/
def index : Register → Nat
  | .al => 0
  | .bl => 1
  | .cl => 2
  | .dl => 3

/-- The name of a register. -/
def name : Register → String
  | .al => "AL"
  | .bl => "BL"
  | .cl => "CL"
  | .dl => "DL"

/-- The register with that number. -/
def ofIndex? (index : Int) : Option Register :=
  if index < 0 then none else all[index.toNat]?

/-- A register is found by its number. -/
theorem ofIndex?_index (register : Register) : ofIndex? register.index = some register := by
  cases register <;> rfl

end Register

/-! ## Status -/

namespace Status

/-- The fault flag. -/
def fault (status : Int) : Bool := Bits.bit 0 status

/-- The carry flag. -/
def carry (status : Int) : Bool := Bits.bit 1 status

/-- The overflow flag. -/
def overflow (status : Int) : Bool := Bits.bit 2 status

/-- The zero flag. -/
def zero (status : Int) : Bool := Bits.bit 3 status

/-- The sign flag. -/
def sign (status : Int) : Bool := Bits.bit 4 status

/-- Replaces all flags but the fault flag. -/
def setFlags (status : Int) (flags : Flags) : Int :=
  Flags.unit (fault status) + flags.bits

/-- Replaces all flags but fault and carry. -/
def setFlagsKeepCarry (status : Int) (flags : Flags) : Int :=
  setFlags status { flags with carry := carry status }

/-- **What a status says after its flags have been set**: the flags that were given, the fault flag as
it was before, and nothing above them. -/
theorem setFlags_spec (status : Int) (flags : Flags) :
    (0 ≤ setFlags status flags ∧ setFlags status flags < 32) ∧
      fault (setFlags status flags) = fault status ∧
      carry (setFlags status flags) = flags.carry ∧
      overflow (setFlags status flags) = flags.overflow ∧
      zero (setFlags status flags) = flags.zero ∧
      sign (setFlags status flags) = flags.sign := by
  obtain ⟨carry, overflow, zero, sign⟩ := flags
  unfold setFlags
  -- of the old status only the fault flag is kept, so five flags decide everything
  generalize fault status = fault
  cases fault <;> cases carry <;> cases overflow <;> cases zero <;> cases sign <;> decide

section

variable (status : Int) (flags : Flags)

@[simp] theorem fault_setFlags : fault (setFlags status flags) = fault status :=
  (setFlags_spec status flags).2.1

@[simp] theorem carry_setFlags : carry (setFlags status flags) = flags.carry :=
  (setFlags_spec status flags).2.2.1

@[simp] theorem zero_setFlags : zero (setFlags status flags) = flags.zero :=
  (setFlags_spec status flags).2.2.2.2.1

@[simp] theorem sign_setFlags : sign (setFlags status flags) = flags.sign :=
  (setFlags_spec status flags).2.2.2.2.2

/-- Only the fault flag of a status remains when the others are replaced. -/
theorem setFlags_setFlags (first second : Flags) :
    setFlags (setFlags status first) second = setFlags status second := by
  rw [setFlags, fault_setFlags]
  rfl

end

/-- The status that a whole byte stands for: its five low bits. -/
def ofByte (value : Int) : Int :=
  value % 32

/-- Raises or lowers the fault flag. Lowering it keeps the low byte only. -/
def setFault (status : Int) (on : Bool) : Int :=
  if on then status + Flags.unit (!fault status)
  else status % 256 - Flags.unit (fault status)

end Status

/-! ## Registers -/

/-- The register file. -/
structure Registers where
  al : UInt8 := 0
  bl : UInt8 := 0
  cl : UInt8 := 0
  dl : UInt8 := 0
  sp : Int := stackTop
  ip : Int := 0
  sr : Int := 0
  deriving DecidableEq, Repr

namespace Registers

/-- The value of a general register. -/
def get (regs : Registers) : Register → UInt8
  | .al => regs.al
  | .bl => regs.bl
  | .cl => regs.cl
  | .dl => regs.dl

/-- Gives a general register a value. -/
def set (regs : Registers) (register : Register) (value : UInt8) : Registers :=
  match register with
  | .al => { regs with al := value }
  | .bl => { regs with bl := value }
  | .cl => { regs with cl := value }
  | .dl => { regs with dl := value }

@[simp] theorem get_set_self (regs : Registers) (register : Register) (value : UInt8) :
    (regs.set register value).get register = value := by
  cases register <;> rfl

@[simp] theorem get_set_of_ne (regs : Registers) {register other : Register} (value : UInt8)
    (ne : other ≠ register) : (regs.set register value).get other = regs.get other := by
  cases register <;> cases other <;> first | rfl | exact absurd rfl ne

/-- The value of the register with a number, or the trap for a number of none. -/
def read? (regs : Registers) (index : Int) : Except Trap UInt8 :=
  match Register.ofIndex? index with
  | some register => .ok (regs.get register)
  | none => .error (.invalidRegister index)

/-- Gives the register with a number the low byte of a value. -/
def write? (regs : Registers) (index value : Int) : Except Trap Registers :=
  match Register.ofIndex? index with
  | some register => .ok (regs.set register (Bits.toByte value))
  | none => .error (.invalidRegister index)

/-- The condition of a jump. -/
def holds (regs : Registers) : Condition → Bool
  | .always => true
  | .carry => Status.carry regs.sr
  | .notCarry => !Status.carry regs.sr
  | .zero => Status.zero regs.sr
  | .notZero => !Status.zero regs.sr
  | .above => !Status.zero regs.sr && !Status.carry regs.sr
  | .notAbove => Status.zero regs.sr || Status.carry regs.sr
  | .sign => Status.sign regs.sr
  | .notSign => !Status.sign regs.sr

/-- The address that a register in brackets with an offset of five bits denotes. -/
def indirectAddress (regs : Registers) (code : UInt8) : Int :=
  let base := match Register.ofIndex? (code.toNat % 8 : Nat) with
    | some register => ((regs.get register).toNat : Int)
    | none => regs.sp
  let units := (code.toNat / 8 : Nat)
  base + (if 15 < units then (units : Int) - 32 else units)

/-- The address that an offset from the stack pointer denotes. -/
def stackAddress (regs : Registers) (code : UInt8) : Int :=
  regs.sp + Bits.signed8 code.toNat

/-- The flags as letters, with a dash for a lowered one. -/
def showFlags (regs : Registers) : List Char :=
  let letter (flag : Bool) (c : Char) := if flag then c else '-'
  [letter (Status.sign regs.sr) 'S', letter (Status.zero regs.sr) 'Z',
    letter (Status.overflow regs.sr) 'O', letter (Status.carry regs.sr) 'C',
    letter (Status.fault regs.sr) 'F']

/-- Every register with its value in hexadecimal. -/
def showValues (regs : Registers) : List Char :=
  let general := Register.all.flatMap fun register =>
    register.name.toList ++ '=' :: Numeral.hexByte (regs.get register).toNat ++ [' ']
  general ++ "SP=".toList ++ Numeral.hexByte regs.sp ++ " IP=".toList ++ Numeral.hexByte regs.ip

/-- The register file as one line. -/
def summary (regs : Registers) : List Char :=
  regs.showValues ++ " SR=[".toList ++ regs.showFlags ++ [']']

end Registers

end EightBit
