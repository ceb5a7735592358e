import EightBit.Bits
import EightBit.Instr
import EightBit.Numeral
import EightBit.Registers

/-!
# Disassembly

Machine code is read from its start, one instruction after the other. A byte that is no opcode, or
whose instruction does not fit before the end, becomes a data item of its own, so no byte is lost.

## Main Definitions

- `operandText`: an operand byte in the notation of its shape.
- `Item`: a stretch of bytes with its address and its text.
- `disassemble`: the items of some code.
- `report`: the items as lines of text.
-/

namespace EightBit.Disassembly

/-! ## Operands -/

/-- Why an operand has no text. -/
inductive Unreadable
  /-- A register number is below -4. -/
  | registerIndex
  /-- A register number is below -4 and does not fit into 64 bits either. -/
  | wideRegisterIndex
  /-- No instruction has operands of this shape. -/
  | unknownShape (name : String)
  deriving DecidableEq, Repr

/-- A register by number. Negative numbers down to -4 count from the last register; numbers that
are too large are shown with a question mark. -/
def registerText (index : Int) : Except Unreadable (List Char) :=
  if 4 ≤ index then .ok ('?' :: Numeral.decimal index)
  else if index < -4 then
    .error (if Bits.fits64 index then .registerIndex else .wideRegisterIndex)
  else .ok ((Register.ofIndex? (index % 4)).elim [] fun r => r.name.toList)

/-- A register or the stack pointer in brackets, with its offset of five bits unless that is zero.
Numbers above a byte have offsets that do not fit five bits. -/
def indirectText (code : Int) : List Char :=
  let name := (Register.ofIndex? (code % 8)).elim "SP" Register.name
  let units := code / 8
  let offset := if 15 < units then units - 32 else units
  if offset = 0 then '[' :: name.toList ++ [']']
  else '[' :: name.toList ++ Numeral.withSign offset ++ [']']

/-- The stack pointer in brackets with its offset, which is negative if bit 7 of the byte is set. -/
def stackText (code : Int) : List Char :=
  let offset := if code / 128 % 2 = 1 then code - 256 else code
  "[SP".toList ++ Numeral.withSign offset ++ [']']

/-- A byte in hexadecimal with its `0x`. -/
def byteText (code : Int) : List Char :=
  '0' :: 'x' :: Numeral.hexByte code

/-- An operand in the notation of its shape. -/
def operandText (shape : Shape) (code : Int) : Except Unreadable (List Char) :=
  match shape with
  | .register => registerText code
  | .immediate | .target => .ok (byteText code)
  | .address => .ok ('[' :: byteText code ++ [']'])
  | .indirect => .ok (indirectText code)
  | .stackOffset => .ok (stackText code)
  | .label | .text => .error (.unknownShape shape.name)

/-! ## Items -/

/-- A stretch of bytes, its address and its text. -/
structure Item where
  address : Int
  bytes : List UInt8
  text : List Char
  deriving DecidableEq, Repr

/-- A byte that is data. -/
def dataItem (address : Int) (byte : UInt8) : Item :=
  ⟨address, [byte], "DB ".toList ++ byteText byte.toNat⟩

/-- The text of an instruction with the given operand bytes. -/
def instrText (instr : Instr) (operands : List UInt8) : List Char :=
  let shown := (instr.shapes.zip operands).map fun (shape, byte) =>
    match operandText shape byte.toNat with
    | .ok text => text
    | .error _ => []
  if shown.isEmpty then instr.mnemonic.toList
  else instr.mnemonic.toList ++ ' ' :: [',', ' '].intercalate shown

/-- The instruction at the start of some code, if all of it is there. -/
def whole? (code : List UInt8) : Option Instr :=
  match code with
  | [] => none
  | opcode :: operands =>
    (Instr.decode? opcode.toNat).filter fun instr => instr.shapes.length ≤ operands.length

/-- The items of code whose first byte has the given address. -/
def disassemble (address : Int) (code : List UInt8) : List Item :=
  match code with
  | [] => []
  | opcode :: operands =>
    match whole? (opcode :: operands) with
    | none => dataItem address opcode :: disassemble (address + 1) operands
    | some instr =>
      -- all operand bytes are there, so the item is as long as the instruction
      let taken := operands.take instr.shapes.length
      ⟨address, opcode :: taken, instrText instr taken⟩ ::
        disassemble (address + instr.size) (operands.drop instr.shapes.length)
termination_by code.length
decreasing_by
  all_goals simp only [List.length_drop, List.length_cons]
  all_goals omega

/-- An item as a line: address, bytes and text. -/
def Item.row (item : Item) : List Char :=
  let bytes := [' '].intercalate (item.bytes.map fun b => Numeral.hexByte b.toNat)
  Numeral.hexByte item.address ++ "  ".toList ++ bytes ++
    List.replicate (9 - bytes.length) ' ' ++ "  ".toList ++ item.text

/-- The items of code as lines. -/
def report (address : Int) (code : List UInt8) : List Char :=
  ['\n'].intercalate ((disassemble address code).map Item.row)

end EightBit.Disassembly
