/-!
# The Instruction Set

The 85 instructions of the machine, each one opcode byte followed by one byte per operand. There
are no other forms and no variable lengths.

## Design

An instruction is a value of `Instr`: what it does, and the form of its operands. The fields keep
together what executes alike, so the ten binary operations differ only in `Binary`, and the four
forms of a right operand are the four values of `Right` wherever one occurs.

The assembler knows a mnemonic and the shapes of the operands as they were written. A number in the place
of a jump destination is written as an immediate byte, and most instructions also take a bare label for a
number.

## Main Definitions

- `Shape`: what an operand looks like.
- `Instr.mnemonic`, `Instr.shapes`: how the instruction is written.
- `Instr.opcode`, `Instr.decode?`: its number and back.
- `Instr.all`: every instruction, in order of opcode.
- `Instr.spellings`, `Instr.aliases`: the shapes under which it can be written, and second names of jumps.
- `Instr.lookup?`: the instruction that a mnemonic and shapes stand for.
-/

namespace EightBit

/-! ## Shapes of operands

The first six are the shapes that instructions are encoded with; a bare label and a text in quotes are
written in source only. -/

/-- The shape of one operand. -/
inductive Shape
  /-- A general register. -/
  | register
  /-- An immediate byte. -/
  | immediate
  /-- A memory address in brackets. -/
  | address
  /-- A register in brackets, with an offset. -/
  | indirect
  /-- An offset from the stack pointer, in brackets. -/
  | stackOffset
  /-- The destination of a jump or a call. -/
  | target
  /-- A bare label. -/
  | label
  /-- A text in double quotes. -/
  | text
  deriving DecidableEq, Repr

/-- The short name of a shape. -/
def Shape.name : Shape → String
  | .register => "REG"
  | .immediate => "IMM"
  | .address => "ADDR"
  | .indirect => "RIND"
  | .stackOffset => "SPOFF"
  | .target => "TARGET"
  | .label => "LABEL"
  | .text => "STRING"

/-- Every shape. -/
def Shape.all : List Shape :=
  [.register, .immediate, .address, .indirect, .stackOffset, .target, .label, .text]

/-- The shape of that short name. -/
def Shape.ofName? (name : String) : Option Shape :=
  Shape.all.find? (·.name == name)

/-! ## The parts of an instruction -/

/-- The ten forms of a move, destination before source. -/
inductive Move
  | registerImmediate
  | registerRegister
  | registerAddress
  | registerIndirect
  | registerStack
  | addressImmediate
  | addressRegister
  | indirectImmediate
  | indirectRegister
  | stackRegister
  deriving DecidableEq, Repr

/-- The forms of the right operand of an operation. -/
inductive Right
  | immediate
  | register
  | address
  | indirect
  deriving DecidableEq, Repr

/-- Operations that combine a register with a right operand. -/
inductive Binary
  | add
  | sub
  | mul
  | div
  | and
  | or
  | xor
  deriving DecidableEq, Repr

/-- Operations that change one register. -/
inductive Unary
  | inc
  | dec
  | neg
  | not
  deriving DecidableEq, Repr

/-- The two directions of a shift. -/
inductive Shift
  | left
  | right
  deriving DecidableEq, Repr

/-- The conditions of a jump. -/
inductive Condition
  | always
  | carry
  | notCarry
  | zero
  | notZero
  | above
  | notAbove
  | sign
  | notSign
  deriving DecidableEq, Repr

/-- Where the destination of a jump or a call comes from. -/
inductive Destination
  | direct
  | register
  deriving DecidableEq, Repr

/-- An instruction. -/
inductive Instr
  | halt
  | move (form : Move)
  | binary (op : Binary) (right : Right)
  | unary (op : Unary)
  | compare (right : Right)
  | jump (condition : Condition) (destination : Destination)
  | push (value : Right)
  | pop
  | pushFlags
  | popFlags
  | call (destination : Destination)
  | ret
  | shift (direction : Shift) (right : Right)
  | output
  | input
  deriving DecidableEq, Repr

/-! ## How instructions are written -/

/-- The shapes of destination and source. -/
def Move.shapes : Move → Shape × Shape
  | .registerImmediate => (.register, .immediate)
  | .registerRegister => (.register, .register)
  | .registerAddress => (.register, .address)
  | .registerIndirect => (.register, .indirect)
  | .registerStack => (.register, .stackOffset)
  | .addressImmediate => (.address, .immediate)
  | .addressRegister => (.address, .register)
  | .indirectImmediate => (.indirect, .immediate)
  | .indirectRegister => (.indirect, .register)
  | .stackRegister => (.stackOffset, .register)

/-- The shape of a right operand. -/
def Right.shape : Right → Shape
  | .immediate => .immediate
  | .register => .register
  | .address => .address
  | .indirect => .indirect

/-- The shape of a destination. -/
def Destination.shape : Destination → Shape
  | .direct => .target
  | .register => .register

/-- The mnemonic of a binary operation. -/
def Binary.mnemonic : Binary → String
  | .add => "ADD"
  | .sub => "SUB"
  | .mul => "MUL"
  | .div => "DIV"
  | .and => "AND"
  | .or => "OR"
  | .xor => "XOR"

/-- The mnemonic of a unary operation. -/
def Unary.mnemonic : Unary → String
  | .inc => "INC"
  | .dec => "DEC"
  | .neg => "NEG"
  | .not => "NOT"

/-- The mnemonic of a shift. -/
def Shift.mnemonic : Shift → String
  | .left => "SHL"
  | .right => "SHR"

/-- The mnemonic of a jump. -/
def Condition.mnemonic : Condition → String
  | .always => "JMP"
  | .carry => "JC"
  | .notCarry => "JNC"
  | .zero => "JZ"
  | .notZero => "JNZ"
  | .above => "JA"
  | .notAbove => "JNA"
  | .sign => "JS"
  | .notSign => "JNS"

namespace Instr

/-- The mnemonic of an instruction. -/
def mnemonic : Instr → String
  | .halt => "HLT"
  | .move _ => "MOV"
  | .binary op _ => op.mnemonic
  | .unary op => op.mnemonic
  | .compare _ => "CMP"
  | .jump condition _ => condition.mnemonic
  | .push _ => "PUSH"
  | .pop => "POP"
  | .pushFlags => "PUSHF"
  | .popFlags => "POPF"
  | .call _ => "CALL"
  | .ret => "RET"
  | .shift direction _ => direction.mnemonic
  | .output => "OUT"
  | .input => "IN"

/-- The shapes of the operands, in the order of their bytes. -/
def shapes : Instr → List Shape
  | .move form => [form.shapes.1, form.shapes.2]
  | .binary _ right | .compare right | .shift _ right => [.register, right.shape]
  | .unary _ | .pop => [.register]
  | .jump _ destination | .call destination => [destination.shape]
  | .push value => [value.shape]
  | .output | .input => [.immediate]
  | .halt | .pushFlags | .popFlags | .ret => []

/-- The number of bytes, opcode included. -/
def size (instr : Instr) : Nat :=
  1 + instr.shapes.length

end Instr

/-! ## Opcodes -/

/-- The place of a form among the moves. -/
def Move.index : Move → Nat
  | .registerImmediate => 0
  | .registerRegister => 1
  | .registerAddress => 2
  | .registerIndirect => 3
  | .registerStack => 4
  | .addressImmediate => 5
  | .addressRegister => 6
  | .indirectImmediate => 7
  | .indirectRegister => 8
  | .stackRegister => 9

/-- The place of a form among the right operands. -/
def Right.index : Right → Nat
  | .immediate => 0
  | .register => 1
  | .address => 2
  | .indirect => 3

/-- The place of a form among the destinations. -/
def Destination.index : Destination → Nat
  | .direct => 0
  | .register => 1

/-- The opcode of a binary operation on an immediate byte. -/
def Binary.base : Binary → Nat
  | .add => 11
  | .sub => 15
  | .mul => 54
  | .div => 58
  | .and => 62
  | .or => 66
  | .xor => 70

/-- The opcode of a unary operation. -/
def Unary.opcode : Unary → Nat
  | .inc => 19
  | .dec => 20
  | .neg => 21
  | .not => 74

/-- The opcode of a shift by an immediate byte. -/
def Shift.base : Shift → Nat
  | .left => 75
  | .right => 79

/-- The opcode of a jump to a direct destination. -/
def Condition.base : Condition → Nat
  | .always => 26
  | .carry => 28
  | .notCarry => 30
  | .zero => 32
  | .notZero => 34
  | .above => 36
  | .notAbove => 38
  | .sign => 40
  | .notSign => 42

namespace Instr

/-- The opcode of an instruction. -/
def opcode : Instr → Nat
  | .halt => 0
  | .move form => 1 + form.index
  | .binary op right => op.base + right.index
  | .unary op => op.opcode
  | .compare right => 22 + right.index
  | .jump condition destination => condition.base + destination.index
  | .push value => 44 + value.index
  | .pop => 48
  | .pushFlags => 49
  | .popFlags => 50
  | .call destination => 51 + destination.index
  | .ret => 53
  | .shift direction right => direction.base + right.index
  | .output => 83
  | .input => 84

/-- The four forms of an instruction with a right operand. -/
def overRight (make : Right → Instr) : List Instr :=
  [make .immediate, make .register, make .address, make .indirect]

/-- The two forms of an instruction with a destination. -/
def overDestination (make : Destination → Instr) : List Instr :=
  [make .direct, make .register]

/-- Every instruction, in order of opcode. -/
def all : List Instr :=
  [.halt] ++
  [.move .registerImmediate, .move .registerRegister, .move .registerAddress,
    .move .registerIndirect, .move .registerStack, .move .addressImmediate,
    .move .addressRegister, .move .indirectImmediate, .move .indirectRegister,
    .move .stackRegister] ++
  overRight (.binary .add) ++ overRight (.binary .sub) ++
  [.unary .inc, .unary .dec, .unary .neg] ++
  overRight .compare ++
  overDestination (.jump .always) ++ overDestination (.jump .carry) ++
  overDestination (.jump .notCarry) ++ overDestination (.jump .zero) ++
  overDestination (.jump .notZero) ++ overDestination (.jump .above) ++
  overDestination (.jump .notAbove) ++ overDestination (.jump .sign) ++
  overDestination (.jump .notSign) ++
  overRight .push ++ [.pop, .pushFlags, .popFlags] ++
  overDestination .call ++ [.ret] ++
  overRight (.binary .mul) ++ overRight (.binary .div) ++
  overRight (.binary .and) ++ overRight (.binary .or) ++ overRight (.binary .xor) ++
  [.unary .not] ++
  overRight (.shift .left) ++ overRight (.shift .right) ++
  [.output, .input]

/-- The instruction with that opcode. -/
def decode? (opcode : Nat) : Option Instr :=
  all[opcode]?

/-- Decoding inverts the opcode. -/
theorem decode?_opcode (instr : Instr) : decode? instr.opcode = some instr := by
  cases instr with
  | move form => cases form <;> rfl
  | binary op right => cases op <;> cases right <;> rfl
  | unary op => cases op <;> rfl
  | compare right => cases right <;> rfl
  | jump condition destination => cases condition <;> cases destination <;> rfl
  | push value => cases value <;> rfl
  | call destination => cases destination <;> rfl
  | shift direction right => cases direction <;> cases right <;> rfl
  | halt => rfl
  | pop => rfl
  | pushFlags => rfl
  | popFlags => rfl
  | ret => rfl
  | output => rfl
  | input => rfl

/-- The instructions are listed in order of opcode. -/
theorem map_opcode_all : all.map opcode = List.range 85 := by
  decide

/-- Only the instruction's own opcode decodes to it. -/
theorem opcode_of_decode? {opcode : Nat} {instr : Instr} (h : decode? opcode = some instr) :
    instr.opcode = opcode := by
  have listed : (all.map Instr.opcode)[opcode]? = some instr.opcode := by
    rw [List.getElem?_map, show all[opcode]? = some instr from h]
    rfl
  rw [map_opcode_all] at listed
  exact ((List.getElem?_eq_some_iff.1 listed).2.symm.trans (List.getElem_range ..))

/-- An opcode has an instruction exactly below 85. -/
theorem isSome_decode? (opcode : Nat) : (decode? opcode).isSome = decide (opcode < 85) := by
  have count : all.length = 85 := by decide
  by_cases below : opcode < 85
  · simp [decode?, List.getElem?_eq_getElem (count ▸ below), below]
  · simp [decode?, List.getElem?_eq_none (by omega : all.length ≤ opcode), below]

/-! ## Finding an instruction by its spelling -/

/-- Pushing an immediate byte and the two port instructions take no label for a number. -/
def takesLabel : Instr → Bool
  | .push _ | .output | .input => false
  | _ => true

/-- The shapes that may be written for an operand of the given shape. -/
def slot (takesLabel : Bool) : Shape → List Shape
  | .immediate => if takesLabel then [.immediate, .label] else [.immediate]
  | .target => if takesLabel then [.target, .immediate, .label] else [.target, .immediate]
  | shape => [shape]

/-- Every way to choose one member from each list. -/
def choices : List (List Shape) → List (List Shape)
  | [] => [[]]
  | slot :: slots => slot.flatMap fun shape => (choices slots).map (shape :: ·)

/-- The operand shapes under which an instruction can be written. A bare label after `PUSH` means
the byte stored there. -/
def spellings (instr : Instr) : List (List Shape) :=
  let regular := choices (instr.shapes.map (slot instr.takesLabel))
  match instr with
  | .push .address => regular ++ [[.label]]
  | _ => regular

/-- The second names of jumps. -/
def aliases : List (String × String) :=
  [("JE", "JZ"), ("JNE", "JNZ"), ("JB", "JC"), ("JNB", "JNC"), ("JAE", "JNC"), ("JNBE", "JA"),
    ("JBE", "JNA")]

/-- The mnemonic that a name stands for. -/
def canonical (name : String) : String :=
  (aliases.lookup name).getD name

/-- Every mnemonic that the assembler accepts. -/
def mnemonics : List String :=
  (all.map mnemonic).eraseDups ++ aliases.map Prod.fst

/-- The instruction that a mnemonic with operands of those shapes stands for. -/
def lookup? (name : String) (shapes : List Shape) : Option Instr :=
  all.find? fun instr => instr.mnemonic == canonical name && instr.spellings.contains shapes

end Instr

end EightBit
