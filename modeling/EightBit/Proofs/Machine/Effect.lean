import EightBit.Proofs.Machine.Invariant

/-!
# What Instructions Do

What an instruction comes to, as a relation between the registers and the memory before it and those
after it, with one rule for each kind of instruction. The rules are said without actions: they look at
operands by their index and only name the one thing that is changed. A second relation says the same of
an instruction that cannot complete, with one rule for each condition that stops it.

Devices and observers are not part of this. Where an instruction asks one, the rule says that the port
or the observer has given such an answer, on whatever machine.

## Main Definitions

- `Registers.operand?`: the value of an operand.
- `HasOperand`, `Values`, `Names`, `Denotes`: the operands of the instruction at the instruction pointer.
- `Pushes`, `Stores`: the byte that an instruction pushes, and the one store it makes.
- `Executes`: what a completed instruction leaves behind.
- `Breaks`: what an instruction leaves behind that cannot complete.
-/

namespace EightBit

/-! ## Registers -/

namespace Registers

/-- The instruction pointer has been moved on. -/
def forward (regs : Registers) (count : Nat) : Registers :=
  { regs with ip := regs.ip + count }

/-- The instruction pointer is behind an instruction that it was on. -/
def past (regs : Registers) (instr : Instr) : Registers :=
  regs.forward instr.size

/-- The stack pointer has been moved. -/
def moveStack (regs : Registers) (distance : Int) : Registers :=
  { regs with sp := regs.sp + distance }

/-- The instruction pointer is at an address. -/
def goto (regs : Registers) (address : UInt8) : Registers :=
  { regs with ip := address.toNat }

/-- All flags but the fault flag have been replaced. -/
def withFlags (regs : Registers) (flags : Flags) : Registers :=
  { regs with sr := Status.setFlags regs.sr flags }

/-- The flags of a unary operation have been set. A decrement leaves the carry as it is. -/
def withUnaryFlags (regs : Registers) (op : Unary) (flags : Flags) : Registers :=
  { regs with
    sr := if op = .dec then Status.setFlagsKeepCarry regs.sr flags
      else Status.setFlags regs.sr flags }

/-- A register has been changed by a unary operation. -/
def applyUnary (regs : Registers) (op : Unary) (register : Register) : Registers :=
  let outcome := op.eval (regs.get register).toNat
  (regs.set register (Bits.toByte outcome.value)).withUnaryFlags op outcome.flags

section Fields

variable (regs : Registers) (count : Nat) (distance : Int) (flags : Flags) (address value : UInt8)
  (register : Register)

@[simp] theorem forward_zero : regs.forward 0 = regs := by
  simp [forward]

@[simp] theorem forward_forward (more : Nat) :
    (regs.forward count).forward more = regs.forward (count + more) := by
  simp [forward, Int.add_assoc]

@[simp] theorem ip_forward : (regs.forward count).ip = regs.ip + count := rfl
@[simp] theorem sp_forward : (regs.forward count).sp = regs.sp := rfl
@[simp] theorem sr_forward : (regs.forward count).sr = regs.sr := rfl

@[simp] theorem get_forward : (regs.forward count).get register = regs.get register := by
  cases register <;> rfl

@[simp] theorem set_forward :
    (regs.forward count).set register value = (regs.set register value).forward count := by
  cases register <;> rfl

@[simp] theorem withUnaryFlags_forward (op : Unary) :
    (regs.forward count).withUnaryFlags op flags = (regs.withUnaryFlags op flags).forward count :=
  rfl

@[simp] theorem ip_moveStack : (regs.moveStack distance).ip = regs.ip := rfl
@[simp] theorem sp_moveStack : (regs.moveStack distance).sp = regs.sp + distance := rfl
@[simp] theorem sr_moveStack : (regs.moveStack distance).sr = regs.sr := rfl

@[simp] theorem get_moveStack : (regs.moveStack distance).get register = regs.get register := by
  cases register <;> rfl

@[simp] theorem ip_goto : (regs.goto address).ip = address.toNat := rfl
@[simp] theorem sp_goto : (regs.goto address).sp = regs.sp := rfl
@[simp] theorem sr_goto : (regs.goto address).sr = regs.sr := rfl

@[simp] theorem ip_withFlags : (regs.withFlags flags).ip = regs.ip := rfl
@[simp] theorem sp_withFlags : (regs.withFlags flags).sp = regs.sp := rfl

@[simp] theorem ip_set : (regs.set register value).ip = regs.ip := by cases register <;> rfl
@[simp] theorem sp_set : (regs.set register value).sp = regs.sp := by cases register <;> rfl
@[simp] theorem sr_set : (regs.set register value).sr = regs.sr := by cases register <;> rfl

@[simp] theorem ip_past (instr : Instr) : (regs.past instr).ip = regs.ip + instr.size := rfl
@[simp] theorem sp_past (instr : Instr) : (regs.past instr).sp = regs.sp := rfl
@[simp] theorem sr_past (instr : Instr) : (regs.past instr).sr = regs.sr := rfl

@[simp] theorem get_past (instr : Instr) : (regs.past instr).get register = regs.get register :=
  get_forward ..

@[simp] theorem ip_applyUnary (op : Unary) : (regs.applyUnary op register).ip = regs.ip :=
  ip_set ..

@[simp] theorem sp_applyUnary (op : Unary) : (regs.applyUnary op register).sp = regs.sp :=
  sp_set ..

end Fields

/-- The address that an operand byte denotes, for the shapes that are places in memory. -/
def address? (regs : Registers) (shape : Shape) (code : UInt8) : Option Int :=
  match shape with
  | .address => some code.toNat
  | .indirect => some (regs.indirectAddress code)
  | .stackOffset => some (regs.stackAddress code)
  | .register | .immediate | .target | .label | .text => none

/-- The value of an operand, or the reason why it has none. -/
def operand? (regs : Registers) (memory : Memory) (shape : Shape) (code : UInt8) :
    Except Failure UInt8 :=
  match shape with
  | .register => (regs.read? code.toNat).mapError .trap
  | .address => (memory.load code.toNat).mapError .outOfBounds
  | .indirect => (memory.load (regs.indirectAddress code)).mapError .outOfBounds
  | .stackOffset => (memory.load (regs.stackAddress code)).mapError .outOfBounds
  | .immediate | .target | .label | .text => .ok code

end Registers

/-! ## Memory -/

namespace Memory

/-- Every address of the memory can be read, and no other. -/
theorem load_cases (memory : Memory) (address : Int) :
    (0 ≤ address ∧ address < memory.size ∧
        memory.load address = .ok (memory.bytes.getD address.toNat 0)) ∨
      (¬(0 ≤ address ∧ address < memory.size) ∧
        memory.load address = .error ⟨address, memory.size⟩) := by
  rw [load]
  split
  · next inside => exact .inl ⟨inside.1, inside.2, rfl⟩
  · next outside => exact .inr ⟨outside, rfl⟩

theorem inside_of_load {memory : Memory} {address : Int} {value : UInt8}
    (loaded : memory.load address = .ok value) : 0 ≤ address ∧ address < memory.size := by
  obtain ⟨low, high, -⟩ | ⟨-, outside⟩ := memory.load_cases address
  · exact ⟨low, high⟩
  · rw [outside] at loaded
    cases loaded

/-- A byte that was written is read again. -/
theorem load_write_self {memory : Memory} (full : memory.Full) {address : Int}
    (inside : 0 ≤ address ∧ address < memory.size) (value : UInt8) :
    (memory.write address.toNat value).load address = .ok value := by
  have there : address.toNat < memory.bytes.size := by
    have sizes := full.size.trans full.bytes.symm
    omega
  rw [load, if_pos (show 0 ≤ address ∧ address < (memory.write address.toNat value).size from inside)]
  simp [write, there]

/-- The other bytes stay as they are. -/
theorem load_write_of_ne {memory : Memory} {address other : Int} (nonneg : 0 ≤ address)
    (ne : other ≠ address) (value : UInt8) :
    (memory.write address.toNat value).load other = memory.load other := by
  rw [load, load]
  refine if_ctx_congr Iff.rfl (fun inside => ?_) fun _ => rfl
  have apart : address.toNat ≠ other.toNat := by omega
  simp [write, Array.getElem?_setIfInBounds_ne apart]

end Memory

/-! ## Devices and observers -/

/-- The failure is one of instructions or of memory themselves. -/
def Failure.IsInternal : Failure → Prop
  | .trap _ | .outOfBounds _ => True
  | .refused _ | .aborted | .waiting | .fault _ => False

/-- The notice is about this store. -/
inductive Notice.IsAbout (address : Int) (value : UInt8) : Notice → Prop
  | watch (old : UInt8) : IsAbout address value (.watch address old value)
  | display : IsAbout address value (.display address value)

namespace Env

variable {σ : Type}

/-- A device or an observer can fail like this: the keyboard in its own ways, the others in those of the
environment. -/
inductive Raises (env : Env σ) : Failure → Prop
  | keyboard {failure} (own : ¬failure.IsInternal) : Raises env failure
  | observer {hook notice before failure after}
      (told : env.notify hook notice before = .error failure after) : Raises env failure
  | device {hook port before failure after}
      (asked : env.answer hook port before = .error failure after) : Raises env failure

/-- An observer that was told of this store, when it had just been made, has failed like this. -/
def Refuses (env : Env σ) (memory : Memory) (address : Int) (value : UInt8) (failure : Failure) :
    Prop :=
  ∃ hook notice before after, notice.IsAbout address value ∧
    before.memory = memory.write address.toNat value ∧
    env.notify hook notice before = .error failure after

/-- Observers and attached devices fail with errors of their own only. -/
structure Ordinary (env : Env σ) : Prop where
  notify : ∀ hook notice before failure after, env.notify hook notice before = .error failure after →
    ¬failure.IsInternal
  answer : ∀ hook port before failure after, env.answer hook port before = .error failure after →
    ¬failure.IsInternal

theorem Ordinary.raises {env : Env σ} (ordinary : env.Ordinary) {failure : Failure}
    (raises : env.Raises failure) : ¬failure.IsInternal := by
  cases raises with
  | keyboard own => exact own
  | observer told => exact ordinary.notify _ _ _ _ _ told
  | device asked => exact ordinary.answer _ _ _ _ _ asked

end Env

namespace Machine

variable {σ : Type}

/-! ## Operands -/

/-- Behind the opcode at the instruction pointer, the operand with that index has this shape and is
encoded by this byte. -/
structure HasOperand (regs : Registers) (memory : Memory) (instr : Instr) (index : Nat) (shape : Shape)
    (code : UInt8) : Prop where
  slot : instr.shapes[index]? = some shape
  byte : memory.load (regs.ip + (index + 1 : Nat)) = .ok code

instance (regs : Registers) (memory : Memory) (instr : Instr) (index : Nat) (shape : Shape)
    (code : UInt8) : Decidable (HasOperand regs memory instr index shape code) :=
  decidable_of_iff (instr.shapes[index]? = some shape ∧
      memory.load (regs.ip + (index + 1 : Nat)) = .ok code)
    ⟨fun ⟨slot, byte⟩ => ⟨slot, byte⟩, fun is => ⟨is.slot, is.byte⟩⟩

/-- The operand with that index has this value. -/
def Values (regs : Registers) (memory : Memory) (instr : Instr) (index : Nat) (value : UInt8) : Prop :=
  ∃ shape code, HasOperand regs memory instr index shape code ∧
    regs.operand? memory shape code = .ok value

/-- The operand with that index is this register. -/
def Names (regs : Registers) (memory : Memory) (instr : Instr) (index : Nat) (register : Register) :
    Prop :=
  ∃ code, HasOperand regs memory instr index .register code ∧
    Register.ofIndex? code.toNat = some register

/-- The operand with that index is this place in memory. -/
def Denotes (regs : Registers) (memory : Memory) (instr : Instr) (index : Nat) (address : Int) : Prop :=
  ∃ shape code, HasOperand regs memory instr index shape code ∧
    regs.address? shape code = some address

section Unique

variable {regs : Registers} {memory : Memory} {instr : Instr} {index : Nat}

/-- An operand has one shape and one byte. -/
theorem HasOperand.unique {shape other : Shape} {code byte : UInt8}
    (is : HasOperand regs memory instr index shape code)
    (again : HasOperand regs memory instr index other byte) : shape = other ∧ code = byte :=
  ⟨Option.some.inj (is.slot.symm.trans again.slot), Except.ok.inj (is.byte.symm.trans again.byte)⟩

theorem Values.unique {value other : UInt8} (is : Values regs memory instr index value)
    (again : Values regs memory instr index other) : value = other := by
  obtain ⟨shape, code, operand, ok⟩ := is
  obtain ⟨shape', code', operand', ok'⟩ := again
  obtain ⟨rfl, rfl⟩ := operand.unique operand'
  exact Except.ok.inj (ok.symm.trans ok')

theorem Names.unique {register other : Register} (is : Names regs memory instr index register)
    (again : Names regs memory instr index other) : register = other := by
  obtain ⟨code, operand, named⟩ := is
  obtain ⟨code', operand', named'⟩ := again
  obtain ⟨-, rfl⟩ := operand.unique operand'
  exact Option.some.inj (named.symm.trans named')

end Unique

/-! ## Stores -/

/-- The instruction pushes this byte. -/
inductive Pushes (regs : Registers) (memory : Memory) : Instr → UInt8 → Prop
  | operand {right value} (pushed : Values regs memory (.push right) 0 value) :
      Pushes regs memory (.push right) value
  | status : Pushes regs memory .pushFlags (Bits.toByte regs.sr)
  | returnAddress {destination} :
      Pushes regs memory (.call destination)
        (Bits.toByte (regs.ip + (Instr.call destination).size))

/-- The instruction stores this byte at that address: a move does, and whatever pushes. -/
inductive Stores (regs : Registers) (memory : Memory) : Instr → Int → UInt8 → Prop
  | move {form address value} (place : Denotes regs memory (.move form) 0 address)
      (source : Values regs memory (.move form) 1 value) :
      Stores regs memory (.move form) address value
  | push {instr value} (pushes : Pushes regs memory instr value) :
      Stores regs memory instr regs.sp value

/-- A push finds memory at the stack pointer, and stays in the stack window. -/
structure HasRoom (regs : Registers) (memory : Memory) : Prop where
  inside : 0 ≤ regs.sp ∧ regs.sp < memory.size
  above : stackLimit < regs.sp

/-- A pop finds this byte, in the stack window. -/
structure OnTop (regs : Registers) (memory : Memory) (value : UInt8) : Prop where
  loaded : memory.load (regs.sp + 1) = .ok value
  below : regs.sp < stackTop

/-- The instruction pops a byte. -/
def pops : Instr → Bool
  | .pop | .popFlags | .ret => true
  | _ => false

/-! ## Completed instructions -/

/-- **A completed instruction** with these registers and this memory before it leaves those behind. -/
inductive Executes (env : Env σ) (regs : Registers) (memory : Memory) :
    Instr → Registers → Memory → Prop
  | halt : Executes env regs memory .halt (regs.past .halt) memory
  | moveToRegister {form register value} (destination : Names regs memory (.move form) 0 register)
      (source : Values regs memory (.move form) 1 value) :
      Executes env regs memory (.move form) ((regs.set register value).past (.move form)) memory
  | moveToMemory {form address value} (stores : Stores regs memory (.move form) address value)
      (inside : 0 ≤ address ∧ address < memory.size) :
      Executes env regs memory (.move form) (regs.past (.move form))
        (memory.write address.toNat value)
  | binary {op right register value outcome}
      (left : Names regs memory (.binary op right) 0 register)
      (operand : Values regs memory (.binary op right) 1 value)
      (result : op.eval? (regs.get register).toNat value.toNat = .ok outcome) :
      Executes env regs memory (.binary op right)
        (((regs.set register (Bits.toByte outcome.value)).withFlags outcome.flags).past
          (.binary op right)) memory
  | compare {right register value} (left : Names regs memory (.compare right) 0 register)
      (operand : Values regs memory (.compare right) 1 value) :
      Executes env regs memory (.compare right)
        ((regs.withFlags (Alu.sub (regs.get register).toNat value.toNat).flags).past
          (.compare right)) memory
  | shift {direction right register count outcome}
      (left : Names regs memory (.shift direction right) 0 register)
      (operand : Values regs memory (.shift direction right) 1 count)
      (result : direction.eval? (regs.get register).toNat count.toNat = some outcome) :
      Executes env regs memory (.shift direction right)
        (((regs.set register (Bits.toByte outcome.value)).withFlags outcome.flags).past
          (.shift direction right)) memory
  | shiftByZero {direction right register count}
      (left : Names regs memory (.shift direction right) 0 register)
      (operand : Values regs memory (.shift direction right) 1 count)
      (result : direction.eval? (regs.get register).toNat count.toNat = none) :
      Executes env regs memory (.shift direction right) (regs.past (.shift direction right)) memory
  | unary {op register} (operand : Names regs memory (.unary op) 0 register) :
      Executes env regs memory (.unary op) ((regs.applyUnary op register).past (.unary op)) memory
  | jumpTaken {condition destination target}
      (operand : Values regs memory (.jump condition destination) 0 target)
      (holds : regs.holds condition = true) :
      Executes env regs memory (.jump condition destination) (regs.goto target) memory
  | jumpPassed {condition destination target}
      (operand : Values regs memory (.jump condition destination) 0 target)
      (holds : regs.holds condition = false) :
      Executes env regs memory (.jump condition destination)
        (regs.past (.jump condition destination)) memory
  | push {right value} (pushes : Pushes regs memory (.push right) value)
      (room : HasRoom regs memory) :
      Executes env regs memory (.push right) ((regs.moveStack (-1)).past (.push right))
        (memory.write regs.sp.toNat value)
  | pushFlags {value} (pushes : Pushes regs memory .pushFlags value) (room : HasRoom regs memory) :
      Executes env regs memory .pushFlags ((regs.moveStack (-1)).past .pushFlags)
        (memory.write regs.sp.toNat value)
  | call {destination target value} (operand : Values regs memory (.call destination) 0 target)
      (pushes : Pushes regs memory (.call destination) value) (room : HasRoom regs memory) :
      Executes env regs memory (.call destination) ((regs.moveStack (-1)).goto target)
        (memory.write regs.sp.toNat value)
  | pop {register value} (destination : Names regs memory .pop 0 register)
      (top : OnTop regs memory value) :
      Executes env regs memory .pop (((regs.moveStack 1).set register value).past .pop) memory
  | popFlags {value} (top : OnTop regs memory value) :
      Executes env regs memory .popFlags
        ({ regs.moveStack 1 with sr := Status.ofByte value.toNat }.past .popFlags) memory
  | ret {value} (top : OnTop regs memory value) :
      Executes env regs memory .ret ((regs.moveStack 1).goto value) memory
  | output {port before after} (operand : HasOperand regs memory .output 0 .immediate port)
      (written : writePort env port.toNat regs.al.toNat before = .ok () after) :
      Executes env regs memory .output (regs.past .output) memory
  | input {port value before after} (operand : HasOperand regs memory .input 0 .immediate port)
      (read : readPort env port.toNat before = .ok value after) :
      Executes env regs memory .input ((regs.set .al value).past .input) memory

/-! ## Instructions that cannot complete -/

/-- **An instruction that cannot complete** fails like this, and with these registers and this memory
before it leaves those behind. Unless it runs over the end of memory, all its operand bytes have been
fetched by then. -/
inductive Breaks (env : Env σ) (regs : Registers) (memory : Memory) (instr : Instr) :
    Failure → Registers → Memory → Prop
  | short {index : Nat} (within : index < instr.shapes.length)
      (beyond : memory.size ≤ regs.ip + (index + 1 : Nat))
      (before : regs.ip + index < memory.size) :
      Breaks env regs memory instr (.trap (.pointerOutOfBounds (regs.ip + (index + 1 : Nat))))
        (regs.forward (index + 1)) memory
  | operand {index shape code failure} (is : HasOperand regs memory instr index shape code)
      (lacks : regs.operand? memory shape code = .error failure) :
      Breaks env regs memory instr failure (regs.forward instr.shapes.length) memory
  | divisor {right} (is : instr = .binary .div right) (zero : Values regs memory instr 1 0) :
      Breaks env regs memory instr (.trap .divisionByZero) (regs.forward instr.shapes.length) memory
  | outside {address value access} (stores : Stores regs memory instr address value)
      (lacks : memory.load address = .error access) :
      Breaks env regs memory instr (.outOfBounds access) (regs.forward instr.shapes.length) memory
  | refused {address value failure} (stores : Stores regs memory instr address value)
      (inside : 0 ≤ address ∧ address < memory.size)
      (refuses : env.Refuses memory address value failure) :
      Breaks env regs memory instr failure (regs.forward instr.shapes.length)
        (memory.write address.toNat value)
  | overflow {value} (pushes : Pushes regs memory instr value)
      (inside : 0 ≤ regs.sp ∧ regs.sp < memory.size) (full : regs.sp ≤ stackLimit) :
      Breaks env regs memory instr (.trap .stackOverflow)
        ((regs.moveStack (-1)).forward instr.shapes.length) (memory.write regs.sp.toNat value)
  | nothingOnTop {access} (popping : pops instr = true)
      (lacks : memory.load (regs.sp + 1) = .error access) :
      Breaks env regs memory instr (.outOfBounds access)
        ((regs.moveStack 1).forward instr.shapes.length) memory
  | underflow (popping : pops instr = true) (empty : stackTop ≤ regs.sp) :
      Breaks env regs memory instr (.trap .stackUnderflow)
        ((regs.moveStack 1).forward instr.shapes.length) memory
  | port {failure} (is : instr = .output ∨ instr = .input) (raises : env.Raises failure) :
      Breaks env regs memory instr failure (regs.forward instr.shapes.length) memory

end Machine

end EightBit
