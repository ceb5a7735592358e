import EightBit.Machine.Action

/-!
# Executing Instructions

The meaning of every instruction. The instruction pointer is on the opcode when execution begins;
every operand byte that is read moves it there first, and an instruction that does not jump ends
by moving it past its last byte.

A step executes the instruction at the instruction pointer. Whatever goes wrong on the way becomes
a fault, which is latched: every further step fails with the same fault until the next reset. An
abandoned keyboard read is no fault; it puts the instruction pointer back, so that the instruction
can be tried again.

## Main Definitions

- `fetch`, `advance`: moving the instruction pointer.
- `readOperand`, `writeOperand`: operands by shape.
- `execute`: the instructions.
- `latch`: makes a fault and fails with it.
- `guarded`: turns the failures of an instruction into faults, and counts it if it completes.
- `step`, `steps`: one step, and up to a number of them.
-/

namespace EightBit.Machine

/-! ## Operands -/

/-- Moves the instruction pointer to the next byte. -/
def advance : Action σ Unit :=
  modifyRegs fun regs => { regs with ip := regs.ip + 1 }

/-- Moves the instruction pointer to the next byte and reads it. -/
def fetch : Action σ UInt8 := do
  advance
  let m ← get
  -- a negative address is left to the load, which fails in its own way
  if m.memory.size ≤ m.cpu.regs.ip then throw (.trap (.pointerOutOfBounds m.cpu.regs.ip))
  load m.cpu.regs.ip

/-- The general register with that number. -/
def register (index : UInt8) : Action σ Register := do
  match Register.ofIndex? index.toNat with
  | some r => return r
  | none => throw (.trap (.invalidRegister index.toNat))

/-- The value of a general register. -/
def readRegister (r : Register) : Action σ UInt8 := do
  return (← getRegs).get r

/-- Gives a general register the low byte of a value. -/
def writeRegister (r : Register) (value : Int) : Action σ Unit :=
  modifyRegs fun regs => regs.set r (Bits.toByte value)

/-- Replaces the flags but the fault flag. -/
def writeFlags (flags : Flags) : Action σ Unit :=
  modifyRegs fun regs => { regs with sr := Status.setFlags regs.sr flags }

/-- The value of an operand. -/
def readOperand (shape : Shape) (code : UInt8) : Action σ UInt8 := do
  match shape with
  | .register => readRegister (← register code)
  | .address => load code.toNat
  | .indirect => load ((← getRegs).indirectAddress code)
  | .stackOffset => load ((← getRegs).stackAddress code)
  | .immediate | .target | .label | .text => return code

/-- Gives an operand a value; operands without a place take none. -/
def writeOperand (env : Env σ) (shape : Shape) (code value : UInt8) : Action σ Unit := do
  match shape with
  | .register => writeRegister (← register code) value.toNat
  | .address => store env code.toNat value.toNat
  | .indirect => store env ((← getRegs).indirectAddress code) value.toNat
  | .stackOffset => store env ((← getRegs).stackAddress code) value.toNat
  | .immediate | .target | .label | .text => return

/-! ## Instructions -/

/-- Copies the source to the destination. -/
def move (env : Env σ) (form : Move) : Action σ Unit := do
  let destination ← fetch
  let source ← fetch
  let value ← readOperand form.shapes.2 source
  writeOperand env form.shapes.1 destination value
  advance

/-- The number of the left register and the value of the right operand. -/
def fetchPair (right : Right) : Action σ (UInt8 × UInt8) := do
  let left ← fetch
  let code ← fetch
  return (left, ← readOperand right.shape code)

/-- Combines a register with the right operand. -/
def binary (op : Binary) (right : Right) : Action σ Unit := do
  let (left, value) ← fetchPair right
  let r ← register left
  let outcome ← orTrap (op.eval? (← readRegister r).toNat value.toNat)
  writeRegister r outcome.value
  writeFlags outcome.flags
  advance

/-- Sets the flags of a difference and keeps the register. -/
def compare (right : Right) : Action σ Unit := do
  let (left, value) ← fetchPair right
  let r ← register left
  writeFlags (Alu.sub (← readRegister r).toNat value.toNat).flags
  advance

/-- Shifts a register; a count of zero changes nothing, the flags included. -/
def shift (direction : Shift) (right : Right) : Action σ Unit := do
  let (left, count) ← fetchPair right
  let r ← register left
  match direction.eval? (← readRegister r).toNat count.toNat with
  | some outcome =>
    writeRegister r outcome.value
    writeFlags outcome.flags
  | none => pure ()
  advance

/-- Changes one register. A decrement leaves the carry as it is. -/
def unary (op : Unary) : Action σ Unit := do
  let r ← register (← fetch)
  let outcome := op.eval (← readRegister r).toNat
  writeRegister r outcome.value
  if op = .dec then
    modifyRegs fun regs => { regs with sr := Status.setFlagsKeepCarry regs.sr outcome.flags }
  else writeFlags outcome.flags
  advance

/-- Moves the instruction pointer to an address. -/
def goto (address : UInt8) : Action σ Unit :=
  modifyRegs fun regs => { regs with ip := address.toNat }

/-- Goes to the destination if the condition holds. -/
def jump (condition : Condition) (destination : Destination) : Action σ Unit := do
  let target ← readOperand destination.shape (← fetch)
  if (← getRegs).holds condition then goto target else advance

/-- Pushes the address after the instruction and goes to the destination. -/
def call (env : Env σ) (destination : Destination) : Action σ Unit := do
  let target ← readOperand destination.shape (← fetch)
  -- of this address only the low byte is kept, so behind the last byte of memory comes address 0
  push env ((← getRegs).ip + 1)
  goto target

/-- Pushes the value of an operand. -/
def pushOperand (env : Env σ) (value : Right) : Action σ Unit := do
  let byte ← readOperand value.shape (← fetch)
  push env byte.toNat
  advance

/-- Stops the processor on the next instruction. -/
def halt : Action σ Unit := do
  modify fun m => { m with cpu := { m.cpu with mode := .halted } }
  advance
  let cpu := (← get).cpu
  -- the instruction itself is counted only when it is complete
  record .debug .processor
    ("HLT at " ++ String.ofList (Numeral.hexAddress (cpu.regs.ip - 1)) ++ " after " ++
      toString (cpu.instructions + 1) ++ " instructions")

/-- Pops a byte into a register. -/
def popRegister : Action σ Unit := do
  let r ← register (← fetch)
  writeRegister r (← pop).toNat
  advance

/-- Pops the status. -/
def popStatus : Action σ Unit := do
  let value ← pop
  modifyRegs fun regs => { regs with sr := Status.ofByte value.toNat }
  advance

/-- Writes the first register to a port. -/
def output (env : Env σ) : Action σ Unit := do
  let port ← fetch
  writePort env port.toNat (← getRegs).al.toNat
  advance

/-- Ends an input: the first register takes a byte. -/
def receive (value : UInt8) : Action σ Unit := do
  modifyRegs fun regs => { regs with al := value }
  advance

/-- Reads a port into the first register. -/
def input (env : Env σ) : Action σ Unit := do
  let port ← fetch
  receive (← readPort env port.toNat)

/-- Executes an instruction. -/
def execute (env : Env σ) : Instr → Action σ Unit
  | .halt => halt
  | .move form => move env form
  | .binary op right => binary op right
  | .unary op => unary op
  | .compare right => compare right
  | .jump condition destination => jump condition destination
  | .push value => pushOperand env value
  | .pop => popRegister
  | .pushFlags => do
    push env (← getRegs).sr
    advance
  | .popFlags => popStatus
  | .call destination => call env destination
  | .ret => do goto (← pop)
  | .shift direction right => shift direction right
  | .output => output env
  | .input => input env

/-! ## Steps -/

/-- Latches a fault of the instruction at an address, and fails with it. -/
def latch (reason : FaultReason) (ip : Int) : Action σ Unit := do
  let fault : Fault := ⟨reason, ip⟩
  modify fun m => { m with cpu := { m.cpu with
    regs := { m.cpu.regs with sr := Status.setFault m.cpu.regs.sr true }
    mode := .faulted
    lastFault := some fault } }
  record .warning .processor fault.message
  throw (.fault fault)

/-- What becomes of a failure of the instruction at an address. -/
def recover (ip : Int) (failure : Failure) : Action σ Unit := do
  match failure with
  | .trap trap => latch (.trap trap) ip
  | .outOfBounds access => latch (.outOfBounds access) ip
  | .aborted =>
    -- the instruction can be tried again
    modifyRegs fun regs => { regs with ip }
    throw .aborted
  | .waiting => throw .waiting
  | .refused _ | .fault _ => latch (.device failure.name failure.message) ip

/-- Counts a completed instruction. If it has raised the fault flag, the processor stops. -/
def complete (ip : Int) : Action σ Unit := do
  modify fun m => { m with cpu := { m.cpu with instructions := m.cpu.instructions + 1 } }
  if Status.fault (← getRegs).sr then
    let fault : Fault := ⟨.flagRestored, ip⟩
    modify fun m => { m with cpu := { m.cpu with mode := .faulted, lastFault := some fault } }
    record .warning .processor fault.message

/-- Carries out the work of the instruction at an address. -/
def guarded (ip : Int) (work : Action σ Unit) : Action σ Unit := do
  tryCatch work (recover ip)
  complete ip

/-- The instruction at an address. -/
def fetchInstr (ip : Int) : Action σ Instr := do
  let m ← get
  if ¬ (0 ≤ ip ∧ ip < m.memory.size) then throw (.trap (.pointerOutOfBounds ip))
  let opcode ← load ip
  match Instr.decode? opcode.toNat with
  | some instr => return instr
  | none => throw (.trap (.invalidOpcode opcode.toNat))

/-- Adds an instruction that is about to be executed to the trace, if there is one. -/
def traceInstr (ip : Int) (instr : Instr) : Action σ Unit :=
  modify fun m =>
    if m.cpu.tracing then
      { m with cpu := { m.cpu with trace := m.cpu.trace.push ⟨ip, instr, m.cpu.regs⟩ } }
    else m

/-- Fails with the latched fault; a processor that was put into the faulted state without one gets
one now. -/
def refault : Action σ Unit := do
  let cpu := (← get).cpu
  match cpu.lastFault with
  | some fault => throw (.fault fault)
  | none =>
    let fault : Fault := ⟨.alreadyFaulted, cpu.regs.ip⟩
    modify fun m => { m with cpu := { m.cpu with lastFault := some fault } }
    throw (.fault fault)

/-- Executes the instruction at the instruction pointer. A halted processor does nothing. -/
def step (env : Env σ) : Action σ Unit := do
  let cpu := (← get).cpu
  match cpu.mode with
  | .halted => return
  | .faulted => refault
  | .ready =>
    guarded cpu.regs.ip do
      let instr ← fetchInstr cpu.regs.ip
      -- an instruction that is given up and made again is traced each time
      traceInstr cpu.regs.ip instr
      execute env instr

/-- Steps while the processor is ready, at most the given number of times: how many there were. -/
def steps (env : Env σ) : Nat → Action σ Nat
  | 0 => return 0
  | n + 1 => do
    if (← get).cpu.mode = .ready then
      step env
      return (← steps env n) + 1
    else return 0

end EightBit.Machine
