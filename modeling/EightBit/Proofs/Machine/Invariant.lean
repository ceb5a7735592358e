import EightBit.Proofs.Machine.Triple
import Mathlib.Tactic.Common

/-!
# What Holds Between Instructions

The pointers of the processor are unbounded integers, and nothing wraps them. They stay in their
ranges all the same, over every sequence of steps, resumptions and resets, because each instruction
stops in time when it would leave them.

An instruction can stop at any of its bytes, so the conditions inside an instruction are weaker than
those between instructions. They are ordered by what is known on top of `Base`.

## Main Definitions

- `Sound`: what holds between instructions.
- `Done`, `Pending`, `Working`, `Failed`: what holds inside of one.
- `Leads`: how an action takes one such condition to another.
- `Call`, `afterCall`: a call from outside, and the machine it leaves behind.

## Main Statements

- `leads_execute`: every instruction is completed or fails in good order.
- `ensures_step`: a step keeps `Sound`, also when it fails.
- `sound_calls`: so does every sequence of calls, and a fault stays until the next reset.
-/

namespace EightBit

/-- The memory has all its addresses, and a byte at each of them. -/
structure Memory.Full (memory : Memory) : Prop where
  size : memory.size = memorySize
  bytes : memory.bytes.size = memorySize

theorem Memory.Full.write {memory : Memory} (full : memory.Full) (address : Nat) (value : UInt8) :
    (memory.write address value).Full where
  size := full.size
  bytes := by simp [Memory.write, full.bytes]

namespace Machine

variable {σ α β : Type}

/-! ## Conditions -/

/-- The stack pointer is inside the stack window. -/
def InWindow (regs : Registers) : Prop :=
  stackLimit ≤ regs.sp ∧ regs.sp ≤ stackTop

/-- **What holds between instructions.** Outside a fault the stack pointer is in its window, and it is
never further from it than one address; fault flag, faulted state and latched fault go together. -/
structure Sound (cpu : Processor) (memory : Memory) : Prop where
  full : memory.Full
  bytes : ∀ b ∈ memory.bytes, b.toNat ≤ 255 := fun b _ => Nat.le_of_lt_succ b.toNat_lt
  registers : ∀ r, (cpu.regs.get r).toNat ≤ 255 := fun r =>
    Nat.le_of_lt_succ (cpu.regs.get r).toNat_lt
  status : 0 ≤ cpu.regs.sr ∧ cpu.regs.sr < 32
  pointer : 0 ≤ cpu.regs.ip ∧ cpu.regs.ip ≤ 256
  stack : stackLimit - 1 ≤ cpu.regs.sp ∧ cpu.regs.sp ≤ stackTop + 1
  window : cpu.mode ≠ .faulted → InWindow cpu.regs
  faulted_iff_flag : cpu.mode = .faulted ↔ Status.fault cpu.regs.sr = true
  faulted_iff_latched : cpu.mode = .faulted ↔ cpu.lastFault ≠ none

/-- What holds at every point of an instruction. -/
structure Base (cpu : Processor) (memory : Memory) : Prop where
  full : memory.Full
  status : 0 ≤ cpu.regs.sr ∧ cpu.regs.sr < 32
  pointer : 0 ≤ cpu.regs.ip ∧ cpu.regs.ip ≤ 256
  running : cpu.mode ≠ .faulted
  unlatched : cpu.lastFault = none

/-- What holds when an instruction is completed. It may have raised the fault flag. -/
structure Done (cpu : Processor) (memory : Memory) : Prop extends Base cpu memory where
  window : InWindow cpu.regs

/-- What holds before the byte at the instruction pointer is looked at. -/
structure Pending (cpu : Processor) (memory : Memory) : Prop extends Done cpu memory where
  unflagged : Status.fault cpu.regs.sr = false

/-- What holds while the instruction pointer is on a byte of the instruction. -/
structure Working (cpu : Processor) (memory : Memory) : Prop extends Pending cpu memory where
  inside : cpu.regs.ip < 256

/-- What holds when the stack pointer has just moved, which is not checked before. -/
structure Moved (low high : Int) (cpu : Processor) (memory : Memory) : Prop extends
    Base cpu memory where
  unflagged : Status.fault cpu.regs.sr = false
  inside : cpu.regs.ip < 256
  stack : low ≤ cpu.regs.sp ∧ cpu.regs.sp ≤ high

/-- What holds when an instruction has failed. A push or a pop may have left the stack window, but a
read that is to be tried again has not. -/
structure Failed (failure : Failure) (cpu : Processor) (memory : Memory) : Prop extends
    Base cpu memory where
  unflagged : Status.fault cpu.regs.sr = false
  stack : stackLimit - 1 ≤ cpu.regs.sp ∧ cpu.regs.sp ≤ stackTop + 1
  window : failure = .aborted ∨ failure = .waiting → InWindow cpu.regs

theorem Pending.failed {cpu : Processor} {memory : Memory} (pending : Pending cpu memory)
    (failure : Failure) : Failed failure cpu memory :=
  { pending.toBase with
    unflagged := pending.unflagged
    stack := by
      obtain ⟨low, high⟩ := pending.window
      omega
    window := fun _ => pending.window }

/-- The action takes one condition to another, and fails in good order. -/
def Leads (before : Processor → Memory → Prop) (action : Action σ α)
    (behind : Processor → Memory → Prop) : Prop :=
  Ensures (fun m => before m.cpu m.memory) action (fun _ m => behind m.cpu m.memory)
    (fun failure m => Failed failure m.cpu m.memory)

theorem Leads.bind {before M behind : Processor → Memory → Prop} {first : Action σ α}
    {next : α → Action σ β} (start : Leads before first M)
    (rest : ∀ a, Leads M (next a) behind) : Leads before (first >>= next) behind :=
  Ensures.bind start rest

theorem Leads.pure {condition : Processor → Memory → Prop} (a : α) :
    Leads condition (pure a : Action σ α) condition :=
  Ensures.pure fun _ holds => holds

theorem Leads.mono {before behind behind' : Processor → Memory → Prop} {action : Action σ α}
    (leads : Leads before action behind)
    (weaker : ∀ cpu memory, behind cpu memory → behind' cpu memory) :
    Leads before action behind' :=
  Ensures.mono leads (fun _ holds => holds) (fun _ _ holds => weaker _ _ holds)
    fun _ _ failed => failed

/-- A quiet action can stand anywhere in an instruction. -/
theorem Quiet.leads {action : Action σ α} (quiet : Quiet action) :
    Leads Working action Working :=
  Ensures.mono quiet.keeps (fun _ holds => holds) (fun _ _ holds => holds)
    fun failure _ holds => holds.toPending.failed failure

theorem Quiet.leads_pending {action : Action σ α} (quiet : Quiet action) :
    Leads Pending action Pending :=
  Ensures.mono quiet.keeps (fun _ holds => holds) (fun _ _ holds => holds)
    fun failure _ holds => holds.failed failure

/-! ## Registers and flags -/

theorem leads_modifyRegs {before behind : Processor → Memory → Prop} {f : Registers → Registers}
    (changed : ∀ cpu memory, before cpu memory → behind { cpu with regs := f cpu.regs } memory) :
    Leads before (modifyRegs f : Action σ Unit) behind :=
  Ensures.modify fun _ holds => changed _ _ holds

theorem leads_writeRegister (r : Register) (value : Int) :
    Leads Working (writeRegister r value : Action σ Unit) Working := by
  refine leads_modifyRegs fun cpu memory working => ?_
  -- only a general register changes, whichever it is
  cases r <;> exact
    { working with
      status := working.status
      pointer := working.pointer
      window := working.window
      unflagged := working.unflagged
      inside := working.inside }

/-- The flags of a result leave the fault flag alone. -/
theorem leads_setFlags (flags : Int → Flags) :
    Leads Working (modifyRegs fun regs => { regs with sr := Status.setFlags regs.sr (flags regs.sr) } :
      Action σ Unit) Working := by
  refine leads_modifyRegs fun cpu memory working => ?_
  obtain ⟨range, sameFault, -⟩ := Status.setFlags_spec cpu.regs.sr (flags cpu.regs.sr)
  exact
    { working with
      status := range
      pointer := working.pointer
      window := working.window
      unflagged := sameFault.trans working.unflagged
      inside := working.inside }

theorem leads_writeFlags (flags : Flags) :
    Leads Working (writeFlags flags : Action σ Unit) Working :=
  leads_setFlags fun _ => flags

/-! ## The instruction pointer -/

/-- **Behind a byte** the instruction pointer may have left memory, by one address at most. -/
theorem leads_advance : Leads Working (advance : Action σ Unit) Pending := by
  refine leads_modifyRegs fun cpu memory working => ?_
  obtain ⟨low, -⟩ := working.pointer
  have high := working.inside
  exact
    { working with
      status := working.status
      pointer := by
        show 0 ≤ cpu.regs.ip + 1 ∧ cpu.regs.ip + 1 ≤ 256
        omega
      window := working.window
      unflagged := working.unflagged }

theorem leads_goto (address : UInt8) : Leads Working (goto address : Action σ Unit) Pending := by
  refine leads_modifyRegs fun cpu memory working => ?_
  have small := address.toNat_lt
  exact
    { working with
      status := working.status
      pointer := by
        show 0 ≤ (address.toNat : Int) ∧ (address.toNat : Int) ≤ 256
        omega
      window := working.window
      unflagged := working.unflagged }

theorem quiet_load (address : Int) : Quiet (load address : Action σ UInt8) := by
  refine .bind .get fun m => ?_
  split
  · exact .pure _
  · exact .throw _

/-- **The next byte is fetched** if there is one. -/
theorem leads_fetch : Leads Working (fetch : Action σ UInt8) Working := by
  refine .bind leads_advance fun _ => Ensures.get fun m pending => ?_
  split
  -- the instruction runs over the end of memory: this is where address 256 is noticed
  · exact Ensures.of_eq (pending.failed _) (Ensures.throw fun _ failed => failed)
  · next within =>
    have inside : m.cpu.regs.ip < 256 := by
      have size := pending.full.size
      have all : memorySize = 256 := rfl
      omega
    exact Ensures.of_eq { pending with inside } (quiet_load _).leads

/-! ## Operands -/

theorem quiet_getRegs : Quiet (getRegs : Action σ Registers) :=
  .bind .get fun _ => .pure _

theorem quiet_register (index : UInt8) : Quiet (register index : Action σ Register) := by
  unfold register
  split
  · exact .pure _
  · exact .throw _

theorem quiet_readRegister (r : Register) : Quiet (readRegister r : Action σ UInt8) :=
  .bind quiet_getRegs fun _ => .pure _

/-- Reading an operand is quiet, whatever its shape. -/
theorem quiet_readOperand (shape : Shape) (code : UInt8) :
    Quiet (readOperand shape code : Action σ UInt8) := by
  cases shape with
  | register => exact .bind (quiet_register code) fun r => quiet_readRegister r
  | address => exact quiet_load _
  | indirect => exact .bind quiet_getRegs fun _ => quiet_load _
  | stackOffset => exact .bind quiet_getRegs fun _ => quiet_load _
  | immediate => exact .pure _
  | target => exact .pure _
  | label => exact .pure _
  | text => exact .pure _

theorem quiet_orTrap (result : Except Trap α) : Quiet (orTrap result : Action σ α) := by
  cases result with
  | ok a => exact .pure a
  | error trap => exact .throw _

section Bystander

variable {env : Env σ} (bystander : env.Bystander)
include bystander

/-! ## Memory and stack -/

/-- **A store keeps the memory full**, whoever watches it. -/
theorem leads_store (address value : Int) : Leads Working (store env address value) Working := by
  refine .bind (quiet_load _).leads fun old => .bind (M := Working) ?_ fun _ => ?_
  -- the byte is written before anybody is told about it
  · refine Ensures.modify fun m working => ?_
    exact { working with full := working.full.write address.toNat (Bits.toByte value) }
  · refine Quiet.leads (.bind .get fun m => .bind (.forM fun hook => bystander.notify hook _) fun _ => ?_)
    split
    · exact quiet_tellListeners bystander _ _
    · exact .pure _

theorem leads_writeOperand (shape : Shape) (code value : UInt8) :
    Leads Working (writeOperand env shape code value) Working := by
  cases shape with
  | register => exact .bind (quiet_register code).leads fun r => leads_writeRegister r _
  | address => exact leads_store bystander _ _
  | indirect => exact .bind quiet_getRegs.leads fun _ => leads_store bystander _ _
  | stackOffset => exact .bind quiet_getRegs.leads fun _ => leads_store bystander _ _
  | immediate => exact .pure _
  | target => exact .pure _
  | label => exact .pure _
  | text => exact .pure _

end Bystander

theorem Moved.working {low high : Int} {cpu : Processor} {memory : Memory}
    (moved : Moved low high cpu memory) (window : InWindow cpu.regs) : Working cpu memory :=
  { moved.toBase with
    window
    unflagged := moved.unflagged
    inside := moved.inside }

/-- Outside the window, an instruction still fails in good order, but for good. -/
theorem Moved.failed {low high : Int} {cpu : Processor} {memory : Memory}
    (moved : Moved low high cpu memory) (near : stackLimit - 1 ≤ low ∧ high ≤ stackTop + 1)
    {failure : Failure} (final : failure ≠ .aborted ∧ failure ≠ .waiting) :
    Failed failure cpu memory :=
  { moved.toBase with
    unflagged := moved.unflagged
    stack := by
      have := moved.stack
      omega
    window := fun retried => absurd retried (not_or.2 final) }

/-- Moving the stack pointer by one address. -/
theorem leads_moveStack (by_one : Int) :
    Leads Working (modifyRegs fun regs => { regs with sp := regs.sp + by_one } : Action σ Unit)
      (Moved (stackLimit + by_one) (stackTop + by_one)) := by
  refine leads_modifyRegs fun cpu memory working => ?_
  obtain ⟨low, high⟩ := working.window
  exact
    { working.toBase with
      status := working.status
      pointer := working.pointer
      unflagged := working.unflagged
      inside := working.inside
      stack := by
        show _ ≤ cpu.regs.sp + by_one ∧ cpu.regs.sp + by_one ≤ _
        omega }

/-- **A push stays in the window**, or it fails one address below it. -/
theorem leads_push {env : Env σ} (bystander : env.Bystander) (value : Int) :
    Leads Working (push env value) Working := by
  refine .bind quiet_getRegs.leads fun regs => ?_
  refine .bind (leads_store bystander _ _) fun _ => .bind (leads_moveStack (-1)) fun _ => ?_
  refine Ensures.get fun m moved => ?_
  have limits : (stackLimit : Int) = 128 ∧ (stackTop : Int) = 191 := by decide
  show Ensures _ (if m.cpu.regs.sp < stackLimit then _ else _) _ _
  -- the byte is stored and the pointer moved by now: an overflow keeps both
  split
  · exact Ensures.of_eq (moved.failed (by omega) (by decide)) (Ensures.throw fun _ failed => failed)
  · have high := moved.stack.2
    exact Ensures.of_eq (moved.working ⟨by omega, by omega⟩) (Leads.pure ())

theorem leads_load_moved {low high : Int}
    (near : stackLimit - 1 ≤ low ∧ high ≤ stackTop + 1) (address : Int) :
    Leads (Moved low high) (load address : Action σ UInt8) (Moved low high) := by
  refine Ensures.get fun m moved => ?_
  split
  · exact Ensures.of_eq moved (Leads.pure _)
  · exact Ensures.of_eq (moved.failed near (by simp)) (Ensures.throw fun _ failed => failed)

/-- **A pop stays in the window**, or it fails one address above it. -/
theorem leads_pop : Leads Working (pop : Action σ UInt8) Working := by
  have limits : (stackLimit : Int) = 128 ∧ (stackTop : Int) = 191 := by decide
  have near : (stackLimit : Int) - 1 ≤ stackLimit + 1 ∧ (stackTop : Int) + 1 ≤ stackTop + 1 := by
    omega
  refine .bind (leads_moveStack 1) fun _ => Ensures.get fun before moved => ?_
  refine Ensures.of_eq moved (.bind (leads_load_moved near _) fun value => Ensures.get fun m moved => ?_)
  -- the byte above the window is read before the pointer is checked
  show Ensures _ (if stackTop < m.cpu.regs.sp then _ else _) _ _
  split
  · exact Ensures.of_eq (moved.failed near (by decide)) (Ensures.throw fun _ failed => failed)
  · have low := moved.stack.1
    exact Ensures.of_eq (moved.working ⟨by omega, by omega⟩) (Leads.pure value)

/-! ## Instructions -/

theorem leads_fetchPair (right : Right) :
    Leads Working (fetchPair right : Action σ (UInt8 × UInt8)) Working := by
  refine .bind leads_fetch fun left => .bind leads_fetch fun code => ?_
  exact .bind (quiet_readOperand _ _).leads fun value => .pure _

theorem leads_binary (op : Binary) (right : Right) :
    Leads Working (binary op right : Action σ Unit) Pending := by
  refine .bind (leads_fetchPair right) fun pair => .bind (quiet_register _).leads fun r => ?_
  refine .bind (quiet_readRegister r).leads fun left => .bind (quiet_orTrap _).leads fun outcome => ?_
  refine .bind (leads_writeRegister r _) fun _ => .bind (leads_writeFlags _) fun _ => ?_
  exact leads_advance

theorem leads_compare (right : Right) :
    Leads Working (compare right : Action σ Unit) Pending := by
  refine .bind (leads_fetchPair right) fun pair => .bind (quiet_register _).leads fun r => ?_
  refine .bind (quiet_readRegister r).leads fun left => .bind (leads_writeFlags _) fun _ => ?_
  exact leads_advance

theorem leads_shift (direction : Shift) (right : Right) :
    Leads Working (shift direction right : Action σ Unit) Pending := by
  refine .bind (leads_fetchPair right) fun pair => .bind (quiet_register _).leads fun r => ?_
  refine .bind (quiet_readRegister r).leads fun left => ?_
  split
  · refine .bind (leads_writeRegister r _) fun _ => .bind (leads_writeFlags _) fun _ => ?_
    exact leads_advance
  · exact leads_advance

theorem leads_unary (op : Unary) : Leads Working (unary op : Action σ Unit) Pending := by
  refine .bind leads_fetch fun code => .bind (quiet_register code).leads fun r => ?_
  refine .bind (quiet_readRegister r).leads fun value => .bind (leads_writeRegister r _) fun _ => ?_
  split
  · exact .bind (leads_setFlags fun sr => { (op.eval value.toNat).flags with carry := Status.carry sr })
      fun _ => leads_advance
  · exact .bind (leads_writeFlags _) fun _ => leads_advance

theorem leads_jump (condition : Condition) (destination : Destination) :
    Leads Working (jump condition destination : Action σ Unit) Pending := by
  refine .bind leads_fetch fun code => .bind (quiet_readOperand _ _).leads fun target => ?_
  refine .bind quiet_getRegs.leads fun regs => ?_
  split
  · exact leads_goto target
  · exact leads_advance

theorem leads_popRegister : Leads Working (popRegister : Action σ Unit) Pending := by
  refine .bind leads_fetch fun code => .bind (quiet_register code).leads fun r => ?_
  exact .bind leads_pop fun value => .bind (leads_writeRegister r _) fun _ => leads_advance

theorem leads_halt : Leads Working (halt : Action σ Unit) Pending := by
  refine .bind (M := Working) ?_ fun _ => .bind leads_advance fun _ => ?_
  -- the mode changes in front of the pointer, and a halted processor has no fault
  · refine Ensures.modify fun m working => ?_
    exact
      { working with
        status := working.status
        pointer := working.pointer
        running := nofun
        unlatched := working.unlatched
        window := working.window
        unflagged := working.unflagged
        inside := working.inside }
  · exact Quiet.leads_pending (.bind .get fun m => quiet_record _ _ _)

/-- **Only restoring the status** can raise the fault flag, and nothing can fail after that. -/
theorem leads_popStatus : Leads Working (popStatus : Action σ Unit) Done := by
  refine .bind leads_pop fun value => ?_
  -- the popped status may have the fault flag, so `Pending` is lost from here on
  refine .bind (M := fun cpu memory => Done cpu memory ∧ cpu.regs.ip < 256) ?_ fun _ => ?_
  · refine leads_modifyRegs fun cpu memory working => ⟨?_, working.inside⟩
    exact
      { working.toDone with
        status := by
          show 0 ≤ (value.toNat : Int) % 32 ∧ (value.toNat : Int) % 32 < 32
          omega
        pointer := working.pointer
        window := working.window }
  · refine leads_modifyRegs fun cpu memory ⟨done, inside⟩ => ?_
    obtain ⟨low, -⟩ := done.pointer
    exact
      { done with
        status := done.status
        pointer := by
          show 0 ≤ cpu.regs.ip + 1 ∧ cpu.regs.ip + 1 ≤ 256
          omega
        window := done.window }

theorem leads_receive (value : UInt8) : Leads Working (receive value : Action σ Unit) Pending := by
  refine .bind (leads_modifyRegs fun cpu memory working => ?_) fun _ => leads_advance
  exact
    { working with
      status := working.status
      pointer := working.pointer
      window := working.window
      unflagged := working.unflagged
      inside := working.inside }

section Bystander

variable {env : Env σ} (bystander : env.Bystander)
include bystander

theorem leads_move (form : Move) : Leads Working (move env form) Pending := by
  refine .bind leads_fetch fun destination => .bind leads_fetch fun source => ?_
  refine .bind (quiet_readOperand _ _).leads fun value => ?_
  exact .bind (leads_writeOperand bystander _ _ _) fun _ => leads_advance

theorem leads_call (destination : Destination) :
    Leads Working (call env destination) Pending := by
  refine .bind leads_fetch fun code => .bind (quiet_readOperand _ _).leads fun target => ?_
  refine .bind quiet_getRegs.leads fun regs => .bind (leads_push bystander _) fun _ => ?_
  exact leads_goto target

theorem leads_pushOperand (value : Right) : Leads Working (pushOperand env value) Pending := by
  refine .bind leads_fetch fun code => .bind (quiet_readOperand _ _).leads fun byte => ?_
  exact .bind (leads_push bystander _) fun _ => leads_advance

theorem leads_output : Leads Working (output env) Pending := by
  refine .bind leads_fetch fun port => .bind quiet_getRegs.leads fun regs => ?_
  exact .bind (quiet_writePort bystander _ _).leads fun _ => leads_advance

theorem leads_input : Leads Working (input env) Pending := by
  refine .bind leads_fetch fun port => ?_
  exact .bind (quiet_readPort bystander _).leads fun value => leads_receive value

/-- **Every instruction is completed or fails in good order.** -/
theorem leads_execute (instr : Instr) : Leads Working (execute env instr) Done := by
  -- all instructions but one leave the fault flag down
  have regular : ∀ {action : Action σ Unit}, Leads Working action Pending →
      Leads Working action Done :=
    fun leads => leads.mono fun _ _ pending => pending.toDone
  cases instr with
  | halt => exact regular leads_halt
  | move form => exact regular (leads_move bystander form)
  | binary op right => exact regular (leads_binary op right)
  | unary op => exact regular (leads_unary op)
  | compare right => exact regular (leads_compare right)
  | jump condition destination => exact regular (leads_jump condition destination)
  | push value => exact regular (leads_pushOperand bystander value)
  | pop => exact regular leads_popRegister
  | pushFlags =>
    refine regular (.bind quiet_getRegs.leads fun regs => ?_)
    exact .bind (leads_push bystander _) fun _ => leads_advance
  | popFlags => exact leads_popStatus
  | call destination => exact regular (leads_call bystander destination)
  | ret => exact regular (.bind leads_pop fun target => leads_goto target)
  | shift direction right => exact regular (leads_shift direction right)
  | output => exact regular (leads_output bystander)
  | input => exact regular (leads_input bystander)

end Bystander

/-! ## One step -/

theorem leads_fetchInstr (ip : Int) :
    Ensures (fun m => Pending m.cpu m.memory ∧ m.cpu.regs.ip = ip) (fetchInstr ip : Action σ Instr)
      (fun _ m => Working m.cpu m.memory) fun failure m => Failed failure m.cpu m.memory := by
  refine Ensures.get fun m ⟨pending, isHere⟩ => ?_
  have size := pending.full.size
  have all : memorySize = 256 := rfl
  -- the pointer may have left memory, and then it is a fault to go on
  show Ensures _ (if ¬(0 ≤ ip ∧ ip < m.memory.size) then _ else _) _ _
  split
  · exact Ensures.of_eq (pending.failed _) (Ensures.throw fun _ failed => failed)
  · next within =>
    have inside : m.cpu.regs.ip < 256 := by omega
    refine Ensures.of_eq { pending with inside } (Leads.bind (quiet_load _).leads fun opcode => ?_)
    -- an opcode that is not defined is no change of the machine
    split
    · exact .pure _
    · exact (Quiet.throw _).leads

theorem leads_traceInstr (ip : Int) (instr : Instr) :
    Leads Working (traceInstr ip instr : Action σ Unit) Working := by
  refine Ensures.modify fun m working => ?_
  split
  -- the trace is no part of what is kept, so every field stays as it is
  · exact
      { working with
        status := working.status
        pointer := working.pointer
        running := working.running
        unlatched := working.unlatched
        window := working.window
        unflagged := working.unflagged
        inside := working.inside }
  · exact working

theorem bit_zero (value : Int) : Bits.bit 0 value = (value % 2 == 1) := by
  show (value / 1 % 2 == 1) = _
  rw [Int.ediv_one]

/-- The bits above the lowest are those of the half. -/
theorem bit_succ (index : Nat) (value : Int) : Bits.bit (index + 1) value = Bits.bit index (value / 2) := by
  have halves : value / Int.pow 2 (index + 1) = value / 2 / Int.pow 2 index := by
    show value / 2 ^ (index + 1) = value / 2 / 2 ^ index
    rw [Int.pow_succ', Int.ediv_ediv_of_nonneg (by decide)]
  rw [Bits.bit, Bits.bit, halves]

/-- An even status is one without the fault flag. -/
theorem setFault_range {status : Int} (range : 0 ≤ status ∧ status < 32)
    (unflagged : Status.fault status = false) :
    (0 ≤ Status.setFault status true ∧ Status.setFault status true < 32) ∧
      Status.fault (Status.setFault status true) = true := by
  -- the fault flag is the lowest bit, so raising it adds one
  have even : status % 2 = 0 := by
    rw [Status.fault, bit_zero] at unflagged
    simp at unflagged
    omega
  have raised : Status.setFault status true = status + 1 := by
    rw [Status.setFault, if_pos rfl, unflagged]
    rfl
  rw [raised]
  refine ⟨by omega, ?_⟩
  rw [Status.fault, bit_zero]
  simp
  omega

/-- **A failure is latched** in good order. -/
theorem ensures_latch (reason : FaultReason) (ip : Int) (failure : Failure)
    (post : Unit → Machine σ → Prop) :
    Ensures (fun m => Failed failure m.cpu m.memory) (latch reason ip) post
      fun _ m => Sound m.cpu m.memory := by
  -- flag, state and latched fault are set together; what follows only reports
  refine .bind (Q := fun _ m => Sound m.cpu m.memory) (.modify fun m failed => ?_) fun _ => ?_
  · obtain ⟨range, raised⟩ := setFault_range failed.status failed.unflagged
    exact
      { full := failed.full
        status := range
        pointer := failed.pointer
        stack := failed.stack
        window := fun running => absurd rfl running
        faulted_iff_flag := ⟨fun _ => raised, fun _ => rfl⟩
        faulted_iff_latched := ⟨fun _ => nofun, fun _ => rfl⟩ }
  · exact .bind (Q := fun _ m => Sound m.cpu m.memory) (.modify fun _ sound => sound) fun _ =>
      .throw fun _ sound => sound

/-- What becomes of a failed instruction. An abandoned read puts the instruction pointer back. -/
theorem ensures_recover {ip : Int} (inRange : 0 ≤ ip ∧ ip ≤ 256) (failure : Failure)
    (post : Unit → Machine σ → Prop) :
    Ensures (fun m => Failed failure m.cpu m.memory) (recover ip failure) post
      fun _ m => Sound m.cpu m.memory := by
  -- a latched fault makes mode and flag agree; the other failures have left both alone
  cases failure with
  | trap trap => exact ensures_latch _ _ _ _
  | outOfBounds access => exact ensures_latch _ _ _ _
  | refused refusal => exact ensures_latch _ _ _ _
  | fault fault => exact ensures_latch _ _ _ _
  -- an abort takes the pointer back to the instruction
  | aborted =>
    refine .bind (Q := fun _ m => Sound m.cpu m.memory) (.modify fun m failed => ?_) fun _ =>
      .throw fun _ sound => sound
    exact
      { full := failed.full
        status := failed.status
        pointer := inRange
        stack := failed.stack
        window := fun _ => failed.window (.inl rfl)
        faulted_iff_flag := by simp [failed.running, failed.unflagged]
        faulted_iff_latched := by simp [failed.running, failed.unlatched] }
  | waiting =>
    refine .throw fun m failed => ?_
    exact
      { full := failed.full
        status := failed.status
        pointer := failed.pointer
        stack := failed.stack
        window := fun _ => failed.window (.inr rfl)
        faulted_iff_flag := by simp [failed.running, failed.unflagged]
        faulted_iff_latched := by simp [failed.running, failed.unlatched] }

/-- A completed instruction that raised the fault flag stops the processor. -/
theorem ensures_complete (ip : Int) :
    Ensures (fun m => Done m.cpu m.memory) (complete ip : Action σ Unit)
      (fun _ m => Sound m.cpu m.memory) fun _ m => Sound m.cpu m.memory := by
  refine .bind (Q := fun _ m => Done m.cpu m.memory) (.modify fun m done => ?_) fun _ => ?_
  · exact
      { done with
        status := done.status
        pointer := done.pointer
        running := done.running
        unlatched := done.unlatched
        window := done.window }
  refine .get fun m done => ?_
  have near : stackLimit - 1 ≤ m.cpu.regs.sp ∧ m.cpu.regs.sp ≤ stackTop + 1 := by
    obtain ⟨low, high⟩ := done.window
    omega
  show Ensures _ (if Status.fault m.cpu.regs.sr = true then _ else _) _ _
  split
  -- only a restored status comes here with the flag; its fault is latched now
  · next flagged =>
    refine .bind (Q := fun _ m => Sound m.cpu m.memory) (.modify fun now same => ?_) fun _ =>
      .modify fun _ sound => sound
    subst same
    exact
      { full := done.full
        status := done.status
        pointer := done.pointer
        stack := near
        window := fun running => absurd rfl running
        faulted_iff_flag := ⟨fun _ => flagged, fun _ => rfl⟩
        faulted_iff_latched := ⟨fun _ => nofun, fun _ => rfl⟩ }
  · next unflagged =>
    refine .pure fun now same => ?_
    subst same
    exact
      { full := done.full
        status := done.status
        pointer := done.pointer
        stack := near
        window := fun _ => done.window
        faulted_iff_flag := by simp [done.running, unflagged]
        faulted_iff_latched := by simp [done.running, done.unlatched] }

theorem ensures_guarded {ip : Int} (inRange : 0 ≤ ip ∧ ip ≤ 256) {P : Machine σ → Prop}
    {work : Action σ Unit} (works : Ensures P work (fun _ m => Done m.cpu m.memory)
      fun failure m => Failed failure m.cpu m.memory) :
    Ensures P (guarded ip work) (fun _ m => Sound m.cpu m.memory)
      fun _ m => Sound m.cpu m.memory :=
  .bind (.tryCatch works fun failure => ensures_recover inRange failure _) fun _ =>
    ensures_complete ip

/-- Between instructions, a processor that is not faulted can begin the next one. -/
theorem Sound.pending {cpu : Processor} {memory : Memory} (sound : Sound cpu memory)
    (running : cpu.mode ≠ .faulted) : Pending cpu memory where
  full := sound.full
  status := sound.status
  pointer := sound.pointer
  running := running
  unlatched := by
    by_contra latched
    exact running (sound.faulted_iff_latched.2 latched)
  window := sound.window running
  unflagged := by
    rw [← Bool.not_eq_true]
    exact mt sound.faulted_iff_flag.2 running

section Step

variable {env : Env σ} {m : Machine σ}

/-- A halted processor does nothing. -/
theorem step_of_halted (halted : m.cpu.mode = .halted) : step env m = .ok () m := by
  rw [step, get_bind, halted]
  rfl

theorem step_eq_refault (faulted : m.cpu.mode = .faulted) : step env m = refault m := by
  rw [step, get_bind, faulted]

/-- **A faulted processor fails again** with its latched fault, and nothing changes. -/
theorem step_of_faulted (faulted : m.cpu.mode = .faulted) {fault : Fault}
    (latched : m.cpu.lastFault = some fault) : step env m = .error (.fault fault) m := by
  rw [step_eq_refault faulted, refault, get_bind, latched]
  rfl

theorem step_of_ready (ready : m.cpu.mode = .ready) :
    step env m = guarded m.cpu.regs.ip (do
      let instr ← fetchInstr m.cpu.regs.ip
      traceInstr m.cpu.regs.ip instr
      execute env instr) m := by
  rw [step, get_bind, ready]

end Step

/-- **A step keeps what holds between instructions**, whether it completes or fails. -/
theorem ensures_step {env : Env σ} (bystander : env.Bystander) :
    Ensures (fun m => Sound m.cpu m.memory) (step env) (fun _ m => Sound m.cpu m.memory)
      fun _ m => Sound m.cpu m.memory := by
  intro m sound
  cases mode : m.cpu.mode with
  | halted =>
    rw [step_of_halted mode]
    exact sound
  | faulted =>
    obtain ⟨fault, latched⟩ := Option.ne_none_iff_exists'.1 (sound.faulted_iff_latched.1 mode)
    rw [step_of_faulted mode latched]
    exact sound
  | ready =>
    have pending := sound.pending (by rw [mode]; decide)
    rw [step_of_ready mode]
    -- the address to go back to is the one the instruction started at
    refine ensures_guarded (P := fun now => now = m) pending.pointer ?_ m rfl
    refine .of_eq (P := fun now => Pending now.cpu now.memory ∧ now.cpu.regs.ip = m.cpu.regs.ip)
      ⟨pending, rfl⟩ (.bind (leads_fetchInstr _) fun instr => ?_)
    exact Leads.bind (leads_traceInstr _ _) fun _ => leads_execute bystander instr

/-! ## Calls -/

/-- A call from outside. -/
inductive Call
  | step
  | resume
  | reset
  deriving DecidableEq, Repr

/-- What a call does. -/
def Call.action (env : Env σ) : Call → Action σ Unit
  | .step => Machine.step env
  | .resume => resumeProcessor
  | .reset => resetProcessor

/-- The machine that a call leaves behind, whether it succeeds or fails. -/
def afterCall (env : Env σ) (m : Machine σ) (call : Call) : Machine σ :=
  match call.action env m with
  | .ok _ after => after
  | .error _ after => after

/-- A processor that was reset is sound. -/
theorem sound_reset {memory : Memory} (full : memory.Full) (cpu : Processor) :
    Sound cpu.reset memory where
  full := full
  status := show (0 : Int) ≤ 0 ∧ (0 : Int) < 32 by decide
  pointer := show (0 : Int) ≤ 0 ∧ (0 : Int) ≤ 256 by decide
  stack := show (stackLimit : Int) - 1 ≤ stackTop ∧ (stackTop : Int) ≤ stackTop + 1 by decide
  window := fun _ => show (stackLimit : Int) ≤ stackTop ∧ (stackTop : Int) ≤ stackTop by decide
  faulted_iff_flag := ⟨nofun, nofun⟩
  faulted_iff_latched := ⟨nofun, fun latched => absurd rfl latched⟩

theorem sound_resume {cpu : Processor} {memory : Memory} (sound : Sound cpu memory) :
    Sound cpu.resume memory := by
  rw [Processor.resume]
  split
  · next halted =>
    -- a processor that was halted had no fault, and has none when it goes on
    have running : cpu.mode ≠ .faulted := by
      rw [halted]
      decide
    exact
      { full := sound.full
        status := sound.status
        pointer := sound.pointer
        stack := sound.stack
        window := fun _ => sound.window running
        faulted_iff_flag := ⟨nofun, fun flag => absurd (sound.faulted_iff_flag.2 flag) running⟩
        faulted_iff_latched :=
          ⟨nofun, fun latched => absurd (sound.faulted_iff_latched.2 latched) running⟩ }
  · exact sound

/-- **Every call keeps what holds between instructions.** -/
theorem sound_afterCall {env : Env σ} (bystander : env.Bystander) {m : Machine σ}
    (sound : Sound m.cpu m.memory) (call : Call) :
    Sound (afterCall env m call).cpu (afterCall env m call).memory := by
  -- what is kept does not depend on whether the step has succeeded
  cases call with
  | step =>
    have kept := ensures_step bystander m sound
    rw [afterCall, Call.action]
    cases ran : step env m with
    | ok result after =>
      rw [ran] at kept
      exact kept
    | error failure after =>
      rw [ran] at kept
      exact kept
  | resume => exact sound_resume sound
  | reset => exact sound_reset sound.full m.cpu

/-- **A fault stays** until the next reset: no other call changes anything. -/
theorem afterCall_of_faulted {env : Env σ} {m : Machine σ} (sound : Sound m.cpu m.memory)
    (faulted : m.cpu.mode = .faulted) {call : Call} (noReset : call ≠ .reset) :
    afterCall env m call = m := by
  cases call with
  | step =>
    obtain ⟨fault, latched⟩ := Option.ne_none_iff_exists'.1 (sound.faulted_iff_latched.1 faulted)
    rw [afterCall, Call.action, step_of_faulted faulted latched]
  | resume =>
    show { m with cpu := m.cpu.resume } = m
    rw [Processor.resume, if_neg (by rw [faulted]; decide)]
  | reset => exact absurd rfl noReset

/-- **Every sequence of calls keeps it**, faulting and abandoned ones included. -/
theorem sound_foldl {env : Env σ} (bystander : env.Bystander) {m : Machine σ}
    (sound : Sound m.cpu m.memory) (calls : List Call) :
    Sound (calls.foldl (afterCall env) m).cpu (calls.foldl (afterCall env) m).memory := by
  -- the machine varies: each call starts where the one before left it
  induction calls generalizing m with
  | nil => exact sound
  | cons call rest ih => exact ih (sound_afterCall bystander sound call)

/-- Calls other than a reset leave a faulted machine exactly as it is. -/
theorem foldl_of_faulted {env : Env σ} {m : Machine σ} (sound : Sound m.cpu m.memory)
    (faulted : m.cpu.mode = .faulted) {calls : List Call} (noReset : .reset ∉ calls) :
    calls.foldl (afterCall env) m = m := by
  induction calls with
  | nil => rfl
  | cons call rest ih =>
    have other : call ≠ .reset := fun isReset => noReset (isReset ▸ List.mem_cons_self)
    rw [List.foldl_cons, afterCall_of_faulted sound faulted other]
    exact ih fun mem => noReset (List.mem_cons_of_mem _ mem)

/-- **Soundness of every sequence of calls.** Started with a new processor, the machine is sound after
each of them. Once it is faulted, it stays exactly as it is until the next reset. -/
theorem sound_calls {env : Env σ} (bystander : env.Bystander) {m : Machine σ}
    (start : m.cpu = m.cpu.reset) (full : m.memory.Full) (calls : List Call) :
    Sound (calls.foldl (afterCall env) m).cpu (calls.foldl (afterCall env) m).memory ∧
      ((calls.foldl (afterCall env) m).cpu.mode = .faulted → ∀ more : List Call,
        .reset ∉ more →
          more.foldl (afterCall env) (calls.foldl (afterCall env) m) =
            calls.foldl (afterCall env) m) := by
  have begun : Sound m.cpu m.memory := by
    rw [start]
    exact sound_reset full m.cpu
  have reached := sound_foldl bystander begun calls
  exact ⟨reached, fun faulted _ noReset => foldl_of_faulted reached faulted noReset⟩

/-- Popping from the empty stack. -/
theorem sound_calls_of_underflow :
    ∃ (env : Env Unit) (m : Machine Unit), env.Bystander ∧ m.cpu = m.cpu.reset ∧ m.memory.Full ∧
      let after := [Call.step, .resume].foldl (afterCall env) m
      Sound after.cpu after.memory ∧ after.cpu.mode = .faulted ∧
        [Call.step, .resume, .step].foldl (afterCall env) after = after := by
  let env : Env Unit := ⟨fun _ _ => pure (), fun _ _ => pure 0⟩
  let m : Machine Unit :=
    { memory := (Memory.zeros memorySize).fill [UInt8.ofNat (Instr.opcode .pop), 0], notes := () }
  have bystander : env.Bystander := ⟨fun _ _ => Quiet.pure _, fun _ _ => Quiet.pure _⟩
  have full : m.memory.Full := ⟨by decide +kernel, by decide +kernel⟩
  have faulted : ([Call.step, .resume].foldl (afterCall env) m).cpu.mode = .faulted := by
    decide +kernel
  obtain ⟨sound, stays⟩ := sound_calls bystander rfl full [Call.step, .resume]
  exact ⟨env, m, bystander, rfl, full, sound, faulted, stays faulted _ (by decide)⟩

end Machine

end EightBit
