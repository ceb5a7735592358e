import EightBit.Proofs.Machine.Step

/-!
# Faults Are Atomic

A fault leaves the machine as it was, up to what reports it. Each instruction makes its checks before
its first change, with two exceptions: a push stores its byte and moves the stack pointer before the
window is looked at, and an observer of a store is told when the byte is there already.

## Main Definitions

- `Intact`: what a fault leaves of the machine.

## Main Statements

- `Stops.keeps`: a step that is not completed keeps registers, flags and the count of instructions.
- `fault_intact`: faults are atomic.
-/

namespace EightBit

/-! ## Failures -/

/-- The kind of fault that the processor makes of a failure. -/
def Failure.faultKind : Failure → FaultKind
  | .trap t => t.kind
  | .outOfBounds _ => .addressOutOfBounds
  | .refused _ | .aborted | .waiting | .fault _ => .deviceError

theorem Fault.kind_of_reason? {failure : Failure} {fault : Fault}
    (has : failure.reason? = some fault.reason) : fault.kind = failure.faultKind := by
  obtain ⟨reason, ip⟩ := fault
  cases failure <;> cases has <;> rfl

theorem Failure.faultKind_of_not_internal {failure : Failure} (foreign : ¬failure.IsInternal) :
    failure.faultKind = .deviceError := by
  cases failure with
  | trap t => exact absurd trivial foreign
  | outOfBounds access => exact absurd trivial foreign
  | refused refusal => rfl
  | fault fault => rfl
  | aborted => rfl
  | waiting => rfl

/-- A failure that is not internal becomes a fault of a device. -/
theorem Failure.reason?_of_not_internal {failure : Failure} {reason : FaultReason}
    (foreign : ¬failure.IsInternal) (has : failure.reason? = some reason) :
    reason = .device failure.name failure.message := by
  cases failure with
  | trap t => exact absurd trivial foreign
  | outOfBounds access => exact absurd trivial foreign
  | refused refusal => exact (Option.some.inj has).symm
  | fault fault => exact (Option.some.inj has).symm
  | aborted => cases has
  | waiting => cases has

/-- An operand lacks a value because of its register or of its address. -/
theorem Registers.operand?_error {regs : Registers} {memory : Memory} {shape : Shape} {code : UInt8}
    {failure : Failure} (lacks : regs.operand? memory shape code = .error failure) :
    (∃ index, failure = .trap (.invalidRegister index)) ∨ ∃ access, failure = .outOfBounds access := by
  -- a load can only be out of bounds
  have loads : ∀ {address}, (memory.load address).mapError .outOfBounds = .error failure →
      ∃ access, failure = .outOfBounds access := by
    intro address lacks
    cases result : memory.load address with
    | ok value =>
      rw [result] at lacks
      cases lacks
    | error access =>
      rw [result] at lacks
      exact ⟨access, (Except.error.inj lacks).symm⟩
  -- a byte that is no register traps, a place that is not in memory is out of bounds
  cases shape with
  | register =>
    rw [operand?, read?] at lacks
    cases named : Register.ofIndex? code.toNat with
    | some r =>
      rw [named] at lacks
      cases lacks
    | none =>
      rw [named] at lacks
      exact .inl ⟨_, (Except.error.inj lacks).symm⟩
  | address => exact .inr (loads lacks)
  | indirect => exact .inr (loads lacks)
  | stackOffset => exact .inr (loads lacks)
  | immediate => cases lacks
  | target => cases lacks
  | label => cases lacks
  | text => cases lacks

/-! ## Status -/

/-- Raising the fault flag changes no other bit, whatever integer the status is. -/
theorem Status.bit_setFault (status : Int) (index : Nat) :
    Bits.bit index (setFault status true) = (index == 0 || Bits.bit index status) := by
  -- raising the fault flag makes the status odd and changes no other bit
  have parity : status % 2 = 0 ∨ status % 2 = 1 := by omega
  have raised : setFault status true = 2 * (status / 2) + 1 := by
    rw [setFault, if_pos rfl, fault, Machine.bit_zero]
    obtain even | odd := parity
    · simp [even, Flags.unit]
      omega
    · simp [odd, Flags.unit]
      omega
  rw [raised]
  cases index with
  | zero => simp [Machine.bit_zero]
  | succ index =>
    -- above the lowest bit nothing changes, since half of both is the same
    have same : (2 * (status / 2) + 1) / 2 = status / 2 := by omega
    rw [Machine.bit_succ, Machine.bit_succ, same]
    simp

namespace Machine

variable {σ : Type} {env : Env σ}

/-! ## Atomicity -/

theorem Breaks.keeps {regs now : Registers} {memory after : Memory} {instr : Instr} {failure : Failure}
    (breaks : Breaks env regs memory instr failure now after) :
    (∀ r, now.get r = regs.get r) ∧ now.sr = regs.sr := by
  cases breaks <;> simp

/-- A step that is not completed keeps registers, flags and the count of instructions. -/
theorem Stops.keeps {cpu stopped : Processor} {memory after : Memory} {failure : Failure}
    (stops : Stops env cpu memory failure stopped after) :
    (∀ r, stopped.regs.get r = cpu.regs.get r) ∧ stopped.regs.sr = cpu.regs.sr ∧
      stopped.instructions = cpu.instructions := by
  cases stops with
  | nowhere outside => exact ⟨fun _ => rfl, rfl, rfl⟩
  | unknown loaded undefined => exact ⟨fun _ => rfl, rfl, rfl⟩
  | broken fetches breaks =>
    exact ⟨breaks.keeps.1, breaks.keeps.2, Processor.instructions_traced ..⟩

/-- Only an overflow and an underflow move the stack pointer, by the one step out of its window. -/
def LeavesWindow (kind : FaultKind) (sp now : Int) : Prop :=
  match kind with
  | .stackOverflow => sp = 0x80 ∧ now = 0x7F
  | .stackUnderflow => sp = 0xBF ∧ now = 0xC0
  | _ => now = sp

/-- An overflow has stored the byte of the push at the end of the window. Another fault has stored nothing,
unless an observer has failed that was told of the store. -/
def StoresAtMost (env : Env σ) (regs : Registers) (memory : Memory) (fault : Fault) (now : Memory) :
    Prop :=
  match fault.kind with
  | .stackOverflow => ∃ instr value, Fetches regs memory instr ∧ Pushes regs memory instr value ∧
      now = memory.write 0x80 value
  | _ => now = memory ∨ ∃ instr address value failure, Fetches regs memory instr ∧
      Stores regs memory instr address value ∧ env.Refuses memory address value failure ∧
      fault.reason = .device failure.name failure.message ∧ now = memory.write address.toNat value

/-- **What a fault leaves** of the machine: registers, all flags but the fault flag, and the count of
instructions are as they were, and the fault is latched with its place. -/
structure Intact (env : Env σ) (m : Machine σ) (fault : Fault) (after : Machine σ) : Prop where
  registers : ∀ r, after.cpu.regs.get r = m.cpu.regs.get r
  status : ∀ index, Bits.bit index after.cpu.regs.sr = (index == 0 || Bits.bit index m.cpu.regs.sr)
  instructions : after.cpu.instructions = m.cpu.instructions
  latched : after.cpu.lastFault = some fault
  place : fault.ip = m.cpu.regs.ip
  stack : LeavesWindow fault.kind m.cpu.regs.sp after.cpu.regs.sp
  memory : StoresAtMost env m.cpu.regs m.memory fault after.memory

/-- A fault of another kind, with the stack pointer and memory as they were. -/
theorem unmoved {regs : Registers} {memory : Memory} {fault : Fault} {kind : FaultKind}
    (is : fault.kind = kind) (other : kind ≠ .stackOverflow ∧ kind ≠ .stackUnderflow) :
    LeavesWindow fault.kind regs.sp regs.sp ∧ StoresAtMost env regs memory fault memory := by
  unfold LeavesWindow StoresAtMost
  rw [is]
  cases kind with
  | stackOverflow => exact absurd rfl other.1
  | stackUnderflow => exact absurd rfl other.2
  | _ => exact ⟨rfl, .inl rfl⟩

section Effect

variable {regs now : Registers} {memory after : Memory} {instr : Instr} {failure : Failure}
  {fault : Fault}

/-- A failed instruction has moved the stack pointer and stored a byte in these cases only. -/
theorem Breaks.effect (ordinary : env.Ordinary) (size : memory.size = memorySize)
    (window : InWindow regs) (fetches : Fetches regs memory instr)
    (breaks : Breaks env regs memory instr failure now after)
    (has : failure.reason? = some fault.reason) :
    LeavesWindow fault.kind regs.sp now.sp ∧ StoresAtMost env regs memory fault after := by
  obtain ⟨low, high⟩ := window
  have limits : (stackLimit : Int) = 0x80 ∧ (stackTop : Int) = 0xBF ∧ (memorySize : Int) = 256 := by
    decide
  have kind := Fault.kind_of_reason? has
  cases breaks with
  | short within beyond before => exact unmoved kind ⟨nofun, nofun⟩
  | operand is lacks =>
    obtain ⟨index, rfl⟩ | ⟨access, rfl⟩ := Registers.operand?_error lacks
    · exact unmoved kind ⟨nofun, nofun⟩
    · exact unmoved kind ⟨nofun, nofun⟩
  | divisor is zero => exact unmoved kind ⟨nofun, nofun⟩
  | outside stores lacks => exact unmoved kind ⟨nofun, nofun⟩
  | refused stores inside refuses =>
    obtain ⟨hook, notice, before, late, about, written, told⟩ := id refuses
    have foreign := ordinary.notify _ _ _ _ _ told
    unfold LeavesWindow StoresAtMost
    rw [kind, Failure.faultKind_of_not_internal foreign]
    exact ⟨rfl, .inr ⟨instr, _, _, failure, fetches, stores, refuses,
      Failure.reason?_of_not_internal foreign has, rfl⟩⟩
  | overflow pushes inside full =>
    have last : regs.sp = 0x80 := by omega
    unfold LeavesWindow StoresAtMost
    rw [kind, Registers.sp_forward, Registers.sp_moveStack, last]
    exact ⟨⟨rfl, rfl⟩, instr, _, fetches, pushes, rfl⟩
  | nothingOnTop popping lacks =>
    -- the address above the stack pointer is one of memory
    obtain ⟨-, -, found⟩ | ⟨outside, -⟩ := memory.load_cases (regs.sp + 1)
    · rw [found] at lacks
      cases lacks
    · omega
  | underflow popping empty =>
    have first : regs.sp = 0xBF := by omega
    unfold LeavesWindow StoresAtMost
    rw [kind, Registers.sp_forward, Registers.sp_moveStack, first]
    exact ⟨⟨rfl, rfl⟩, .inl rfl⟩
  | port is raises =>
    have foreign := ordinary.raises raises
    exact unmoved (kind.trans (Failure.faultKind_of_not_internal foreign)) ⟨nofun, nofun⟩

end Effect

/-- **Faults are atomic.** Whatever instruction is at the instruction pointer, whatever its operands are
and whoever fails in it, the fault of a step leaves the machine intact. -/
theorem fault_intact (bystander : env.Bystander) (ordinary : env.Ordinary) {m after : Machine σ}
    {fault : Fault} (full : m.memory.Full) (ready : m.cpu.mode = .ready)
    (window : InWindow m.cpu.regs) (failed : step env m = .error (.fault fault) after) :
    Intact env m fault after := by
  -- what the step has come to before the fault was latched, and what latching adds
  obtain ⟨cause, stopped, stops, recovers⟩ := step_fails bystander ready failed
  obtain ⟨has, place, latched⟩ := recovers.of_fault
  obtain ⟨registers, status, instructions⟩ := stops.keeps
  -- the effect depends on the fault only through its kind
  have effect : LeavesWindow fault.kind m.cpu.regs.sp stopped.regs.sp ∧
      StoresAtMost env m.cpu.regs m.memory fault after.memory := by
    have kind := Fault.kind_of_reason? has
    generalize after.memory = now at stops ⊢
    cases stops with
    | nowhere outside => exact unmoved kind ⟨nofun, nofun⟩
    | unknown loaded undefined => exact unmoved kind ⟨nofun, nofun⟩
    | broken fetches breaks => exact breaks.effect ordinary full.size window fetches has
  exact
    { registers := fun r => by
        rw [latched]
        show Registers.get { stopped.regs with sr := _ } r = _
        rw [← registers r]
        cases r <;> rfl
      status := fun index => by
        rw [latched, ← status]
        exact Status.bit_setFault _ index
      instructions := by rw [latched, ← instructions]; rfl
      latched := by rw [latched]; rfl
      place := place
      stack := by rw [latched]; exact effect.1
      memory := effect.2 }

/-- Every observer fails. -/
def refusing : Env Unit :=
  ⟨fun _ _ => refuse (.other "RuntimeError" "no display"), fun _ _ => pure 0⟩

theorem bystander_refusing : refusing.Bystander :=
  ⟨fun _ _ => .throw _, fun _ _ => .pure _⟩

theorem ordinary_refusing : refusing.Ordinary := by
  refine ⟨fun _ _ _ _ _ told => ?_, fun _ _ before failure after asked => ?_⟩
  · obtain ⟨rfl, -⟩ := EStateM.Result.error.inj told
    exact id
  · have answered : EStateM.Result.ok (0 : Int) before = .error failure after := asked
    cases answered

/-- The first instruction moves a seven to the display, which has an observer. -/
def showing : Machine Unit :=
  { memory := beginning [(Instr.move .addressImmediate).opcode, 0xC0, 7]
    observers := { listeners := [.hook 0] }
    notes := () }

/-- A move to the display, whose observer fails: the byte is there, and nothing else has changed. -/
theorem fault_intact_of_observer :
    ∃ (fault : Fault) (after : Machine Unit), refusing.Bystander ∧ refusing.Ordinary ∧
      showing.memory.Full ∧ showing.cpu.mode = .ready ∧ InWindow showing.cpu.regs ∧
      step refusing showing = .error (.fault fault) after ∧ Intact refusing showing fault after ∧
      fault.kind = .deviceError ∧ after.memory.load 0xC0 = .ok 7 := by
  have full : showing.memory.Full := full_beginning (by decide)
  have window : InWindow showing.cpu.regs := ⟨by decide, by decide⟩
  obtain ⟨fault, after, failed, checked⟩ := exists_of_faultsWith refusing showing
    (fun fault after => fault.kind == .deviceError && decide (after.memory.load 0xC0 = .ok 7))
    (by decide +kernel)
  obtain ⟨kind, stored⟩ := Bool.and_eq_true_iff.1 checked
  exact ⟨fault, after, bystander_refusing, ordinary_refusing, full, rfl, window, failed,
    fault_intact bystander_refusing ordinary_refusing full rfl window failed, eq_of_beq kind,
    of_decide_eq_true stored⟩

end Machine

end EightBit
