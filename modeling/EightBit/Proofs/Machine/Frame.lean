import EightBit.Proofs.Machine.Requests

/-!
# The Frame of an Instruction

What a completed step leaves alone. Each kind of state has one relation that names what an instruction
may change of it, and nothing else of that kind changes: one register at most, the flags for what
computes them, the stack pointer by one for the stack, one byte for what stores, and the rest of the
machine through the one request of the instruction.

## Main Definitions

- `Targets`: the register that an instruction writes.
- `SetsFlags`: the instructions that set flags.
- `stackStep`: how far an instruction moves the stack pointer.
- `Frame`: what a completed step leaves alone.

## Main Statements

- `Executes.get_eq`, `Executes.sr_eq`, `Executes.sp_eq`: the registers, one kind at a time.
- `step_frame`: every completed step has its frame.
-/

namespace EightBit

namespace Registers

variable (regs : Registers) (flags : Flags) (register : Register)

@[simp] theorem get_withFlags : (regs.withFlags flags).get register = regs.get register := by
  cases register <;> rfl

@[simp] theorem get_withUnaryFlags (op : Unary) :
    (regs.withUnaryFlags op flags).get register = regs.get register := by
  cases register <;> rfl

end Registers

namespace Machine

variable {σ : Type} {env : Env σ}

/-! ## What an instruction can change -/

/-- The instruction writes this register: its left operand, if that is a register and not only compared,
or the first register when a port is read. -/
inductive Targets (regs : Registers) (memory : Memory) : Instr → Register → Prop
  | move {form r} (named : Names regs memory (.move form) 0 r) : Targets regs memory (.move form) r
  | binary {op right r} (named : Names regs memory (.binary op right) 0 r) :
      Targets regs memory (.binary op right) r
  | shift {direction right r} (named : Names regs memory (.shift direction right) 0 r) :
      Targets regs memory (.shift direction right) r
  | unary {op r} (named : Names regs memory (.unary op) 0 r) : Targets regs memory (.unary op) r
  | pop {r} (named : Names regs memory .pop 0 r) : Targets regs memory .pop r
  | input : Targets regs memory .input .al

/-- The instruction sets flags: it computes something, shifts by one place or more, or restores them. -/
inductive SetsFlags (regs : Registers) (memory : Memory) : Instr → Prop
  | binary {op right} : SetsFlags regs memory (.binary op right)
  | compare {right} : SetsFlags regs memory (.compare right)
  | unary {op} : SetsFlags regs memory (.unary op)
  | shift {direction right count} (operand : Values regs memory (.shift direction right) 1 count)
      (moves : count ≠ 0) : SetsFlags regs memory (.shift direction right)
  | popFlags : SetsFlags regs memory .popFlags

/-- How far the instruction moves the stack pointer. -/
def stackStep : Instr → Int
  | .push _ | .pushFlags | .call _ => -1
  | .pop | .popFlags | .ret => 1
  | _ => 0

section Executes

variable {regs now : Registers} {memory after : Memory} {instr : Instr}

/-- An instruction writes one register at most. -/
theorem Targets.unique {r s : Register} (targets : Targets regs memory instr r)
    (again : Targets regs memory instr s) : r = s := by
  cases targets with
  | move named => cases again with | move named' => exact named.unique named'
  | binary named => cases again with | binary named' => exact named.unique named'
  | shift named => cases again with | shift named' => exact named.unique named'
  | unary named => cases again with | unary named' => exact named.unique named'
  | pop named => cases again with | pop named' => exact named.unique named'
  | input => cases again; rfl

/-- **A register changes** only if the instruction writes it. -/
theorem Executes.get_eq (executes : Executes env regs memory instr now after) {r : Register}
    (untouched : ¬Targets regs memory instr r) : now.get r = regs.get r := by
  -- a register that is written is another one than the untouched
  have set : ∀ {given : Registers} {s value}, Targets regs memory instr s →
      (given.set s value).get r = given.get r := by
    intro given s value targets
    refine Registers.get_set_of_ne _ _ fun same => untouched ?_
    rwa [same]
  -- six instructions write a register, and no other does
  cases executes with
  | moveToRegister destination source => simp [set (.move destination)]
  | binary left operand result => simp [set (.binary left)]
  | shift left operand result => simp [set (.shift left)]
  | unary operand => simp [Registers.applyUnary, set (.unary operand)]
  | pop destination top => simp [set (.pop destination)]
  | input operand read => simp [set .input]
  | _ => cases r <;> rfl

/-- **The flags change** only if the instruction sets them. -/
theorem Executes.sr_eq (executes : Executes env regs memory instr now after)
    (untouched : ¬SetsFlags regs memory instr) : now.sr = regs.sr := by
  cases executes with
  | binary left operand result => exact absurd .binary untouched
  | compare left operand => exact absurd .compare untouched
  | @shift direction right register count outcome left operand result =>
    refine absurd (.shift operand fun zero => ?_) untouched
    -- a shift by zero has no result
    rw [zero] at result
    cases result
  | unary operand => exact absurd .unary untouched
  | popFlags top => exact absurd .popFlags untouched
  | _ => simp

/-- **The stack pointer moves** by one address for the stack, and not at all otherwise. -/
theorem Executes.sp_eq (executes : Executes env regs memory instr now after) :
    now.sp = regs.sp + stackStep instr := by
  cases executes <;> simp [stackStep]

theorem Executes.carry_eq (executes : Executes env regs memory (.unary .dec) now after) :
    Status.carry now.sr = Status.carry regs.sr := by
  cases executes
  simp [Registers.applyUnary, Registers.withUnaryFlags, Status.setFlagsKeepCarry]

end Executes

/-! ## Steps -/

/-- **The frame of a completed step.** Whatever has changed is what its instruction may change. -/
structure Frame (env : Env σ) (m : Machine σ) (instr : Instr) (after : Machine σ) : Prop where
  register : ∀ r, after.cpu.regs.get r ≠ m.cpu.regs.get r → Targets m.cpu.regs m.memory instr r
  oneRegister : ∀ r s, after.cpu.regs.get r ≠ m.cpu.regs.get r →
    after.cpu.regs.get s ≠ m.cpu.regs.get s → r = s
  flags : after.cpu.regs.sr ≠ m.cpu.regs.sr → SetsFlags m.cpu.regs m.memory instr
  carry : instr = .unary .dec → Status.carry after.cpu.regs.sr = Status.carry m.cpu.regs.sr
  stack : after.cpu.regs.sp = m.cpu.regs.sp + stackStep instr
  byte : ∀ address, after.memory.load address ≠ m.memory.load address →
    ∃ value, Stores m.cpu.regs m.memory instr address value
  oneByte : ∀ address other, after.memory.load address ≠ m.memory.load address →
    after.memory.load other ≠ m.memory.load other → address = other
  outside : Outside env m instr after

/-- **Every completed step has its frame**, whatever instruction is at the instruction pointer and
whatever registers and memory hold. -/
theorem step_frame (bystander : env.Bystander) {m after : Machine σ} (ready : m.cpu.mode = .ready)
    (ran : step env m = .ok () after) :
    ∃ instr, Fetches m.cpu.regs m.memory instr ∧ Frame env m instr after := by
  obtain ⟨instr, -, fetches, -⟩ := step_completes bystander ready ran
  have executes := step_executes bystander ready fetches ran
  -- what has changed is what the instruction may change, by contraposition
  have register : ∀ r, after.cpu.regs.get r ≠ m.cpu.regs.get r →
      Targets m.cpu.regs m.memory instr r := by
    intro r changed
    by_contra untouched
    exact changed (executes.get_eq untouched)
  have byte : ∀ address, after.memory.load address ≠ m.memory.load address →
      ∃ value, Stores m.cpu.regs m.memory instr address value := by
    intro address changed
    by_contra nothing
    refine changed (executes.load_eq fun place value stores same => nothing ⟨value, ?_⟩)
    rwa [← same]
  refine ⟨instr, fetches, register, fun r s changed also => ?_, fun changed => ?_, fun decrement => ?_,
    executes.sp_eq, byte, fun address other changed also => ?_, step_outside ready fetches ran⟩
  -- it writes one register at most
  · exact (register r changed).unique (register s also)
  · by_contra untouched
    exact changed (executes.sr_eq untouched)
  · rw [decrement] at executes
    exact executes.carry_eq
  -- and it stores at one address at most
  · obtain ⟨value, stores⟩ := byte address changed
    obtain ⟨value', stores'⟩ := byte other also
    exact (stores.unique stores').1

/-- The first instruction writes a byte to the lights. -/
def signalling : Machine Unit :=
  { cpu := { regs := { al := 0b100 } }
    memory := beginning [Instr.output.opcode, lightsPort]
    notes := () }

/-- A step that switches the lights has its frame. -/
theorem step_frame_of_output :
    ∃ after : Machine Unit, alone.Bystander ∧ signalling.cpu.mode = .ready ∧
      step alone signalling = .ok () after ∧
      (∃ instr, Fetches signalling.cpu.regs signalling.memory instr ∧
        Frame alone signalling instr after) ∧
      after.devices.lights.state = 0b100 := by
  obtain ⟨after, ran, lit⟩ := exists_of_leadsTo alone signalling
    (fun after => decide (after.devices.lights.state = 0b100)) (by decide +kernel)
  exact ⟨after, bystander_alone, rfl, ran, step_frame bystander_alone rfl ran,
    of_decide_eq_true lit⟩

end Machine

end EightBit
