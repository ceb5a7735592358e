import EightBit.Proofs.Assembly.LineMap
import EightBit.Proofs.Assembly.WellFormed
import EightBit.Proofs.Machine.Boundaries
import EightBit.Proofs.Machine.Keeping
import EightBit.Proofs.Machine.Loading
import EightBit.Proofs.Machine.Run

/-!
# The Line That Is Reported for a Fault

A fault knows the address of the instruction that failed, but its line is looked up at the instruction
pointer. An instruction moves the pointer on while it fetches its bytes, so where it is left depends on how the
instruction has failed: on its opcode, on its last byte, at the end of memory, or behind it when a fault flag
was restored. The line is that of the fault if the byte there comes from the same line of the source.

## Main Definitions

- `Strands`: where a fault leaves the instruction pointer.
- `Struck`: a step has latched a fault.
- `Tried`: a program was loaded, and has been run since.

## Main Statements

- `exists_struck`: a step that leaves a faulted processor has latched a fault, by one of the rules.
- `Traceable.run`: runs keep track of the step that has done so.
- `fault_line`: the line that is reported when a run ends in a fault.
-/

namespace EightBit

/-! ## Programs -/

/-- No line is known of the addresses behind the program region. -/
theorem lineFor?_of_le {limit : DigitLimit} {source : List Char} {program : Program}
    (assembled : assembleText limit source = .ok program) {address : Int}
    (beyond : programLimit ≤ address) : program.lineFor? address = none := by
  have room := length_code_le assembled
  obtain ⟨layout, -, rfl⟩ := assembleText_ok_iff.1 assembled
  rw [length_code] at room
  rw [Program.lineFor?, if_neg (by simp only [programLimit] at beyond; omega), List.lookup_eq_none_iff]
  rintro ⟨place, number⟩ mem
  have below := (mem_lines_iff.1 mem).1
  simp only [bne_iff_ne]
  omega

/-! ## The fault flag -/

namespace Registers

variable (regs : Registers) (flags : Flags)

@[simp] theorem fault_withFlags : Status.fault (regs.withFlags flags).sr = Status.fault regs.sr :=
  Status.fault_setFlags regs.sr flags

@[simp] theorem fault_withUnaryFlags (op : Unary) :
    Status.fault (regs.withUnaryFlags op flags).sr = Status.fault regs.sr := by
  simp only [withUnaryFlags]
  split
  · exact Status.fault_setFlags regs.sr _
  · exact Status.fault_setFlags regs.sr _

end Registers

namespace Machine

variable {σ : Type} {env : Env σ}

/-- Only restoring the status changes the fault flag. -/
theorem Executes.fault_eq {regs now : Registers} {memory after : Memory} {instr : Instr}
    (executes : Executes env regs memory instr now after) (other : instr ≠ .popFlags) :
    Status.fault now.sr = Status.fault regs.sr := by
  cases executes with
  | popFlags top => exact absurd rfl other
  | unary operand => simp [Registers.applyUnary]
  | _ => simp

/-! ## Where a fault leaves the instruction pointer -/

/-- The instruction starts at the address. -/
def Starts (memory : Memory) (address : Int) (instr : Instr) : Prop :=
  Fetches { ip := address } memory instr

/-- **Where a fault leaves the instruction pointer**, with this memory before the step: at the instruction if
there is none to execute, at the end of memory if it does not fit, and on its last byte otherwise. Only behind
a restored fault flag has it gone further. -/
inductive Strands (memory : Memory) (start : Int) : FaultReason → Int → Prop
  | nowhere (outside : ¬(0 ≤ start ∧ start < memory.size)) :
      Strands memory start (.trap (.pointerOutOfBounds start)) start
  | unknown {opcode} (loaded : memory.load start = .ok opcode)
      (undefined : Instr.decode? opcode.toNat = none) :
      Strands memory start (.trap (.invalidOpcode opcode.toNat)) start
  | cut {instr} (starts : Starts memory start instr) (beyond : memory.size < start + instr.size) :
      Strands memory start (.trap (.pointerOutOfBounds memory.size)) memory.size
  | onLast {instr reason} (starts : Starts memory start instr) (other : reason ≠ .flagRestored) :
      Strands memory start reason (start + instr.shapes.length)
  | behind (starts : Starts memory start .popFlags) : Strands memory start .flagRestored (start + 1)

/-- Whatever an instruction fails with, it is no restored flag. -/
theorem ne_flagRestored {failure : Failure} {reason : FaultReason}
    (has : failure.reason? = some reason) : reason ≠ .flagRestored := by
  rintro rfl
  cases failure <;> cases has

theorem Breaks.strands {regs now : Registers} {memory after : Memory} {instr : Instr}
    {failure : Failure} {reason : FaultReason} (starts : Starts memory regs.ip instr)
    (breaks : Breaks env regs memory instr failure now after) (has : failure.reason? = some reason) :
    Strands memory regs.ip reason now.ip := by
  have last : Strands memory regs.ip reason (regs.ip + instr.shapes.length) :=
    .onLast starts (ne_flagRestored has)
  cases breaks with
  | @short index within beyond before =>
    cases has
    have size : (instr.size : Int) = 1 + instr.shapes.length := by simp [Instr.size]
    have cut : regs.ip + (index + 1 : Nat) = memory.size := by omega
    rw [Registers.ip_forward, cut]
    exact .cut starts (by omega)
  | _ => exact last

theorem Stops.strands {cpu stopped : Processor} {memory after : Memory} {failure : Failure}
    {reason : FaultReason} (stops : Stops env cpu memory failure stopped after)
    (has : failure.reason? = some reason) : Strands memory cpu.regs.ip reason stopped.regs.ip := by
  cases stops with
  | nowhere outside =>
    cases has
    exact .nowhere outside
  | unknown loaded undefined =>
    cases has
    exact .unknown loaded undefined
  | broken fetches breaks => exact breaks.strands fetches has

/-- What stops a step leaves its mode to what becomes of the failure. -/
theorem Stops.mode_eq {cpu stopped : Processor} {memory after : Memory} {failure : Failure}
    (stops : Stops env cpu memory failure stopped after) : stopped.mode = cpu.mode := by
  cases stops with
  | nowhere outside => rfl
  | unknown loaded undefined => rfl
  | @broken instr _ _ _ fetches breaks => exact cpu.mode_traced instr

/-! ## Steps -/

/-- **A step has latched a fault**: the machine before it and the one behind it. -/
structure Struck (env : Env σ) (fault : Fault) (before now : Machine σ) : Prop where
  full : before.memory.Full
  ready : before.cpu.mode = .ready
  start : before.cpu.regs.ip = fault.ip
  outcome : step env before = .error (.fault fault) now ∨ step env before = .ok () now
  latched : now.cpu.lastFault = some fault
  strands : Strands before.memory fault.ip fault.reason now.cpu.regs.ip

section Step

variable (bystander : env.Bystander) {m now : Machine σ}
include bystander

/-- A step that completes can leave a faulted processor: it has restored the fault flag. -/
theorem exists_struck_of_ok (sound : Sound m.cpu m.memory) (ready : m.cpu.mode = .ready)
    (stepped : step env m = .ok () now) (faulted : now.cpu.mode = .faulted) :
    ∃ fault, Struck env fault m now := by
  obtain ⟨instr, regs, fetches, executes, same⟩ := step_completes bystander ready stepped
  -- before the step the flag was clear, and behind it the flag is set
  have unflagged : Status.fault m.cpu.regs.sr = false := by
    rw [← Bool.not_eq_true, ← sound.faulted_iff_flag, ready]
    simp
  have flagged : Status.fault regs.sr = true := by
    rw [same, Processor.mode_counted] at faulted
    by_contra unraised
    rw [if_neg unraised] at faulted
    split at faulted
    · cases faulted
    · rw [ready] at faulted
      cases faulted
  -- no other instruction than the one that restores the flags sets it
  obtain rfl : instr = .popFlags := by
    by_contra other
    rw [executes.fault_eq other, unflagged] at flagged
    cases flagged
  -- so the pointer stands behind the one byte of the instruction
  have behind : now.cpu.regs.ip = m.cpu.regs.ip + 1 := by
    rw [same, Processor.regs_counted, executes.ip_eq rfl]
    rfl
  refine ⟨⟨.flagRestored, m.cpu.regs.ip⟩, sound.full, ready, rfl, .inr stepped, ?_, ?_⟩
  · rw [same, Processor.counted, if_pos flagged]
  · rw [behind]
    exact .behind fetches

/-- A step that fails has latched its fault, or an input is to be tried again. -/
theorem exists_struck_of_error (full : m.memory.Full) (ready : m.cpu.mode = .ready) {failure : Failure}
    (failed : step env m = .error failure now) (faulted : now.cpu.mode = .faulted) :
    ∃ fault, Struck env fault m now := by
  obtain ⟨cause, stopped, stops, recovers⟩ := step_fails bystander ready failed
  generalize sameCpu : now.cpu = after at recovers
  -- a fault is latched with the place of its instruction; any other failure leaves the mode as it was
  cases recovers with
  | @latched _ reason has =>
    refine ⟨⟨reason, m.cpu.regs.ip⟩, full, ready, rfl, .inl failed, by rw [sameCpu]; rfl, ?_⟩
    rw [sameCpu]
    exact stops.strands has
  | aborted =>
    rw [sameCpu] at faulted
    cases ready.symm.trans (stops.mode_eq.symm.trans faulted)
  | waiting =>
    rw [sameCpu] at faulted
    cases ready.symm.trans (stops.mode_eq.symm.trans faulted)

end Step

/-! ## Runs -/

/-- The program is loaded. -/
def HasProgram (program : Program) (m : Machine σ) : Prop :=
  m.control.program = some program

theorem aloof_hasProgram (program : Program) : Aloof (HasProgram program : Machine σ → Prop) where
  keeps := fun _ _ _ _ _ _ holds => holds

/-- **A run that can be traced back**: if the processor is faulted, a step has latched its fault, and nothing
has changed the processor since. -/
structure Traceable (env : Env σ) (program : Program) (m : Machine σ) : Prop where
  sound : Sound m.cpu m.memory
  loaded : HasProgram program m
  struck : m.cpu.mode = .faulted → ∃ fault before now, Struck env fault before now ∧ now.cpu = m.cpu

theorem lasting_traceable (program : Program) : Lasting (Traceable env program) where
  keeps := fun _ _ _ _ sameProgram traceable =>
    ⟨traceable.sound, sameProgram.trans traceable.loaded, traceable.struck⟩

end Machine

/-- Observers and attached devices leave the loaded program alone. -/
structure Env.KeepsProgram {σ : Type} (env : Env σ) : Prop where
  notify : ∀ program hook notice, Machine.Keeps (Machine.HasProgram program) (env.notify hook notice)
  answer : ∀ program hook port, Machine.Keeps (Machine.HasProgram program) (env.answer hook port)

namespace Machine

variable {σ : Type} {env : Env σ}

/-- A step that ends in a fault leaves a faulted processor. -/
theorem faulted_of_step {m now : Machine σ} {fault : Fault}
    (failed : step env m = .error (.fault fault) now) : now.cpu.mode = .faulted := by
  -- a halted processor does nothing, and a faulted one raises the fault again
  cases mode : m.cpu.mode with
  | ready => exact mode_of_fault mode failed
  | halted =>
    rw [step_of_halted mode] at failed
    cases failed
  | faulted =>
    rw [step_eq_refault mode, refault, get_bind] at failed
    cases latched : m.cpu.lastFault with
    | some earlier =>
      rw [latched] at failed
      cases failed
      exact mode
    | none =>
      rw [latched] at failed
      cases failed
      exact mode

section Run

variable {limit : Option Nat}

/-- A round that ends the run for a fault leaves a faulted processor, in step mode or not. -/
theorem faulted_of_turn {steps : Nat} {m ended : Machine σ}
    (last : turn env limit steps m = .ok (.finish .fault) ended) : ended.cpu.mode = .faulted := by
  rw [turn, get_bind] at last
  cases checked : checks? m limit steps with
  | some reason =>
    rw [checked] at last
    cases last
    revert checked
    rw [checks?]
    split_ifs with _ _ faulted <;> simp_all
  | none =>
    rw [checked] at last
    obtain ⟨granted, now, -, went⟩ := exists_of_bind_ok (last : takeTurn env m = _)
    -- a step is waited for, refused, or granted
    rcases granted with _ | _ | _
    · cases went
    · cases went
    · have settled : settleStep now.cpu.regs.ip (step env) now = .ok (.finish .fault) ended := went
      cases stepped : step env now with
      | ok done after =>
        rw [settleStep_ok stepped] at settled
        cases settled
      | error failure after =>
        rw [settleStep_error stepped] at settled
        cases failure with
        | fault fault =>
          cases settled
          show after.cpu.mode = .faulted
          exact faulted_of_step stepped
        | aborted =>
          rw [Machine.settled] at settled
          split at settled <;> cases settled
        | _ => cases settled

theorem Loop.faulted {count steps : Nat} {m ended : Machine σ}
    (loop : Loop env limit count steps m .fault ended) : ended.cpu.mode = .faulted := by
  generalize isFault : StopReason.fault = reason at loop
  induction loop with
  | finish last =>
    subst isFault
    exact faulted_of_turn last
  | next first rest ih => exact ih isFault

/-- **A run that ends for a fault** leaves a faulted processor. -/
theorem faulted_of_run {patience : Nat} {m after : Machine σ}
    (ran : run env patience limit m = .ok (.done .fault) after) : after.cpu.mode = .faulted := by
  have idle : m.control.running = false := by
    by_contra running
    rw [Bool.not_eq_false] at running
    rw [run, get_bind, if_pos running] at ran
    cases ran
  obtain ⟨count, -, ended, loop, concludes⟩ := (run_done_iff idle).1 ran
  have lasting : Lasting fun m : Machine σ => m.cpu.mode = .faulted := ⟨fun _ _ _ _ _ faulted => faulted⟩
  have kept := (lasting.conclude .fault).ensures ended loop.faulted
  rwa [concludes] at kept

variable (bystander : env.Bystander) (keepsProgram : env.KeepsProgram) {program : Program}
include bystander keepsProgram

theorem keeps_traceable_step : Keeps (Traceable env program) (step env) := by
  have aloof := aloof_hasProgram (σ := σ) program
  refine ⟨fun m traceable => ?_⟩
  -- the step keeps what is known of machine and program; what is new is where a fault comes from
  have sound := ensures_step bystander m traceable.sound
  have stores := aloof.keeps_store (keepsProgram.notify program) (fun _ _ holds => holds)
    fun _ _ _ holds => holds
  have loaded := (aloof.step (keepsProgram.notify program) (keepsProgram.answer program) stores).ensures m
    traceable.loaded
  -- only a step of a processor that is ready can bring a fault about
  cases mode : m.cpu.mode with
  | halted =>
    rw [step_of_halted mode]
    exact traceable
  | faulted =>
    obtain ⟨fault, latched⟩ := Option.ne_none_iff_exists'.1 (traceable.sound.faulted_iff_latched.1 mode)
    rw [step_of_faulted mode latched]
    exact traceable
  | ready =>
    cases stepped : step env m with
    | ok done now =>
      rw [stepped] at sound loaded
      -- a step that succeeds and faults has restored the flags
      refine ⟨sound, loaded, fun faulted => ?_⟩
      obtain ⟨fault, struck⟩ := exists_struck_of_ok bystander traceable.sound mode stepped faulted
      exact ⟨fault, m, now, struck, rfl⟩
    | error failure now =>
      rw [stepped] at sound loaded
      -- a step that fails has latched its fault at its own instruction
      refine ⟨sound, loaded, fun faulted => ?_⟩
      obtain ⟨fault, struck⟩ :=
        exists_struck_of_error bystander traceable.sound.full mode stepped faulted
      exact ⟨fault, m, now, struck, rfl⟩

end Run

/-! ## Sessions -/

/-- **A program was loaded and has been run since**, any number of times. Between the runs everything may be
done to the machine that leaves the processor and the loaded program as they are. -/
inductive Tried (env : Env σ) (program : Program) : Machine σ → Prop
  | loaded {limit source m after} (full : m.memory.Full) (idle : m.control.running = false)
      (assembles : assemble limit source m = .ok program after) : Tried env program after
  | changed {m now} (tried : Tried env program m) (full : now.memory.Full) (sameCpu : now.cpu = m.cpu)
      (sameProgram : now.control.program = m.control.program) : Tried env program now
  | run {patience limit m ending after} (tried : Tried env program m)
      (ran : run env patience limit m = .ok ending after) : Tried env program after

/-- What is sound about a processor does not depend on the bytes in memory. -/
theorem Sound.of_full {cpu : Processor} {memory other : Memory} (sound : Sound cpu memory)
    (full : other.Full) : Sound cpu other where
  full := full
  status := sound.status
  pointer := sound.pointer
  stack := sound.stack
  window := sound.window
  faulted_iff_flag := sound.faulted_iff_flag
  faulted_iff_latched := sound.faulted_iff_latched

theorem Tried.lineFor?_of_le {program : Program} {m : Machine σ} (tried : Tried env program m)
    {address : Int} (beyond : programLimit ≤ address) : program.lineFor? address = none := by
  induction tried with
  | loaded full idle assembles =>
    exact EightBit.lineFor?_of_le (loaded_of_assemble full idle assembles).1 beyond
  | changed _ _ _ _ ih => exact ih
  | run _ _ ih => exact ih

section Tried

variable (bystander : env.Bystander) (keepsProgram : env.KeepsProgram) {program : Program}
  {m after : Machine σ}
include bystander keepsProgram

theorem Tried.traceable (tried : Tried env program m) : Traceable env program m := by
  -- by induction on what has been tried, from the loading on
  induction tried with
  | @loaded limit source m after full idle assembles =>
    obtain ⟨-, loaded⟩ := loaded_of_assemble full idle assembles
    have reset : after.cpu = m.cpu.reset := loaded.processor
    refine ⟨?_, ?_, fun faulted => ?_⟩
    · rw [reset]
      exact sound_reset loaded.full m.cpu
    · rw [HasProgram, loaded.control]
    -- a processor that has been reset has no fault
    · rw [reset] at faulted
      cases faulted
  -- whatever else is changed, processor and program are as before
  | @changed m now _ full sameCpu sameProgram traceable =>
    refine ⟨?_, sameProgram.trans traceable.loaded, fun faulted => ?_⟩
    · rw [sameCpu]
      exact traceable.sound.of_full full
    · rw [sameCpu] at faulted ⊢
      exact traceable.struck faulted
  -- a run keeps what each of its steps keeps
  | @run patience limit m ending after _ ran traceable =>
    have keeps : Keeps (Traceable env program) (Machine.run env patience limit) :=
      (lasting_traceable program).run (keeps_traceable_step bystander keepsProgram) patience
    have kept := keeps.ensures m traceable
    rwa [ran] at kept

/-- **The line that is reported for a fault** is that of the byte at the instruction pointer. The step that
has latched the fault says where this is. If no fault flag was restored, and the first and the last byte of the
instruction come from the same line, then it is the line of the instruction that has failed. -/
theorem fault_line {patience : Nat} {limit : Option Nat} (tried : Tried env program m)
    (ran : run env patience limit m = .ok (.done .fault) after) :
    ∃ fault before now, Struck env fault before now ∧ now.cpu = after.cpu ∧
      after.currentLine? = program.lineFor? after.cpu.regs.ip ∧
      (fault.reason ≠ .flagRestored →
        (∀ instr, Starts before.memory fault.ip instr →
          program.lineFor? (fault.ip + instr.shapes.length) = program.lineFor? fault.ip) →
        after.currentLine? = program.lineFor? fault.ip) := by
  have traceable := (tried.run ran).traceable bystander keepsProgram
  obtain ⟨fault, before, now, struck, same⟩ := traceable.struck (faulted_of_run ran)
  have line : after.currentLine? = program.lineFor? after.cpu.regs.ip := by
    have loaded : after.control.program = some program := traceable.loaded
    rw [currentLine?, loaded, Option.bind_some]
  refine ⟨fault, before, now, struck, same, line, fun other sameLine => ?_⟩
  rw [line, ← same]
  have strands := struck.strands
  generalize now.cpu.regs.ip = place at strands
  generalize fault.reason = reason at strands other
  cases strands with
  | nowhere outside => rfl
  | unknown loaded undefined => rfl
  | onLast starts _ => exact sameLine _ starts
  | behind starts => exact absurd rfl other
  | @cut instr starts beyond =>
    -- both addresses are behind the program region, where no line is known
    have few := length_shapes_le instr
    have size : (instr.size : Int) = 1 + instr.shapes.length := by simp [Instr.size]
    rw [struck.full.size] at beyond ⊢
    simp only [memorySize] at beyond ⊢
    rw [tried.lineFor?_of_le (by simp only [programLimit]; omega),
      tried.lineFor?_of_le (by simp only [programLimit]; omega)]

end Tried

/-! ## A fault behind its line -/

theorem keepsProgram_alone : alone.KeepsProgram :=
  ⟨fun _ _ _ => .pure _, fun _ _ _ => .pure _⟩

/-- A source that restores a status with the fault flag. -/
def restoring : List Char :=
  "PUSH 1\nPOPF\nHLT".toList

/-- What comes of loading a source into a new machine and running it: the line that is reported, and that of
the instruction that has failed. -/
def reportedLines (source : List Char) : Option (Option Nat × Option Nat) :=
  match assemble none source (simulator ()) with
  | .error _ _ => none
  | .ok program loaded =>
    match run alone 0 (some 9) loaded with
    | .ok (.done .fault) after =>
      some (after.currentLine?, after.cpu.lastFault.bind fun fault => program.lineFor? fault.ip)
    | _ => none

theorem exists_of_reportedLines {source : List Char} {reported own : Option Nat}
    (passed : reportedLines source = some (reported, own)) :
    ∃ program loaded after, assemble none source (simulator ()) = .ok program loaded ∧
      run alone 0 (some 9) loaded = .ok (.done .fault) after ∧ after.currentLine? = reported ∧
      (after.cpu.lastFault.bind fun fault => program.lineFor? fault.ip) = own := by
  rw [reportedLines] at passed
  cases assembles : assemble none source (simulator ()) with
  | error failure now =>
    rw [assembles] at passed
    cases passed
  | ok program loaded =>
    rw [assembles] at passed
    dsimp only at passed
    split at passed
    -- the run ends in a fault, and both lines are read off what it has left
    · next after ran =>
      cases passed
      exact ⟨program, loaded, after, rfl, ran, rfl, rfl⟩
    · cases passed

theorem reportedLines_restoring : reportedLines restoring = some (some 3, some 2) := by decide +kernel

theorem fault_line_of_restoring :
    ∃ program loaded after fault before now, alone.Bystander ∧ alone.KeepsProgram ∧
      Tried alone program loaded ∧ run alone 0 (some 9) loaded = .ok (.done .fault) after ∧
      Struck alone fault before now ∧ now.cpu = after.cpu ∧
      after.currentLine? = program.lineFor? after.cpu.regs.ip ∧
      (fault.reason ≠ .flagRestored →
        (∀ instr, Starts before.memory fault.ip instr →
          program.lineFor? (fault.ip + instr.shapes.length) = program.lineFor? fault.ip) →
        after.currentLine? = program.lineFor? fault.ip) := by
  obtain ⟨program, loaded, after, assembles, ran, -⟩ := exists_of_reportedLines reportedLines_restoring
  have tried : Tried alone program loaded := .loaded Memory.full_fresh rfl assembles
  obtain ⟨fault, before, now, struck, same, line, own⟩ :=
    fault_line bystander_alone keepsProgram_alone tried ran
  exact ⟨program, loaded, after, fault, before, now, bystander_alone, keepsProgram_alone, tried, ran,
    struck, same, line, own⟩

/-- **The line of another instruction can be reported**: the fault is that of the second line, but a restored
fault flag is found out behind the instruction. -/
theorem exists_fault_line_elsewhere :
    ∃ program loaded after, assemble none restoring (simulator ()) = .ok program loaded ∧
      run alone 0 (some 9) loaded = .ok (.done .fault) after ∧ after.currentLine? = some 3 ∧
      (after.cpu.lastFault.bind fun fault => program.lineFor? fault.ip) = some 2 :=
  exists_of_reportedLines reportedLines_restoring

end Machine

end EightBit
