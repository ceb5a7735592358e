import EightBit.Proofs.Assembly.WellFormed
import EightBit.Proofs.Machine.Keeping
import EightBit.Proofs.Machine.Split

/-!
# Reloading in the Middle of an Instruction

An observer may put another program into the machine while an instruction is under way. This resets the
processor at once and asks the run to stop, so the run ends behind the instruction. But the instruction is
completed first, and it does to the processor that was reset what it still had to do to the one before: it
moves the instruction pointer, it takes its byte off the stack pointer, it is counted. When the run returns,
the processor is therefore never as a reset leaves it, and the next run does not begin at the first byte of
the new program.

## Main Definitions

- `Reload`: the controls that reload.
- `Env.Reloads`: observers keep notes and may reload.
- `Rebooted`: the processor was reset and has gone on to these registers.
- `Aftermath`: the registers that an instruction leaves behind after a reload.

## Main Statements

- `ensures_reload`: a reload leaves a processor that was reset, and a run that was asked to stop.
- `ensures_execute_told`: the instruction goes on with it.
- `run_reloaded`: so a run that was reloaded leaves a processor that has gone on.
-/

namespace EightBit

/-! ## Reloads -/

/-- A control that puts a program in place of the one that is loaded, or clears the machine. -/
inductive Reload
  | assemble (limit : DigitLimit) (source : List Char)
  | binary (code : List UInt8)
  | reset
  deriving DecidableEq, Repr

namespace Reload

/-- What the control does. -/
def perform {σ : Type} (env : Env σ) : Reload → Action σ Unit
  | .assemble limit source => discard (Machine.assemble limit source)
  | .binary code => Machine.loadBinary code
  | .reset => Machine.reset env

/-- The source assembles, and the code fits. -/
def Accepted : Reload → Prop
  | .assemble limit source => ∃ program, assembleText limit source = .ok program
  | .binary code => code.length ≤ programLimit
  | .reset => True

end Reload

/-- **Observers keep notes and may reload**, any number of times. A reset tells those of the display region
in turn, so they can be nested; the number says how deeply. -/
def Env.Reloads {σ : Type} : Nat → Env σ → Prop
  | 0, env => ∀ hook notice m, ∃ notes, env.notify hook notice m = .ok () { m with notes }
  | depth + 1, env => ∀ hook notice m, ∃ (notes : σ) (inner : Env σ)
      (reloads : List { reload : Reload // reload.Accepted }), Env.Reloads depth inner ∧
        env.notify hook notice m = reloads.forM (fun reload => reload.1.perform inner) { m with notes }

namespace Machine

variable {σ α : Type}

/-! ## Processors that were reset -/

/-- A run goes on, and nobody has asked it to stop. -/
structure Undisturbed (m : Machine σ) : Prop where
  running : m.control.running = true
  free : m.control.stepMode = false
  calm : m.control.stopRequested = false

/-- The processor was reset and has gone on to these registers, and the run was asked to stop. -/
structure Rebooted (regs : Registers) (m : Machine σ) : Prop where
  cpu : m.cpu = { m.cpu.reset with regs }
  running : m.control.running = true
  requested : m.control.stopRequested = true

/-- Observers have been told of something: either no reload has come of it, or the processor has gone on to
these registers since. -/
def Told (regs : Registers) (m : Machine σ) : Prop :=
  Undisturbed m ∨ Rebooted regs m

theorem aloof_undisturbed : Aloof (Undisturbed : Machine σ → Prop) where
  keeps := fun _ _ _ _ _ _ undisturbed =>
    ⟨undisturbed.running, undisturbed.free, undisturbed.calm⟩

/-- What instructions do by themselves does not disturb a run. -/
theorem Local.undisturbed {action : Action σ α} (acts : Local action) :
    Ensures Undisturbed action (fun _ => Undisturbed) fun _ => Undisturbed :=
  (aloof_undisturbed.of_local acts).ensures

/-- A change that the run and the processor have nothing to do with. -/
structure Besides (f : Machine σ → Machine σ) : Prop where
  cpu : ∀ m, (f m).cpu = m.cpu := by intro m; rfl
  running : ∀ m, (f m).control.running = m.control.running := by intro m; rfl
  free : ∀ m, (f m).control.stepMode = m.control.stepMode := by intro m; rfl
  requested : ∀ m, (f m).control.stopRequested = m.control.stopRequested := by intro m; rfl

theorem Rebooted.change {regs : Registers} {m : Machine σ} (rebooted : Rebooted regs m)
    {f : Machine σ → Machine σ} (besides : Besides f) : Rebooted regs (f m) where
  cpu := by
    rw [besides.cpu]
    exact rebooted.cpu
  running := (besides.running m).trans rebooted.running
  requested := (besides.requested m).trans rebooted.requested

theorem Rebooted.regs_eq {regs : Registers} {m : Machine σ} (rebooted : Rebooted regs m) :
    m.cpu.regs = regs := by
  rw [rebooted.cpu]

theorem Told.change {regs : Registers} {m : Machine σ} (told : Told regs m)
    {f : Machine σ → Machine σ} (besides : Besides f) : Told regs (f m) := by
  rcases told with undisturbed | rebooted
  · exact .inl ⟨(besides.running m).trans undisturbed.running,
      (besides.free m).trans undisturbed.free, (besides.requested m).trans undisturbed.calm⟩
  · exact .inr (rebooted.change besides)

theorem Told.running {regs : Registers} {m : Machine σ} (told : Told regs m) :
    m.control.running = true := by
  rcases told with undisturbed | rebooted
  · exact undisturbed.running
  · exact rebooted.running

/-- An observer does not fail, and if it reloads then the processor is reset. A processor that was reset
stays so. -/
structure Tells (action : Action σ Unit) : Prop where
  told : Ensures (Told {}) action (fun _ => Told {}) fun _ _ => False
  rebooted : Ensures (Rebooted {}) action (fun _ => Rebooted {}) fun _ _ => False

theorem Tells.modify {f : Machine σ → Machine σ} (besides : Besides f) :
    Tells (modify f : Action σ Unit) where
  told := .modify fun _ told => told.change besides
  rebooted := .modify fun _ rebooted => rebooted.change besides

theorem Tells.bind {first : Action σ Unit} {next : Unit → Action σ Unit} (before : Tells first)
    (behind : ∀ done, Tells (next done)) : Tells (first >>= next) where
  told := before.told.bind fun done => (behind done).told
  rebooted := before.rebooted.bind fun done => (behind done).rebooted

theorem Tells.get {next : Machine σ → Action σ Unit} (behind : ∀ m, Tells (next m)) :
    Tells (get >>= next) where
  told := fun m => (behind m).told m
  rebooted := fun m => (behind m).rebooted m

theorem Tells.pure : Tells (pure () : Action σ Unit) where
  told := .pure fun _ told => told
  rebooted := .pure fun _ rebooted => rebooted

theorem Tells.forM {items : List α} {act : α → Action σ PUnit} (each : ∀ item, Tells (act item)) :
    Tells (items.forM act) where
  told := .forM fun item => (each item).told
  rebooted := .forM fun item => (each item).rebooted

/-- What is done may depend on the machine. -/
theorem Tells.of_eq {action : Action σ Unit}
    (acts : ∀ m, ∃ f rest, Besides f ∧ Tells rest ∧ action m = rest (f m)) : Tells action where
  told := fun m told => by
    obtain ⟨f, rest, besides, tells, same⟩ := acts m
    rw [same]
    exact tells.told _ (told.change besides)
  rebooted := fun m rebooted => by
    obtain ⟨f, rest, besides, tells, same⟩ := acts m
    rw [same]
    exact tells.rebooted _ (rebooted.change besides)

theorem tells_record (level : Journal.Level) (part : Journal.Part) (text : String) :
    Tells (record level part text : Action σ Unit) :=
  .modify {}

theorem tells_modifyDevices (f : Devices → Devices) : Tells (modifyDevices f : Action σ Unit) :=
  .modify {}

section Listeners

variable {env : Env σ} (notify : ∀ hook notice, Tells (env.notify hook notice))
include notify

theorem tells_tellListeners (address : Int) (value : UInt8) :
    Tells (tellListeners env address value) := by
  refine .get fun m => .forM fun listener => ?_
  cases listener with
  | display => exact .modify {}
  | hook hook => exact notify hook _

theorem tells_resetMemory : Tells (resetMemory env) :=
  .bind (.modify {}) fun _ => .get fun _ => .forM fun _ =>
    .bind (.modify {}) fun _ => tells_tellListeners notify _ _

end Listeners

/-! ## What a reload does -/

/-- A run was asked to stop. -/
def Stopping (m : Machine σ) : Prop :=
  m.control.running = true ∧ m.control.stopRequested = true

theorem ensures_requestStop {E : Failure → Machine σ → Prop} :
    Ensures (fun m => m.control.running = true) (requestStop : Action σ Unit) (fun _ => Stopping) E := by
  refine .get fun m running => ?_
  rw [if_pos running]
  exact .of_eq (P := fun now => now.control.running = true) running
    (.bind (Q := fun _ => Stopping) (.modify fun _ running => ⟨running, rfl⟩) fun _ =>
      .modify fun _ stopping => stopping)

theorem ensures_loadProgram {code : List UInt8} (fits : code.length ≤ programLimit)
    {E : Failure → Machine σ → Prop} :
    Ensures Stopping (loadProgram code : Action σ Unit) (fun _ => Stopping) E := by
  unfold loadProgram
  rw [if_neg (Nat.not_lt.2 fits)]
  exact .bind (Q := fun _ => Stopping) (.modify fun _ stopping => ⟨stopping.1, stopping.2⟩) fun _ =>
    .modify fun _ stopping => ⟨stopping.1, stopping.2⟩

theorem ensures_resetProcessor {E : Failure → Machine σ → Prop} :
    Ensures Stopping (resetProcessor : Action σ Unit) (fun _ => Rebooted {}) E :=
  .modify fun _ stopping => ⟨rfl, stopping.1, stopping.2⟩

/-- What follows a reset of the processor leaves it alone. -/
theorem ensures_cleared {next : Action σ Unit} (rest : Tells next) :
    Ensures (fun m => m.control.running = true) (do
      requestStop
      resetProcessor
      next) (fun _ => Rebooted {}) fun _ _ => False :=
  ensures_requestStop.bind fun _ => ensures_resetProcessor.bind fun _ => rest.rebooted

theorem ensures_loaded {code : List UInt8} (fits : code.length ≤ programLimit)
    {next : Action σ Unit} (rest : Tells next) :
    Ensures (fun m => m.control.running = true) (do
      requestStop
      loadProgram code
      resetProcessor
      next) (fun _ => Rebooted {}) fun _ _ => False :=
  ensures_requestStop.bind fun _ => (ensures_loadProgram fits).bind fun _ =>
    ensures_resetProcessor.bind fun _ => rest.rebooted

section Reload

variable {inner : Env σ} (notify : ∀ hook notice, Tells (inner.notify hook notice))
include notify

/-- **A reload resets the processor** and asks the run to stop. Nothing fails. -/
theorem ensures_reload {reload : Reload} (accepted : reload.Accepted) :
    Ensures (fun m => m.control.running = true) (reload.perform inner) (fun _ => Rebooted {})
      fun _ _ => False := by
  -- each way to reload begins with a load that resets the processor while the run goes on
  cases reload with
  | assemble limit source =>
    obtain ⟨program, assembled⟩ := accepted
    show Ensures _ (assemble limit source >>= fun _ => pure ()) _ _
    rw [assemble, assembled]
    refine .bind (Q := fun _ => Rebooted {}) ?_ fun _ => .pure fun _ rebooted => rebooted
    refine .bind (Q := fun _ m => m.control.running = true) (.modify fun _ running => running)
      fun _ => .bind (Q := fun _ => Rebooted {}) ?_ fun _ => .pure fun _ rebooted => rebooted
    exact ensures_loaded (length_code_le assembled) <|
      .bind (.modify {}) fun _ => tells_record _ _ _
  | binary code =>
    exact ensures_loaded accepted (.modify {})
  | reset =>
    exact ensures_cleared <| .bind (tells_resetMemory notify) fun _ =>
      .bind (tells_modifyDevices _) fun _ => .modify {}

/-- Reloads one after the other. -/
theorem tells_reloads (reloads : List { reload : Reload // reload.Accepted }) :
    Tells (reloads.forM fun reload => reload.1.perform inner) :=
  .forM fun reload =>
    have done := ensures_reload notify reload.2
    { told := done.mono (fun _ told => told.running) (fun _ _ rebooted => .inr rebooted)
        fun _ _ failed => failed
      rebooted := done.mono (fun _ rebooted => rebooted.running) (fun _ _ rebooted => rebooted)
        fun _ _ failed => failed }

end Reload

/-- Notes have nothing to do with the run and the processor. -/
theorem besides_notes (notes : σ) : Besides fun m : Machine σ => { m with notes } :=
  {}

/-- **Observers that may reload** do nothing else to the processor and to the run. -/
theorem tells_of_reloads {depth : Nat} {env : Env σ} (reloads : env.Reloads depth) (hook : Hook)
    (notice : Notice) : Tells (env.notify hook notice) := by
  -- on the depth: a reset tells the observers of the depth below
  induction depth generalizing env hook notice with
  | zero =>
    refine .of_eq fun m => ?_
    obtain ⟨notes, acts⟩ := reloads hook notice m
    exact ⟨_, pure (), besides_notes notes, .pure, acts⟩
  | succ depth ih =>
    refine .of_eq fun m => ?_
    obtain ⟨notes, inner, due, below, acts⟩ := reloads hook notice m
    exact ⟨_, _, besides_notes notes, tells_reloads (ih below) due, acts⟩

/-! ## Stores and ports -/

section Told

variable {env : Env σ} (notify : ∀ hook notice, Tells (env.notify hook notice))
include notify

/-- A store tells its observers once it has found its address. -/
theorem ensures_store_told (address value : Int) :
    Ensures Undisturbed (store env address value) (fun _ => Told {}) fun _ => Undisturbed := by
  -- up to the load nobody has been told, so nothing has been reloaded
  refine (local_load address).undisturbed.bind fun old => ?_
  have writes : Tells (do
      modify fun m => { m with memory := m.memory.write address.toNat (Bits.toByte value) }
      ((← get).observers.watching address).forM fun hook =>
        env.notify hook (.watch address old (Bits.toByte value))
      if displayStart ≤ address ∧ address ≤ displayEnd then
        tellListeners env address (Bits.toByte value)) := by
    refine .bind (.modify {}) fun _ =>
      .get fun m => .bind (.forM fun hook => notify hook _) fun _ => ?_
    split
    · exact tells_tellListeners notify _ _
    · exact .pure
  exact writes.told.mono (fun _ undisturbed => .inl undisturbed) (fun _ _ told => told)
    fun _ _ failed => failed.elim

/-- Writing a port never fails. -/
theorem tells_writePort (port value : Int) : Tells (writePort env port value) := by
  refine .get fun m => .bind ?_ fun _ => .get fun now => .forM fun hook => notify hook _
  -- the device first, then the observers of the port, and each of them may reload
  cases m.bus.writer? port with
  | none => exact tells_record _ _ _
  | some writer =>
    cases writer with
    | heater => exact .bind (tells_modifyDevices _) fun _ => tells_record _ _ _
    | hook hook => exact notify hook _
    | lights =>
      refine .get fun m => .bind (tells_modifyDevices _) fun _ => ?_
      split
      · exact .get fun now => .forM fun hook => .get fun _ => notify hook _
      · exact .pure

end Told

/-! ## Instructions -/

/-- **The registers that an instruction leaves behind** if the processor was reset while it was under way.
Where a call goes was settled before that, with other registers and another memory. -/
inductive Aftermath (regs : Registers) (memory : Memory) : Instr → Registers → Prop
  | output : Aftermath regs memory .output { ip := 1 }
  | move {form} : Aftermath regs memory (.move form) { ip := 1 }
  | push {right} : Aftermath regs memory (.push right) { ip := 1, sp := stackTop - 1 }
  | pushFlags : Aftermath regs memory .pushFlags { ip := 1, sp := stackTop - 1 }
  | call {destination target} (operand : Values regs memory (.call destination) 0 target) :
    Aftermath regs memory (.call destination) { ip := target.toNat, sp := stackTop - 1 }

/-- An instruction has been executed on a machine: nobody has reloaded, or it has gone on after that. -/
def Left (m : Machine σ) (instr : Instr) (now : Machine σ) : Prop :=
  Undisturbed now ∨ ∃ regs, Aftermath m.cpu.regs m.memory instr regs ∧ Rebooted regs now

theorem Told.left {m now : Machine σ} {instr : Instr} {regs : Registers} (told : Told regs now)
    (aftermath : Aftermath m.cpu.regs m.memory instr regs) : Left m instr now :=
  told.imp_right fun rebooted => ⟨regs, aftermath, rebooted⟩

/-- What an instruction still has to do, it does to the processor that was reset. -/
theorem ensures_modifyRegs_told {regs : Registers} (f : Registers → Registers)
    {E : Failure → Machine σ → Prop} :
    Ensures (Told regs) (modifyRegs f : Action σ Unit) (fun _ => Told (f regs)) E := by
  refine .modify fun m told => ?_
  rcases told with undisturbed | rebooted
  · exact .inl ⟨undisturbed.running, undisturbed.free, undisturbed.calm⟩
  · refine .inr ⟨?_, rebooted.running, rebooted.requested⟩
    have was := rebooted.cpu
    show { m.cpu with regs := f m.cpu.regs } = { m.cpu.reset with regs := f regs }
    rw [was]
    rfl

/-- What follows may use the registers as they are. -/
theorem Ensures.getRegs {P : Machine σ → Prop} {next : Registers → Action σ α}
    {Q : α → Machine σ → Prop} {E : Failure → Machine σ → Prop}
    (behind : ∀ m, P m → Ensures (fun now => now = m) (next m.cpu.regs) Q E) :
    Ensures P (getRegs >>= next) Q E :=
  fun m holds => behind m holds m rfl

/-- What has succeeded has run. -/
theorem Ensures.ran {P : Machine σ → Prop} {action : Action σ α} {Q : α → Machine σ → Prop}
    {E : Failure → Machine σ → Prop} (ensures : Ensures P action Q E) :
    Ensures P action (fun a after => Q a after ∧ ∃ m, P m ∧ action m = .ok a after) E := by
  intro m holds
  have done := ensures m holds
  cases ran : action m with
  | ok a after =>
    rw [ran] at done
    exact ⟨done, m, holds, ran⟩
  | error failure after =>
    rw [ran] at done
    exact done

section Execute

variable {env : Env σ} (notify : ∀ hook notice, Tells (env.notify hook notice))
include notify

/-- A stack pointer that was reset has room. -/
theorem ensures_push_told (value : Int) :
    Ensures Undisturbed (push env value) (fun _ => Told { sp := stackTop - 1 })
      fun _ => Undisturbed := by
  refine local_getRegs.undisturbed.bind fun regs => (ensures_store_told notify regs.sp value).bind
    fun _ => (ensures_modifyRegs_told _).bind fun _ => .getRegs fun m told => ?_
  -- the store came first, so the bound is checked against a pointer that may have been reset
  split
  · next low =>
    refine .throw fun now same => ?_
    rw [same]
    rcases told with undisturbed | rebooted
    · exact undisturbed
    · rw [rebooted.regs_eq] at low
      exact absurd low (by decide)
  · exact .pure fun now same => same ▸ told

theorem ensures_writeOperand_told (shape : Shape) (code value : UInt8) :
    Ensures Undisturbed (writeOperand env shape code value) (fun _ => Told {})
      fun _ => Undisturbed := by
  -- only operands in memory are stored to
  have untold {action : Action σ Unit} (acts : Local action) :
      Ensures Undisturbed action (fun _ => Told {}) fun _ => Undisturbed :=
    acts.undisturbed.mono (fun _ undisturbed => undisturbed) (fun _ _ undisturbed => .inl undisturbed)
      fun _ _ failed => failed
  cases shape with
  | register => exact untold (.bind (local_register _) fun _ => local_modifyRegs _)
  | address => exact ensures_store_told notify _ _
  | indirect => exact local_getRegs.undisturbed.bind fun _ => ensures_store_told notify _ _
  | stackOffset => exact local_getRegs.undisturbed.bind fun _ => ensures_store_told notify _ _
  | immediate => exact untold (.pure _)
  | target => exact untold (.pure _)
  | label => exact untold (.pure _)
  | text => exact untold (.pure _)

variable {m : Machine σ} (undisturbed : Undisturbed m)
include undisturbed

/-- The return address is pushed once it is known where to go. -/
theorem ensures_call_told (destination : Destination) :
    Ensures (fun now => now = m) (call env destination) (fun _ => Left m (.call destination))
      fun _ => Undisturbed := by
  let Fetched (code : UInt8) (now : Machine σ) :=
    Undisturbed now ∧ m.memory.load (m.cpu.regs.ip + (0 + 1 : Nat)) = .ok code ∧ Ahead m 1 now
  let Found (target : UInt8) (now : Machine σ) :=
    Undisturbed now ∧ Values m.cpu.regs m.memory (.call destination) 0 target
  -- the destination is read before anybody is told, so a reset comes too late to change it
  refine .bind (Q := Fetched) ?_ fun code => .bind (Q := Found) ?_ fun target => ?_
  · refine (Ensures.of_eq undisturbed local_fetch.undisturbed).ran.mono (fun _ same => same) ?_
      fun _ _ failed => failed
    rintro code now ⟨kept, _, rfl, ran⟩
    exact ⟨kept, (Ahead.start _).fetch ran⟩
  · have reads : Ensures (Fetched code) (readOperand destination.shape code)
        (fun _ => Undisturbed) fun _ => Undisturbed :=
      (local_readOperand _ _).undisturbed.mono (fun _ fetched => fetched.1)
        (fun _ _ kept => kept) fun _ _ failed => failed
    refine reads.ran.mono (fun _ fetched => fetched) ?_ fun _ _ failed => failed
    rintro target now ⟨kept, before, ⟨-, loaded, ahead⟩, ran⟩
    exact ⟨kept, destination.shape, code, ⟨rfl, loaded⟩, (ahead.operand ran).1⟩
  · intro now found
    have pushes : Ensures Undisturbed (do
        push env ((← getRegs).ip + 1)
        goto target) (fun _ => Told { ip := target.toNat, sp := stackTop - 1 }) fun _ => Undisturbed :=
      local_getRegs.undisturbed.bind fun regs => (ensures_push_told notify _).bind fun _ =>
        ensures_modifyRegs_told _
    exact pushes.mono (fun _ kept => kept) (fun _ _ told => told.left (.call found.2))
      (fun _ _ failed => failed) now found.1

/-- **An instruction goes on after a reload.** It may be that nobody has reloaded. -/
theorem ensures_execute_told (answer : ∀ hook port, Private (env.answer hook port)) (instr : Instr) :
    Ensures (fun now => now = m) (execute env instr) (fun _ => Left m instr)
      fun _ => Undisturbed := by
  have alone {action : Action σ Unit} (keeps : Keeps Undisturbed action) :
      Ensures (fun now => now = m) action (fun _ => Left m instr) fun _ => Undisturbed :=
    keeps.ensures.mono (fun _ same => same ▸ undisturbed) (fun _ _ kept => .inl kept)
      fun _ _ failed => failed
  have within {action : Action σ Unit} (acts : Local action) :
      Ensures (fun now => now = m) action (fun _ => Left m instr) fun _ => Undisturbed :=
    alone (aloof_undisturbed.of_local acts)
  have leaves (regs : Registers) {action : Action σ Unit}
      (told : Ensures Undisturbed action (fun _ => Told regs) fun _ => Undisturbed)
      (aftermath : Aftermath m.cpu.regs m.memory instr regs) :
      Ensures (fun now => now = m) action (fun _ => Left m instr) fun _ => Undisturbed :=
    told.mono (fun _ same => same ▸ undisturbed) (fun _ _ told => told.left aftermath)
      fun _ _ failed => failed
  -- only stores and outputs tell anybody; every other instruction leaves the run as it is
  cases instr with
  | move form =>
    refine leaves { ip := 1 } ?_ .move
    exact local_fetch.undisturbed.bind fun _ => local_fetch.undisturbed.bind fun _ =>
      (local_readOperand _ _).undisturbed.bind fun _ =>
        (ensures_writeOperand_told notify _ _ _).bind fun _ => ensures_modifyRegs_told _
  | push right =>
    refine leaves { ip := 1, sp := stackTop - 1 } ?_ .push
    exact local_fetch.undisturbed.bind fun _ => (local_readOperand _ _).undisturbed.bind fun _ =>
      (ensures_push_told notify _).bind fun _ => ensures_modifyRegs_told _
  | pushFlags =>
    refine leaves { ip := 1, sp := stackTop - 1 } ?_ .pushFlags
    exact local_getRegs.undisturbed.bind fun _ => (ensures_push_told notify _).bind fun _ =>
      ensures_modifyRegs_told _
  | call destination => exact ensures_call_told notify undisturbed destination
  | output =>
    refine leaves { ip := 1 } ?_ .output
    have writes (port value : Int) : Ensures Undisturbed (writePort env port value)
        (fun _ => Told {}) fun _ => Undisturbed :=
      (tells_writePort notify port value).told.mono (fun _ kept => .inl kept)
        (fun _ _ told => told) fun _ _ failed => failed.elim
    exact local_fetch.undisturbed.bind fun _ => local_getRegs.undisturbed.bind fun _ =>
      (writes _ _).bind fun _ => ensures_modifyRegs_told _
  | halt => exact alone aloof_undisturbed.halt
  | input =>
    exact alone (aloof_undisturbed.input fun hook port => aloof_undisturbed.of_private (answer hook port))
  | binary op right => exact within (local_binary op right)
  | unary op => exact within (local_unary op)
  | compare right => exact within (local_compare right)
  | jump condition destination => exact within (local_jump condition destination)
  | pop => exact within local_popRegister
  | popFlags => exact within local_popStatus
  | ret => exact within local_ret
  | shift direction right => exact within (local_shift direction right)

end Execute

/-! ## Steps -/

/-- **An instruction has overrun a reset**: it was at the instruction pointer of a machine, the processor was
reset while it was under way, and it has been completed on that. -/
structure Overrun (last : Machine σ) (instr : Instr) (regs : Registers) (cpu : Processor) : Prop where
  ready : last.cpu.mode = .ready
  fetches : Fetches last.cpu.regs last.memory instr
  aftermath : Aftermath last.cpu.regs last.memory instr regs
  cpu_eq : cpu = { cpu.reset with regs, instructions := 1 }

/-- No flag has been set since the reset. -/
theorem Aftermath.sr_eq {before regs : Registers} {memory : Memory} {instr : Instr}
    (aftermath : Aftermath before memory instr regs) : regs.sr = 0 := by
  cases aftermath <;> rfl

/-- The instruction is counted, and nothing else. -/
theorem Rebooted.complete {regs : Registers} {m : Machine σ} (rebooted : Rebooted regs m)
    (noFlags : regs.sr = 0) (ip : Int) :
    complete ip m = .ok () { m with cpu := { m.cpu with instructions := m.cpu.instructions + 1 } } := by
  show (if Status.fault m.cpu.regs.sr then _ else _ : Action σ Unit) _ = _
  rw [rebooted.regs_eq, noFlags]
  rfl

/-- A step leaves the run as it is, unless it is one in which the machine was reloaded. -/
def Stepped (m after : Machine σ) : Prop :=
  Undisturbed after ∨
    after.control.stopRequested = true ∧ ∃ instr regs, Overrun m instr regs after.cpu

section Step

variable {env : Env σ} (notify : ∀ hook notice, Tells (env.notify hook notice))
  (answer : ∀ hook port, Private (env.answer hook port))
include notify answer

/-- The work of a step is to find the instruction and to execute it. -/
theorem ensures_work_told {m : Machine σ} (undisturbed : Undisturbed m) :
    Ensures (fun now => now = m) (work env m.cpu.regs.ip)
      (fun _ now => ∃ instr, Fetches m.cpu.regs m.memory instr ∧ Left m instr now)
      fun _ => Undisturbed := by
  -- what is fetched is fetched before anybody is told
  intro now same
  subst same
  cases found : fetchInstr now.cpu.regs.ip now with
  | error failure stopped =>
    have kept := (local_fetchInstr now.cpu.regs.ip).undisturbed now undisturbed
    rw [found] at kept
    have failed : work env now.cpu.regs.ip now = .error failure stopped := bind_of_error found
    rw [failed]
    exact kept
  | ok instr again =>
    obtain ⟨fetches, rfl⟩ := fetches_of_fetchInstr found
    rw [work_of_fetches fetches]
    have kept := aloof_undisturbed.keeps again (again.cpu.traced instr) again.devices again.operator
      again.journal again.notes undisturbed
    refine (ensures_execute_told notify kept answer instr).mono (fun _ same => same)
      (fun _ now left => ⟨instr, fetches, ?_⟩) (fun _ _ failed => failed) _ rfl
    simpa only [Left, Processor.regs_traced] using left

/-- **A step goes on after a reload**, and is completed. -/
theorem ensures_step_told {m : Machine σ} (undisturbed : Undisturbed m) :
    Ensures (fun now => now = m) (step env) (fun _ => Stepped m) fun _ => Undisturbed := by
  have alone {action : Action σ Unit} (keeps : Keeps Undisturbed action) :
      Ensures Undisturbed action (fun _ => Stepped m) fun _ => Undisturbed :=
    keeps.ensures.mono (fun _ kept => kept) (fun _ _ kept => .inl kept) fun _ _ failed => failed
  cases mode : m.cpu.mode with
  | halted =>
    intro now same
    rw [same, step_of_halted mode]
    exact .inl undisturbed
  | faulted =>
    refine .congr (fun now same => ?_) (.of_eq undisturbed (alone aloof_undisturbed.refault))
    rw [same, step_eq_refault mode]
  | ready =>
    have works : ∀ now, now = m →
        step env now = guarded m.cpu.regs.ip (work env m.cpu.regs.ip) now := by
      rintro _ rfl
      exact step_of_ready mode
    refine .congr works (.bind (.tryCatch (ensures_work_told notify answer undisturbed) ?_) ?_)
    · -- whatever has failed, nobody had reloaded
      intro failure now kept
      have held := (aloof_undisturbed.recover m.cpu.regs.ip failure).ensures now kept
      obtain ⟨final, after, recovered⟩ := recover_error m.cpu.regs.ip failure now
      rw [recovered] at held ⊢
      exact held
    · rintro _ now ⟨instr, fetches, kept | ⟨regs, aftermath, rebooted⟩⟩
      · exact alone (aloof_undisturbed.complete _) now kept
      · rw [rebooted.complete aftermath.sr_eq]
        refine .inr ⟨rebooted.requested, instr, regs, mode, fetches, aftermath, ?_⟩
        show { now.cpu with instructions := now.cpu.instructions + 1 } = _
        rw [rebooted.cpu]
        rfl

end Step

/-! ## Runs -/

/-- A run that was asked to stop does so before its next instruction. -/
theorem turn_of_requested {env : Env σ} {limit : Option Nat} {steps : Nat} {m : Machine σ}
    (requested : m.control.stopRequested = true) :
    turn env limit steps m = .ok (.finish .stopped) m := by
  rw [turn, get_bind, checks?, if_pos requested]
  rfl

section Run

variable {env : Env σ} {limit : Option Nat} (notify : ∀ hook notice, Tells (env.notify hook notice))
  (answer : ∀ hook port, Private (env.answer hook port))
include notify answer

/-- **The rounds of a run end with the instruction that was reloaded**, if there is one. -/
theorem Loop.overrun {count steps : Nat} {m ended : Machine σ} {reason : StopReason}
    (loop : Loop env limit count steps m reason ended) (undisturbed : Undisturbed m) :
    Undisturbed ended ∨ reason = .stopped ∧ ∃ done last instr regs, Walks env done m last ∧
      Overrun last instr regs ended.cpu := by
  induction loop with
  | @finish steps m reason ended last =>
    have stepped := ensures_step_told notify answer undisturbed m rfl
    refine .inl ?_
    cases (turn_finish_iff undisturbed.free).1 last with
    | check met => exact undisturbed
    | @fault fault now clear failed =>
      rw [failed] at stepped
      exact aloof_undisturbed.keeps now _ _ _ _ _ stepped
    | aborted clear failed =>
      rw [failed] at stepped
      exact stepped
  | @next count steps m now reason ended first rest ih =>
    have stepped := ensures_step_told notify answer undisturbed m rfl
    obtain ⟨clear, completed⟩ := (turn_next_iff undisturbed.free).1 first
    rw [completed] at stepped
    rcases stepped with kept | ⟨requested, instr, regs, overrun⟩
    · refine (ih kept).imp_right ?_
      rintro ⟨stopped, done, last, instr, regs, walks, overrun⟩
      exact ⟨stopped, done + 1, last, instr, regs, ⟨now, completed, walks⟩, overrun⟩
    · -- the next round finds the request, so it is the last one
      have turned : turn env limit (steps + 1) now = .ok (.finish .stopped) now :=
        turn_of_requested requested
      cases rest with
      | finish last =>
        rw [turned] at last
        cases last
        exact .inr ⟨rfl, 0, m, instr, regs, rfl, overrun⟩
      | next again further =>
        rw [turned] at again
        cases again

end Run

/-- **A run that was reloaded leaves a processor that has gone on.** If an observer reloads while a run
executes an instruction, then the run ends with that instruction, because it was asked to stop. The processor
it leaves is not the one that was reset: the instruction has moved its instruction pointer, it may have taken
a byte off its stack pointer, and it has been counted. -/
theorem run_reloaded {env : Env σ} {depth : Nat} (reloads : env.Reloads depth)
    (answer : ∀ hook port, Private (env.answer hook port)) {patience : Nat} {limit : Option Nat}
    {m after : Machine σ} {reason : StopReason} (idle : m.control.running = false)
    (free : m.control.stepMode = false)
    (ran : run env patience limit m = .ok (.done reason) after)
    (reloaded : after.control.stopRequested = true) :
    reason = .stopped ∧ after.cpu ≠ after.cpu.reset ∧ ∃ count last instr regs,
      Walks env count (begun m) last ∧ Overrun last instr regs after.cpu := by
  -- the loop has ended, and behind it nothing is done to the processor
  obtain ⟨count, -, ended, loop, concludes⟩ := (run_done_iff idle).1 ran
  obtain ⟨sameCpu, sameControl⟩ := same_of_conclude concludes
  -- if anything was reloaded, then in the last step, which was counted behind the reset
  rcases loop.overrun (tells_of_reloads reloads) answer ⟨rfl, free, rfl⟩ with
    undisturbed | ⟨stopped, done, last, instr, regs, walks, overrun⟩
  · rw [sameControl] at reloaded
    rw [undisturbed.calm] at reloaded
    cases reloaded
  · rw [← sameCpu] at overrun
    -- a processor that was reset has counted nothing
    refine ⟨stopped, fun same => ?_, done, last, instr, regs, walks, overrun⟩
    have counted : after.cpu.instructions = 1 := by rw [overrun.cpu_eq]
    rw [same] at counted
    cases counted

/-- Other code: a number is moved into a register, and the machine halts. -/
def otherCode : List UInt8 :=
  [(Instr.move .registerImmediate).opcode, 0, 255, Instr.halt.opcode].map UInt8.ofNat

/-- Observers load the other code. -/
def reloading : Env Nat where
  notify := fun _ _ => loadBinary otherCode
  answer := fun _ _ => pure 0

/-- An observer follows a port, and the program writes it. -/
def writingPort : Machine Nat :=
  { memory := beginning [Instr.output.opcode, 9, Instr.halt.opcode]
    observers := { writeTaps := [(9, 0)] }
    notes := 0 }

theorem reloads_reloading : reloading.Reloads 1 := by
  intro hook notice m
  have fits : (Reload.binary otherCode).Accepted := show otherCode.length ≤ programLimit by decide
  refine ⟨m.notes, counting, [⟨_, fits⟩], fun _ _ m => ⟨m.notes + 1, rfl⟩, ?_⟩
  exact (congrFun bind_pure_unit m).symm

/-- The instruction that writes the port goes on after the reload. -/
theorem run_reloaded_at_port :
    ∃ after, reloading.Reloads 1 ∧ (∀ hook port, Private (reloading.answer hook port)) ∧
      writingPort.control.running = false ∧ writingPort.control.stepMode = false ∧
      run reloading 0 (some 9) writingPort = .ok (.done .stopped) after ∧
      after.control.stopRequested = true ∧ StopReason.stopped = .stopped ∧
      after.cpu ≠ after.cpu.reset ∧ ∃ count last instr regs,
        Walks reloading count (begun writingPort) last ∧ Overrun last instr regs after.cpu := by
  obtain ⟨after, ran, checked⟩ := exists_of_comesTo reloading 0 (some 9) writingPort
    (.done .stopped) (fun after => after.control.stopRequested) (by decide +kernel)
  have answer : ∀ hook port, Private (reloading.answer hook port) :=
    fun _ _ => ⟨fun notes => (.ok 0, notes), fun _ => rfl⟩
  exact ⟨after, reloads_reloading, answer, rfl, rfl, ran, checked,
    run_reloaded reloads_reloading answer rfl rfl ran checked⟩

/-- **A reload in a run is not a clean start**: the code is in place, but the next run would begin with its
second byte, and an instruction has been counted. -/
theorem exists_reload_not_reset :
    ∃ after, reloading.Reloads 1 ∧ writingPort.control.running = false ∧
      run reloading 0 (some 9) writingPort = .ok (.done .stopped) after ∧
      after.memory.snapshot.take otherCode.length = otherCode ∧
      after.cpu.regs.ip = 1 ∧ after.cpu.instructions = 1 ∧ after.cpu ≠ after.cpu.reset := by
  obtain ⟨after, ran, checked⟩ := exists_of_comesTo reloading 0 (some 9) writingPort
    (.done .stopped) (fun after => decide (after.memory.snapshot.take otherCode.length = otherCode ∧
      after.cpu.regs.ip = 1 ∧ after.cpu.instructions = 1)) (by decide +kernel)
  obtain ⟨placed, elsewhere, counted⟩ := of_decide_eq_true checked
  refine ⟨after, reloads_reloading, rfl, ran, placed, elsewhere, counted, fun same => ?_⟩
  rw [same] at counted
  cases counted

end Machine

end EightBit
