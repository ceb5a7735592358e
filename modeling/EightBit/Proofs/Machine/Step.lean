import EightBit.Proofs.Machine.Execution

/-!
# One Step by the Rules

A step of a ready processor finds an instruction and executes it by its rule, or it stops. What
stopped it becomes a fault, unless it was a keyboard read that is to be tried again.

## Main Definitions

- `Fetches`: the instruction at the instruction pointer.
- `Stops`: a step that is not completed, up to the point where it fails.
- `Recovers`: what becomes of the failure.
- `Completes`, `Fails`: the two outcomes of a step.
- `yields`: an action of a given machine, as a check that can be run.
- `leadsTo`, `failsWith`, `faultsWith`: the same for one step.

## Main Statements

- `step_completes`, `step_fails`: there are no other outcomes.
- `step_executes`: a completed step has executed the instruction that was there.
-/

namespace EightBit

/-! ## The processor around an instruction -/

namespace Processor

/-- The processor with an instruction in its trace, if it keeps one. -/
def traced (cpu : Processor) (instr : Instr) : Processor :=
  if cpu.tracing then
    { cpu with trace := cpu.trace.push ⟨cpu.regs.ip, instr, cpu.regs⟩ }
  else cpu

/-- The processor after a completed instruction, which may have raised the fault flag. -/
def counted (cpu : Processor) (ip : Int) : Processor :=
  if Status.fault cpu.regs.sr then
    { cpu with
      instructions := cpu.instructions + 1
      mode := .faulted
      lastFault := some ⟨.flagRestored, ip⟩ }
  else { cpu with instructions := cpu.instructions + 1 }

/-- The processor with a latched fault. -/
def latched (cpu : Processor) (fault : Fault) : Processor :=
  { cpu with
    regs := { cpu.regs with sr := Status.setFault cpu.regs.sr true }
    mode := .faulted
    lastFault := some fault }

@[simp] theorem regs_traced (cpu : Processor) (instr : Instr) : (cpu.traced instr).regs = cpu.regs := by
  rw [traced]
  split <;> rfl

@[simp] theorem mode_traced (cpu : Processor) (instr : Instr) : (cpu.traced instr).mode = cpu.mode := by
  rw [traced]
  split <;> rfl

@[simp] theorem instructions_traced (cpu : Processor) (instr : Instr) :
    (cpu.traced instr).instructions = cpu.instructions := by
  rw [traced]
  split <;> rfl

@[simp] theorem regs_counted (cpu : Processor) (ip : Int) : (cpu.counted ip).regs = cpu.regs := by
  rw [counted]
  split <;> rfl

theorem mode_counted (cpu : Processor) (ip : Int) :
    (cpu.counted ip).mode = if Status.fault cpu.regs.sr then .faulted else cpu.mode := by
  rw [counted]
  split <;> rfl

end Processor

/-- What the processor makes of a failure, if it makes a fault of it. -/
def Failure.reason? (failure : Failure) : Option FaultReason :=
  match failure with
  | .trap t => some (.trap t)
  | .outOfBounds access => some (.outOfBounds access)
  | .refused _ | .fault _ => some (.device failure.name failure.message)
  | .aborted | .waiting => none

namespace Machine

variable {σ : Type}

/-! ## Outcomes -/

/-- The instruction at the instruction pointer. -/
def Fetches (regs : Registers) (memory : Memory) (instr : Instr) : Prop :=
  ∃ opcode, memory.load regs.ip = .ok opcode ∧ Instr.decode? opcode.toNat = some instr

instance (regs : Registers) (memory : Memory) (instr : Instr) :
    Decidable (Fetches regs memory instr) :=
  match loaded : memory.load regs.ip with
  | .ok opcode =>
    decidable_of_iff (Instr.decode? opcode.toNat = some instr) (by simp [Fetches, loaded])
  | .error _ => .isFalse (by simp [Fetches, loaded])

/-- There is one instruction at an address. -/
theorem Fetches.unique {regs : Registers} {memory : Memory} {instr other : Instr}
    (fetches : Fetches regs memory instr) (again : Fetches regs memory other) : instr = other := by
  obtain ⟨opcode, loaded, decoded⟩ := fetches
  obtain ⟨opcode', loaded', decoded'⟩ := again
  obtain rfl := Except.ok.inj (loaded.symm.trans loaded')
  exact Option.some.inj (decoded.symm.trans decoded')

/-- A step stops with this failure, and leaves this processor and this memory behind: there is no
address or no instruction, or the instruction cannot complete. -/
inductive Stops (env : Env σ) (cpu : Processor) (memory : Memory) :
    Failure → Processor → Memory → Prop
  | nowhere (outside : ¬(0 ≤ cpu.regs.ip ∧ cpu.regs.ip < memory.size)) :
      Stops env cpu memory (.trap (.pointerOutOfBounds cpu.regs.ip)) cpu memory
  | unknown {opcode} (loaded : memory.load cpu.regs.ip = .ok opcode)
      (undefined : Instr.decode? opcode.toNat = none) :
      Stops env cpu memory (.trap (.invalidOpcode opcode.toNat)) cpu memory
  | broken {instr failure regs now} (fetches : Fetches cpu.regs memory instr)
      (breaks : Breaks env cpu.regs memory instr failure regs now) :
      Stops env cpu memory failure { cpu.traced instr with regs } now

/-- With an instruction at the instruction pointer, it is what stops a step. -/
theorem Stops.breaks {env : Env σ} {cpu stopped : Processor} {memory now : Memory} {instr : Instr}
    {failure : Failure} (stops : Stops env cpu memory failure stopped now)
    (fetches : Fetches cpu.regs memory instr) :
    ∃ regs, Breaks env cpu.regs memory instr failure regs now ∧
      stopped = { cpu.traced instr with regs } := by
  obtain ⟨opcode, loaded, decoded⟩ := id fetches
  cases stops with
  | nowhere outside => exact absurd (Memory.inside_of_load loaded) outside
  | unknown again undefined =>
    obtain rfl := Except.ok.inj (loaded.symm.trans again)
    rw [decoded] at undefined
    cases undefined
  | broken again breaks =>
    obtain rfl := fetches.unique again
    exact ⟨_, breaks, rfl⟩

/-- What becomes of a failure of the instruction at an address: most are latched as a fault, and a
read that was abandoned takes the instruction pointer back. -/
inductive Recovers (ip : Int) (cpu : Processor) : Failure → Failure → Processor → Prop
  | latched {cause reason} (has : cause.reason? = some reason) :
      Recovers ip cpu cause (.fault ⟨reason, ip⟩) (cpu.latched ⟨reason, ip⟩)
  | aborted : Recovers ip cpu .aborted .aborted { cpu with regs := { cpu.regs with ip } }
  | waiting : Recovers ip cpu .waiting .waiting cpu

theorem Recovers.of_fault {ip : Int} {cpu now : Processor} {cause : Failure} {fault : Fault}
    (recovers : Recovers ip cpu cause (.fault fault) now) :
    cause.reason? = some fault.reason ∧ fault.ip = ip ∧ now = cpu.latched fault := by
  cases recovers with
  | latched has => exact ⟨has, rfl, rfl⟩

/-- A step has executed an instruction by its rule, and counted it. -/
def Completes (env : Env σ) (cpu : Processor) (memory : Memory) (after : Machine σ) : Prop :=
  ∃ instr regs, Fetches cpu.regs memory instr ∧
    Executes env cpu.regs memory instr regs after.memory ∧
    after.cpu = Processor.counted { cpu.traced instr with
      regs, mode := if instr = .halt then .halted else cpu.mode } cpu.regs.ip

/-- A step has stopped, and its failure was treated. -/
def Fails (env : Env σ) (cpu : Processor) (memory : Memory) (failure : Failure) (after : Machine σ) :
    Prop :=
  ∃ cause stopped, Stops env cpu memory cause stopped after.memory ∧
    Recovers cpu.regs.ip stopped cause failure after.cpu

/-! ## Parts of a step -/

section Parts

variable {env : Env σ} {cpu : Processor} {memory : Memory}

theorem ensures_fetchInstr :
    Ensures (Core cpu memory) (fetchInstr cpu.regs.ip)
      (fun instr (m : Machine σ) => Fetches cpu.regs memory instr ∧ Core cpu memory m)
      fun failure m => Stops env cpu memory failure m.cpu m.memory := by
  refine .get fun m core => ?_
  show Ensures _ (if ¬(0 ≤ cpu.regs.ip ∧ cpu.regs.ip < m.memory.size) then _ else _) _ _
  rw [core.2]
  -- where the pointer is not in memory the step stops before it has read anything
  split
  · next outside =>
    refine .of_eq core (.throw fun now core => ?_)
    rw [core.1, core.2]
    exact .nowhere outside
  · next within =>
    refine .of_eq core (.query (fun now core => by rw [load_eq, core.2]) (fun opcode loaded => ?_)
      fun access lacks => ?_)
    · cases decoded : Instr.decode? opcode.toNat with
      | some instr => exact .pure fun now core => ⟨⟨opcode, loaded, decoded⟩, core⟩
      | none =>
        refine .throw fun now core => ?_
        rw [core.1, core.2]
        exact .unknown loaded decoded
    -- in memory the load does not fail
    · obtain ⟨-, -, found⟩ | ⟨outside, -⟩ := memory.load_cases cpu.regs.ip
      · rw [found] at lacks
        cases lacks
      · exact absurd (not_not.1 within) outside

theorem ensures_traceInstr (instr : Instr) {E : Failure → Machine σ → Prop} :
    Ensures (Core cpu memory) (traceInstr cpu.regs.ip instr)
      (fun _ => Core (cpu.traced instr) memory) E := by
  refine .modify fun m core => ?_
  obtain ⟨rfl, rfl⟩ := core
  rw [Processor.traced]
  split <;> exact ⟨rfl, rfl⟩

theorem ensures_counted (ip : Int) {E : Failure → Machine σ → Prop} :
    Ensures (Core cpu memory) (complete ip) (fun _ => Core (cpu.counted ip) memory) E := by
  refine .bind (Q := fun _ => Core { cpu with instructions := cpu.instructions + 1 } memory)
    (.modify fun m core => ?_) fun _ => ?_
  -- the instruction is counted before its status is looked at
  · obtain ⟨rfl, rfl⟩ := core
    exact ⟨rfl, rfl⟩
  refine .get fun m core => ?_
  show Ensures _ (if Status.fault m.cpu.regs.sr = true then _ else _) _ _
  refine .of_eq core ?_
  rw [core.1, Processor.counted]
  -- a fault flag that the instruction has set is latched behind it
  split
  · refine .bind (Q := fun _ => Core _ memory) (.modify fun now core => ?_) fun _ =>
      .modify fun _ core => core
    obtain ⟨sameCpu, sameMemory⟩ := core
    exact ⟨by rw [sameCpu], sameMemory⟩
  · exact .pure fun _ core => core

/-- A failure is turned into a fault, or passed on. -/
theorem ensures_recovered (ip : Int) (failure : Failure) {Q : Unit → Machine σ → Prop} :
    Ensures (Core cpu memory) (recover ip failure) Q
      (fun final m => Recovers ip cpu failure final m.cpu ∧ m.memory = memory) := by
  -- all failures but two are latched as faults
  have latches : ∀ {reason}, failure.reason? = some reason →
      Ensures (Core cpu memory) (latch reason ip) Q
        (fun final m => Recovers ip cpu failure final m.cpu ∧ m.memory = memory) := by
    intro reason has
    refine .bind (Q := fun _ => Core (cpu.latched ⟨reason, ip⟩) memory) (.modify fun m core => ?_)
      fun _ => .bind (Q := fun _ => Core (cpu.latched ⟨reason, ip⟩) memory)
        (.modify fun _ core => core) fun _ => .throw fun m core => ?_
    · obtain ⟨rfl, rfl⟩ := core
      exact ⟨rfl, rfl⟩
    · rw [core.1, core.2]
      exact ⟨.latched has, rfl⟩
  cases failure with
  | trap t => exact latches rfl
  | outOfBounds access => exact latches rfl
  | refused refusal => exact latches rfl
  | fault fault => exact latches rfl
  -- an abort takes the pointer back, and waiting changes nothing
  | aborted =>
    refine .bind (Q := fun _ => Core { cpu with regs := { cpu.regs with ip } } memory)
      (ensures_modifyRegs cpu cpu.regs _) fun _ => .throw fun m core => ?_
    rw [core.1, core.2]
    exact ⟨.aborted, rfl⟩
  | waiting =>
    refine .throw fun m core => ?_
    rw [core.1, core.2]
    exact ⟨.waiting, rfl⟩

end Parts

/-! ## The step -/

section Step

variable {env : Env σ} (bystander : env.Bystander) {m after : Machine σ}
include bystander

/-- The work of a step ends by the rules. -/
theorem ensures_work (cpu : Processor) (memory : Memory) :
    Ensures (Core cpu memory)
      (do
        let instr ← fetchInstr cpu.regs.ip
        traceInstr cpu.regs.ip instr
        execute env instr)
      (fun _ now => ∃ instr regs, Fetches cpu.regs memory instr ∧
        Executes env cpu.regs memory instr regs now.memory ∧
        now.cpu = { cpu.traced instr with
          regs, mode := if instr = .halt then .halted else cpu.mode })
      (fun failure now => Stops env cpu memory failure now.cpu now.memory) := by
  refine .bind ensures_fetchInstr fun instr => .given fun fetches => ?_
  refine .bind (ensures_traceInstr instr) fun _ => ?_
  -- the opcode was loaded, so that the pointer is in memory
  have inside : 0 ≤ (cpu.traced instr).regs.ip ∧ (cpu.traced instr).regs.ip < memory.size := by
    obtain ⟨opcode, loaded, -⟩ := fetches
    rw [Processor.regs_traced]
    exact Memory.inside_of_load loaded
  refine .mono (meets_execute inside bystander instr) (fun _ core => core) ?_ ?_
  · rintro _ now ⟨regs, executes, same⟩
    rw [Processor.regs_traced] at executes
    rw [Processor.mode_traced] at same
    exact ⟨instr, regs, fetches, executes, same⟩
  · rintro failure now ⟨regs, breaks, same⟩
    rw [Processor.regs_traced] at breaks
    rw [same]
    exact .broken fetches breaks

/-- **A step of a ready processor** executes an instruction by its rule, or fails by a rule. -/
theorem ensures_step_cases {cpu : Processor} {memory : Memory} (ready : cpu.mode = .ready) :
    Ensures (Core cpu memory) (step env) (fun _ now => Completes env cpu memory now)
      (fun failure now => Fails env cpu memory failure now) := by
  intro m core
  obtain ⟨rfl, rfl⟩ := core
  rw [step_of_ready ready]
  -- the work first, and behind it the recovery or the count
  refine Ensures.bind (Ensures.tryCatch (ensures_work bystander m.cpu m.memory)
    fun failure => fun now stops => ?_) (fun _ => fun now done => ?_) m ⟨rfl, rfl⟩
  · have recovered := ensures_recovered m.cpu.regs.ip failure (Q := fun _ _ => False) now
      ⟨rfl, rfl⟩
    cases ran : recover m.cpu.regs.ip failure now with
    | ok _ after =>
      rw [ran] at recovered
      exact recovered.elim
    | error final after =>
      rw [ran] at recovered
      exact ⟨failure, now.cpu, recovered.2 ▸ stops, recovered.1⟩
  · obtain ⟨instr, regs, fetches, executes, same⟩ := done
    have counted := ensures_counted m.cpu.regs.ip (E := fun _ _ => False) now ⟨rfl, rfl⟩
    cases ran : complete m.cpu.regs.ip now with
    | ok _ after =>
      rw [ran] at counted
      obtain ⟨sameCpu, sameMemory⟩ := counted
      refine ⟨instr, regs, fetches, sameMemory ▸ executes, ?_⟩
      rw [sameCpu, same]
    | error failure after =>
      rw [ran] at counted
      exact counted.elim

theorem step_completes (ready : m.cpu.mode = .ready) {done : Unit}
    (completed : step env m = .ok done after) : Completes env m.cpu m.memory after := by
  have cases := ensures_step_cases bystander ready m ⟨rfl, rfl⟩
  rwa [completed] at cases

theorem step_fails (ready : m.cpu.mode = .ready) {failure : Failure}
    (failed : step env m = .error failure after) : Fails env m.cpu m.memory failure after := by
  have cases := ensures_step_cases bystander ready m ⟨rfl, rfl⟩
  rwa [failed] at cases

/-- A completed step has executed the instruction at the instruction pointer. -/
theorem step_executes (ready : m.cpu.mode = .ready) {instr : Instr}
    (fetches : Fetches m.cpu.regs m.memory instr) {done : Unit}
    (completed : step env m = .ok done after) :
    Executes env m.cpu.regs m.memory instr after.cpu.regs after.memory := by
  obtain ⟨other, regs, again, executes, same⟩ := step_completes bystander ready completed
  obtain rfl := fetches.unique again
  rwa [same, Processor.regs_counted]

/-- After a completed step the processor goes on, unless it has met a halt or the fault flag. -/
theorem mode_of_completed (ready : m.cpu.mode = .ready) {instr : Instr}
    (fetches : Fetches m.cpu.regs m.memory instr) (running : instr ≠ .halt) {done : Unit}
    (completed : step env m = .ok done after) :
    after.cpu.mode = if Status.fault after.cpu.regs.sr then .faulted else .ready := by
  obtain ⟨other, regs, again, -, same⟩ := step_completes bystander ready completed
  obtain rfl := fetches.unique again
  rw [same, Processor.regs_counted, Processor.mode_counted, if_neg running, ready]

end Step

/-- A step that does not fail was one of a ready processor, or of a halted one, which does nothing. -/
theorem mode_of_step {env : Env σ} {m after : Machine σ} {done : Unit}
    (ran : step env m = .ok done after) :
    m.cpu.mode = .ready ∨ m.cpu.mode = .halted ∧ after = m := by
  -- a step that succeeds was taken by a processor that is ready, or by one that does nothing
  cases mode : m.cpu.mode with
  | ready => exact .inl rfl
  | halted =>
    rw [step_of_halted mode] at ran
    cases ran
    exact .inr ⟨rfl, rfl⟩
  | faulted =>
    cases latched : m.cpu.lastFault with
    | some fault =>
      rw [step_of_faulted mode latched] at ran
      cases ran
    | none =>
      rw [step_eq_refault mode, refault, get_bind, latched] at ran
      cases ran

/-! ## Steps of given machines -/

/-- A memory that begins with these bytes. -/
def beginning (bytes : List Nat) : Memory :=
  ⟨memorySize, (bytes.map UInt8.ofNat ++ List.replicate (memorySize - bytes.length) 0).toArray⟩

theorem full_beginning {bytes : List Nat} (fits : bytes.length ≤ memorySize) :
    (beginning bytes).Full where
  size := rfl
  bytes := by
    simp [beginning]
    omega

/-- An action succeeds, and what it returns and leaves behind passes a check. -/
def yields {α : Type} (action : Action σ α) (m : Machine σ) (check : α → Machine σ → Bool) : Bool :=
  match action m with
  | .ok a after => check a after
  | .error _ _ => false

theorem exists_of_yields {α : Type} (action : Action σ α) (m : Machine σ)
    (check : α → Machine σ → Bool) (passed : yields action m check = true) :
    ∃ a after, action m = .ok a after ∧ check a after = true := by
  rw [yields] at passed
  split at passed
  · next a after ran => exact ⟨a, after, ran, passed⟩
  · cases passed

/-- A step succeeds, and leaves a machine that passes a check. -/
def leadsTo (env : Env σ) (m : Machine σ) (check : Machine σ → Bool) : Bool :=
  yields (step env) m fun _ => check

theorem exists_of_leadsTo (env : Env σ) (m : Machine σ) (check : Machine σ → Bool)
    (passed : leadsTo env m check = true) :
    ∃ after, step env m = .ok () after ∧ check after = true := by
  obtain ⟨⟨⟩, after, ran, checked⟩ := exists_of_yields (step env) m (fun _ => check) passed
  exact ⟨after, ran, checked⟩

/-- A step fails, and failure and machine pass a check. -/
def failsWith (env : Env σ) (m : Machine σ) (check : Failure → Machine σ → Bool) : Bool :=
  match step env m with
  | .ok _ _ => false
  | .error failure after => check failure after

theorem exists_of_failsWith (env : Env σ) (m : Machine σ) (check : Failure → Machine σ → Bool)
    (passed : failsWith env m check = true) :
    ∃ failure after, step env m = .error failure after ∧ check failure after = true := by
  rw [failsWith] at passed
  split at passed
  · cases passed
  · next failure after failed => exact ⟨failure, after, failed, passed⟩

/-- A step ends in a fault, and fault and machine pass a check. -/
def faultsWith (env : Env σ) (m : Machine σ) (check : Fault → Machine σ → Bool) : Bool :=
  failsWith env m fun failure after =>
    match failure with
    | .fault fault => check fault after
    | _ => false

theorem exists_of_faultsWith (env : Env σ) (m : Machine σ) (check : Fault → Machine σ → Bool)
    (passed : faultsWith env m check = true) :
    ∃ fault after, step env m = .error (.fault fault) after ∧ check fault after = true := by
  obtain ⟨failure, after, failed, checked⟩ := exists_of_failsWith env m _ passed
  cases failure with
  | fault fault => exact ⟨fault, after, failed, checked⟩
  | _ => cases checked

/-- Nothing is attached. -/
def alone : Env Unit :=
  ⟨fun _ _ => pure (), fun _ _ => pure 0⟩

theorem bystander_alone : alone.Bystander :=
  ⟨fun _ _ => .pure _, fun _ _ => .pure _⟩

end Machine

end EightBit
