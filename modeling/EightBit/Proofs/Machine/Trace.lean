import EightBit.Proofs.Machine.History
import EightBit.Proofs.Machine.Step

/-!
# The Trace and the Instruction Count

A processor that keeps a trace adds a line before it executes an instruction, and counts the instruction
after it. In between, the instruction may fault, or a keyboard read may be abandoned. A fault ends
everything until the next reset. An abandoned read does not: the instruction is tried again later, and
is then given a second line.

The calls of a caller are told here with what they begin and how they end. A step that has to wait for
a key ends when the key is there or the read is given up; whatever happens around the processor in the
meantime, the processor stays as it is.

## Main Definitions

- `Report`: what a call begins, and how it ends.
- `Called`: one call, or something that happens around the processor between two calls.
- `OneLineEach`: a line for each counted instruction, and perhaps one for a fault.

## Main Statements

- `Called.advances`: what one call adds to trace and count.
- `trace_of_calls`: trace and count after any calls, and when they agree.
-/

namespace EightBit

/-! ## Traces and counts of processors -/

namespace Processor

@[simp] theorem trace_counted (cpu : Processor) (ip : Int) : (cpu.counted ip).trace = cpu.trace := by
  rw [counted]
  split <;> rfl

@[simp] theorem tracing_counted (cpu : Processor) (ip : Int) :
    (cpu.counted ip).tracing = cpu.tracing := by
  rw [counted]
  split <;> rfl

@[simp] theorem instructions_counted (cpu : Processor) (ip : Int) :
    (cpu.counted ip).instructions = cpu.instructions + 1 := by
  rw [counted]
  split <;> rfl

@[simp] theorem tracing_traced (cpu : Processor) (instr : Instr) :
    (cpu.traced instr).tracing = cpu.tracing := by
  rw [traced]
  split <;> rfl

theorem trace_traced {cpu : Processor} (tracing : cpu.tracing = true) (instr : Instr) :
    (cpu.traced instr).trace.toList = cpu.trace.toList ++ [⟨cpu.regs.ip, instr, cpu.regs⟩] := by
  rw [traced, if_pos tracing]
  exact Array.toList_push

end Processor

namespace Machine

variable {σ : Type}

/-! ## Calls -/

/-- What a call begins, if it is a step that finds an instruction, and how it ends. -/
structure Report where
  begun : Option TraceEntry := none
  verdict : Except Failure Unit := .ok ()

namespace Report

/-- The instruction that the call has completed. -/
def completed? (report : Report) : Option TraceEntry :=
  match report.verdict with
  | .ok () => report.begun
  | .error _ => none

/-- The instruction whose keyboard read was abandoned. -/
def abandoned? (report : Report) : Option TraceEntry :=
  match report.verdict with
  | .error .aborted => report.begun
  | _ => none

/-- The instruction that has faulted. -/
def faulted? (report : Report) : Option TraceEntry :=
  match report.verdict with
  | .error (.fault _) => report.begun
  | _ => none

end Report

/-- The line of the instruction that a step would begin. -/
def begun? (m : Machine σ) : Option TraceEntry :=
  match m.cpu.mode, m.memory.load m.cpu.regs.ip with
  | .ready, .ok opcode =>
    (Instr.decode? opcode.toNat).map fun instr => ⟨m.cpu.regs.ip, instr, m.cpu.regs⟩
  | _, _ => none

/-- A step ends with this verdict: at once, or after it has waited for a key. -/
inductive Concludes (env : Env σ) (m : Machine σ) : Except Failure Unit → Machine σ → Prop
  | completes {after} (ran : step env m = .ok () after) : Concludes env m (.ok ()) after
  | fails {failure after} (ran : step env m = .error failure after) (conclusive : failure ≠ .waiting) :
      Concludes env m (.error failure) after
  | completesLater {stuck there after} (waits : step env m = .error .waiting stuck)
      (same : there.cpu = stuck.cpu)
      (ran : guarded m.cpu.regs.ip (do receive (← readKey)) there = .ok () after) :
      Concludes env m (.ok ()) after
  | failsLater {stuck there failure after} (waits : step env m = .error .waiting stuck)
      (same : there.cpu = stuck.cpu)
      (ran : guarded m.cpu.regs.ip (do receive (← readKey)) there = .error failure after)
      (conclusive : failure ≠ .waiting) : Concludes env m (.error failure) after

/-- **One call**, or something that happens between two calls and leaves the processor alone. -/
inductive Called (env : Env σ) : Machine σ → Report → Machine σ → Prop
  | outside {m after : Machine σ} (same : after.cpu = m.cpu) : Called env m {} after
  | resume {m : Machine σ} : Called env m {} { m with cpu := m.cpu.resume }
  | step {m after : Machine σ} {verdict} (concludes : Concludes env m verdict after) :
      Called env m ⟨begun? m, verdict⟩ after

/-- The trace has one line for each instruction that was counted, in order, and at most one more at its
end, for an instruction that has faulted. -/
def OneLineEach (reports : List Report) (cpu : Processor) : Prop :=
  ∃ final : List TraceEntry, cpu.trace.toList = reports.filterMap Report.completed? ++ final ∧
    final.length ≤ 1 ∧ (∀ entry ∈ final, entry ∈ reports.filterMap Report.faulted?) ∧
    (reports.filterMap Report.completed?).length = cpu.instructions

/-! ## What a step begins -/

section Begun

variable {m : Machine σ}

theorem begun?_of_fetches (ready : m.cpu.mode = .ready) {instr : Instr}
    (fetches : Fetches m.cpu.regs m.memory instr) :
    begun? m = some ⟨m.cpu.regs.ip, instr, m.cpu.regs⟩ := by
  obtain ⟨opcode, loaded, decoded⟩ := fetches
  simp [begun?, ready, loaded, decoded]

theorem begun?_of_not_ready (notReady : m.cpu.mode ≠ .ready) : begun? m = none := by
  unfold begun?
  split
  · next ready _ => exact absurd ready notReady
  · rfl

end Begun

/-! ## One call -/

/-- What a call with this report adds to the trace and to the count, and that faults are final. -/
structure Advances (cpu : Processor) (report : Report) (now : Processor) : Prop where
  tracing : now.tracing = cpu.tracing
  trace : now.trace.toList = cpu.trace.toList ++ report.begun.toList
  count : now.instructions = cpu.instructions + report.completed?.toList.length
  parts : report.begun.toList =
    report.completed?.toList ++ report.abandoned?.toList ++ report.faulted?.toList
  latches : report.faulted? ≠ none → now.mode = .faulted
  final : cpu.mode = .faulted → now.mode = .faulted ∧ report.begun = none

/-- A call of a ready processor has no earlier fault to keep. -/
theorem Advances.of_ready {cpu now : Processor} {report : Report} (ready : cpu.mode = .ready)
    (tracing : now.tracing = cpu.tracing)
    (trace : now.trace.toList = cpu.trace.toList ++ report.begun.toList)
    (count : now.instructions = cpu.instructions + report.completed?.toList.length)
    (parts : report.begun.toList =
      report.completed?.toList ++ report.abandoned?.toList ++ report.faulted?.toList)
    (latches : report.faulted? ≠ none → now.mode = .faulted) : Advances cpu report now := by
  refine ⟨tracing, trace, count, parts, latches, fun isFaulted => ?_⟩
  rw [ready] at isFaulted
  cases isFaulted

/-- What a failure leaves of trace and count, once it has been treated. -/
theorem of_recovers {ip : Int} {cpu now : Processor} {cause final : Failure}
    (recovers : Recovers ip cpu cause final now) :
    now.tracing = cpu.tracing ∧ now.trace = cpu.trace ∧ now.instructions = cpu.instructions ∧
      ((∃ fault, final = .fault fault ∧ now.mode = .faulted) ∨ final = .aborted ∨
        final = .waiting ∧ cause = .waiting ∧ now = cpu) := by
  cases recovers with
  | latched has => exact ⟨rfl, rfl, rfl, .inl ⟨_, rfl, rfl⟩⟩
  | aborted => exact ⟨rfl, rfl, rfl, .inr (.inl rfl)⟩
  | waiting => exact ⟨rfl, rfl, rfl, .inr (.inr ⟨rfl, rfl, rfl⟩)⟩

/-- An instruction that was begun has faulted or was abandoned, with a line and uncounted. -/
theorem advances_of_recovers {cpu stopped now : Processor} {entry : TraceEntry} {ip : Int}
    {cause final : Failure} (ready : cpu.mode = .ready) (tracing : stopped.tracing = cpu.tracing)
    (trace : stopped.trace.toList = cpu.trace.toList ++ [entry])
    (count : stopped.instructions = cpu.instructions)
    (recovers : Recovers ip stopped cause final now) (conclusive : final ≠ .waiting) :
    Advances cpu ⟨some entry, .error final⟩ now := by
  obtain ⟨sameTracing, sameTrace, sameCount, ends⟩ := of_recovers recovers
  have line : now.trace.toList = cpu.trace.toList ++ [entry] := by rw [sameTrace, trace]
  rcases ends with ⟨fault, rfl, faulted⟩ | rfl | ⟨rfl, -⟩
  · exact .of_ready ready (sameTracing.trans tracing) line (sameCount.trans count) rfl fun _ => faulted
  · exact .of_ready ready (sameTracing.trans tracing) line (sameCount.trans count) rfl
      fun faults => absurd rfl faults
  · exact absurd rfl conclusive

section Ready

variable {env : Env σ} {m after : Machine σ} (ready : m.cpu.mode = .ready)
  (tracing : m.cpu.tracing = true)
include ready tracing

/-- A completed step adds a line and counts one. -/
theorem advances_of_completes (completes : Completes env m.cpu m.memory after) :
    Advances m.cpu ⟨begun? m, .ok ()⟩ after.cpu := by
  obtain ⟨instr, regs, fetches, -, same⟩ := completes
  rw [begun?_of_fetches ready fetches, same]
  refine .of_ready ready (by simp) ?_ (by simp [Report.completed?]) rfl fun faults => absurd rfl faults
  rw [Processor.trace_counted]
  exact Processor.trace_traced tracing instr

/-- A step that fails has found no instruction, or it adds the line of the one it has begun. -/
theorem advances_of_fails {failure : Failure} (fails : Fails env m.cpu m.memory failure after)
    (conclusive : failure ≠ .waiting) : Advances m.cpu ⟨begun? m, .error failure⟩ after.cpu := by
  obtain ⟨cause, stopped, stops, recovers⟩ := fails
  -- a trap that comes before any instruction leaves no line
  have early : begun? m = none → stopped = m.cpu → cause ≠ .waiting →
      Advances m.cpu ⟨begun? m, .error failure⟩ after.cpu := by
    rintro nothing rfl -
    rw [nothing]
    obtain ⟨sameTracing, sameTrace, sameCount, ends⟩ := of_recovers recovers
    have notAFault : (⟨none, .error failure⟩ : Report).faulted? = none := by
      cases failure <;> rfl
    have notAbandoned : (⟨none, .error failure⟩ : Report).abandoned? = none := by
      cases failure <;> rfl
    exact .of_ready ready sameTracing (by rw [sameTrace]; simp) sameCount
      (by rw [notAFault, notAbandoned]; rfl) fun faults => absurd notAFault faults
  generalize after.memory = left at stops
  cases stops with
  | nowhere outside =>
    refine early ?_ rfl nofun
    obtain ⟨low, high, -⟩ | ⟨-, lacks⟩ := m.memory.load_cases m.cpu.regs.ip
    · exact absurd ⟨low, high⟩ outside
    · simp [begun?, ready, lacks]
  | unknown loaded undefined =>
    refine early ?_ rfl nofun
    simp [begun?, ready, loaded, undefined]
  | @broken instr _ regs _ fetches breaks =>
    rw [begun?_of_fetches ready fetches]
    refine advances_of_recovers ready ?_ ?_ ?_ recovers conclusive
    · exact Processor.tracing_traced ..
    · exact Processor.trace_traced tracing instr
    · exact Processor.instructions_traced ..

/-- A step that waits has begun an instruction. -/
theorem exists_of_waits {stuck : Machine σ} (fails : Fails env m.cpu m.memory .waiting stuck) :
    ∃ entry, begun? m = some entry ∧ stuck.cpu.tracing = m.cpu.tracing ∧
      stuck.cpu.trace.toList = m.cpu.trace.toList ++ [entry] ∧
      stuck.cpu.instructions = m.cpu.instructions := by
  obtain ⟨cause, stopped, stops, recovers⟩ := fails
  obtain ⟨-, -, -, ⟨fault, isFault, -⟩ | isAborted | ⟨-, rfl, same⟩⟩ := of_recovers recovers
  · cases isFault
  · cases isAborted
  · generalize stuck.memory = left at stops
    cases stops with
    | @broken instr _ regs _ fetches breaks =>
      refine ⟨_, begun?_of_fetches ready fetches, ?_⟩
      rw [same]
      exact ⟨Processor.tracing_traced .., Processor.trace_traced tracing instr,
        Processor.instructions_traced ..⟩

end Ready

/-- A read that has waited ends in the count of its instruction, or in a failure that is treated. -/
theorem ensures_received (ip : Int) {cpu : Processor} {memory : Memory} :
    Ensures (Core cpu memory) (guarded ip (do receive (← readKey)) : Action σ Unit)
      (fun _ now => ∃ regs, now.cpu = Processor.counted { cpu with regs } ip)
      (fun final now => ∃ cause, Recovers ip cpu cause final now.cpu) := by
  -- the key is stored and the pointer moves on, and nothing else of the processor changes
  have received : ∀ value, Ensures (Core cpu memory) (receive value : Action σ Unit)
      (fun _ now => ∃ regs, Core { cpu with regs } memory now) (fun _ => Core cpu memory) := by
    refine fun value => .bind (Q := fun _ now => ∃ regs, Core { cpu with regs } memory now)
      (.modify fun m core => ?_) fun _ => .modify fun m kept => ?_
    · obtain ⟨rfl, rfl⟩ := core
      exact ⟨_, rfl, rfl⟩
    · obtain ⟨regs, same, rfl⟩ := kept
      exact ⟨{ regs with ip := regs.ip + 1 }, by rw [same], rfl⟩
  -- the read may fail and be recovered from, or succeed and be counted
  refine .bind (.tryCatch (.bind (quiet_readKey cpu memory) received) fun failure => ?_) fun _ => ?_
  · exact (ensures_recovered ip failure (Q := fun _ now => ∃ regs, Core { cpu with regs } memory now)).mono
      (fun _ core => core) (fun _ _ kept => kept) fun final now recovered => ⟨failure, recovered.1⟩
  · rintro now ⟨regs, core⟩
    have counted := ensures_counted ip (E := fun _ _ => False) now core
    cases ran : complete ip now with
    | ok done after =>
      rw [ran] at counted
      exact ⟨regs, counted.1⟩
    | error failure after =>
      rw [ran] at counted
      exact counted.elim

/-- An instruction that had to wait for a key has its line already. -/
theorem advances_of_waits {env : Env σ} {m stuck there : Machine σ} (ready : m.cpu.mode = .ready)
    (tracing : m.cpu.tracing = true) (fails : Fails env m.cpu m.memory .waiting stuck)
    (same : there.cpu = stuck.cpu) :
    match guarded m.cpu.regs.ip (do receive (← readKey)) there with
    | .ok () after => Advances m.cpu ⟨begun? m, .ok ()⟩ after.cpu
    | .error failure after =>
      failure ≠ .waiting → Advances m.cpu ⟨begun? m, .error failure⟩ after.cpu := by
  -- the instruction had begun before it waited, and its line was written then
  obtain ⟨entry, begun, sameTracing, trace, count⟩ := exists_of_waits ready tracing fails
  have ended := ensures_received m.cpu.regs.ip there ⟨same, rfl⟩
  rw [begun]
  cases ran : guarded m.cpu.regs.ip (do receive (← readKey)) there with
  | ok done after =>
    rw [ran] at ended
    obtain ⟨regs, now⟩ := ended
    refine .of_ready ready (by simp [now, sameTracing]) ?_ (by simp [now, count, Report.completed?]) rfl
      fun faults => absurd rfl faults
    rw [now, Processor.trace_counted]
    exact trace
  | error failure after =>
    rw [ran] at ended
    obtain ⟨cause, recovers⟩ := ended
    exact advances_of_recovers ready sameTracing trace count recovers

theorem exists_refault (env : Env σ) {m : Machine σ} (faulted : m.cpu.mode = .faulted) :
    ∃ fault, step env m =
      .error (.fault fault) { m with cpu := { m.cpu with lastFault := some fault } } := by
  cases latched : m.cpu.lastFault with
  | some fault => exact ⟨fault, by rw [step_of_faulted faulted latched, ← latched]⟩
  | none =>
    rw [step_eq_refault faulted, refault, get_bind, latched]
    exact ⟨_, rfl⟩

/-- A step of a halted or faulted processor begins nothing. -/
theorem advances_of_not_ready {env : Env σ} {m after : Machine σ} {verdict : Except Failure Unit}
    (notReady : m.cpu.mode ≠ .ready) (concludes : Concludes env m verdict after) :
    Advances m.cpu ⟨begun? m, verdict⟩ after.cpu := by
  rw [begun?_of_not_ready notReady]
  have nothing : ∀ {now : Processor}, now.tracing = m.cpu.tracing → now.trace = m.cpu.trace →
      now.instructions = m.cpu.instructions → now.mode = m.cpu.mode →
      Advances m.cpu ⟨none, verdict⟩ now := by
    intro now tracing trace count mode
    have parts : (⟨none, verdict⟩ : Report).completed? = none ∧
        (⟨none, verdict⟩ : Report).abandoned? = none ∧
        (⟨none, verdict⟩ : Report).faulted? = none := by
      cases verdict with
      | ok done => exact ⟨rfl, rfl, rfl⟩
      | error failure => cases failure <;> exact ⟨rfl, rfl, rfl⟩
    obtain ⟨notCompleted, notAbandoned, notAFault⟩ := parts
    refine ⟨tracing, by simp [trace], by simp [notCompleted, count], ?_, ?_, ?_⟩
    · rw [notCompleted, notAbandoned, notAFault]
      rfl
    · exact fun faults => absurd notAFault faults
    · exact fun isFaulted => ⟨mode.trans isFaulted, rfl⟩
  cases mode : m.cpu.mode with
  | ready => exact absurd mode notReady
  | halted =>
    -- it succeeds at once, with nothing done
    have ran : step env m = .ok () m := step_of_halted mode
    cases concludes with
    | completes again =>
      rw [ran] at again
      cases again
      exact nothing rfl rfl rfl rfl
    | fails again conclusive => exact absurd (ran.symm.trans again) nofun
    | completesLater waits same again => exact absurd (ran.symm.trans waits) nofun
    | failsLater waits same again conclusive => exact absurd (ran.symm.trans waits) nofun
  | faulted =>
    -- it fails at once, with a latched fault
    obtain ⟨fault, ran⟩ := exists_refault env mode
    cases concludes with
    | completes again => exact absurd (ran.symm.trans again) nofun
    | fails again conclusive =>
      rw [ran] at again
      cases again
      exact nothing rfl rfl rfl rfl
    | completesLater waits same again => exact absurd (ran.symm.trans waits) nofun
    | failsLater waits same again conclusive => exact absurd (ran.symm.trans waits) nofun

/-- **One call**: its line, its count and what is final. -/
theorem Called.advances {env : Env σ} (bystander : env.Bystander) {m after : Machine σ}
    (tracing : m.cpu.tracing = true) {report : Report} (called : Called env m report after) :
    Advances m.cpu report after.cpu := by
  -- what happens outside of the processor leaves trace and count as they are
  cases called with
  | outside same =>
    rw [same]
    exact ⟨rfl, by simp, rfl, rfl, fun faults => absurd rfl faults, fun isFaulted => ⟨isFaulted, rfl⟩⟩
  | resume =>
    rw [Processor.resume]
    split
    · next halted =>
      refine ⟨rfl, by simp, rfl, rfl, fun faults => absurd rfl faults, fun isFaulted => ?_⟩
      rw [halted] at isFaulted
      cases isFaulted
    · exact ⟨rfl, by simp, rfl, rfl, fun faults => absurd rfl faults,
        fun isFaulted => ⟨isFaulted, rfl⟩⟩
  | step concludes =>
    by_cases ready : m.cpu.mode = .ready
    -- only a processor that is ready begins an instruction
    swap
    · exact advances_of_not_ready ready concludes
    cases concludes with
    | completes ran =>
      exact advances_of_completes ready tracing (step_completes bystander ready ran)
    | fails ran conclusive =>
      exact advances_of_fails ready tracing (step_fails bystander ready ran) conclusive
    -- an instruction that has waited ends in a later call, and its line is the earlier one
    | completesLater waits same ran =>
      have ended := advances_of_waits ready tracing (step_fails bystander ready waits) same
      rw [ran] at ended
      exact ended
    | failsLater waits same ran conclusive =>
      have ended := advances_of_waits ready tracing (step_fails bystander ready waits) same
      rw [ran] at ended
      exact ended conclusive

/-! ## Any number of calls -/

section Calls

variable {env : Env σ} (bystander : env.Bystander) {first last : Machine σ} {reports : List Report}
  (calls : History (Called env) first reports last) (tracing : first.cpu.tracing = true)
include bystander calls tracing

/-- Every call adds the line that it begins and counts the instruction that it completes. -/
theorem trace_of_history :
    last.cpu.trace.toList = first.cpu.trace.toList ++ reports.filterMap Report.begun ∧
      last.cpu.instructions =
        first.cpu.instructions + (reports.filterMap Report.completed?).length := by
  induction calls with
  | nil state => simp
  | @cons state next last report reports called rest ih =>
    have advances := called.advances bystander tracing
    obtain ⟨trace, count⟩ := ih (advances.tracing.trans tracing)
    rw [trace, count, advances.trace, advances.count, filterMap_cons_eq, filterMap_cons_eq,
      List.length_append, List.append_assoc, Nat.add_assoc]
    exact ⟨rfl, rfl⟩

/-- After a fault nothing is begun. -/
theorem begun_of_faulted (faulted : first.cpu.mode = .faulted) :
    reports.filterMap Report.begun = [] := by
  induction calls with
  | nil state => rfl
  | @cons state next last report reports called rest ih =>
    have advances := called.advances bystander tracing
    obtain ⟨stays, nothing⟩ := advances.final faulted
    rw [List.filterMap_cons_none nothing]
    exact ih (advances.tracing.trans tracing) stays

/-- What was begun was completed, was abandoned or has faulted. -/
theorem length_begun :
    (reports.filterMap Report.begun).length = (reports.filterMap Report.completed?).length +
      (reports.filterMap Report.abandoned?).length +
      (reports.filterMap Report.faulted?).length := by
  induction calls with
  | nil state => rfl
  | @cons state next last report reports called rest ih =>
    have advances := called.advances bystander tracing
    have parts := congrArg List.length advances.parts
    have counted := ih (advances.tracing.trans tracing)
    simp only [List.length_append] at parts
    simp only [filterMap_cons_eq, List.length_append, parts, counted]
    omega

/-- If no read is abandoned, what was begun was completed, up to the one that has faulted. -/
theorem begun_of_none_abandoned (noneAbandoned : ∀ report ∈ reports, report.abandoned? = none) :
    reports.filterMap Report.begun =
        reports.filterMap Report.completed? ++ reports.filterMap Report.faulted? ∧
      (reports.filterMap Report.faulted?).length ≤ 1 := by
  induction calls with
  | nil state => simp
  | @cons state next last report reports called rest ih =>
    have advances := called.advances bystander tracing
    have goesOn := advances.tracing.trans tracing
    have parts := advances.parts
    rw [noneAbandoned report List.mem_cons_self, Option.toList_none, List.append_nil] at parts
    cases faulted : report.faulted? with
    | none =>
      -- the call has completed what it has begun
      rw [faulted, Option.toList_none, List.append_nil] at parts
      obtain ⟨begun, once⟩ := ih goesOn fun report among => noneAbandoned report (.tail _ among)
      rw [List.filterMap_cons_none faulted]
      refine ⟨?_, once⟩
      rw [filterMap_cons_eq, filterMap_cons_eq, parts, begun, List.append_assoc]
    | some entry =>
      -- the call has latched a fault, and no other call begins anything
      rw [faulted] at parts
      have nothing := begun_of_faulted bystander rest goesOn (advances.latches (by simp [faulted]))
      have counted := length_begun bystander rest goesOn
      rw [nothing, List.length_nil] at counted
      have noneCompleted : reports.filterMap Report.completed? = [] :=
        List.length_eq_zero_iff.1 (by omega)
      have noneFaulted : reports.filterMap Report.faulted? = [] :=
        List.length_eq_zero_iff.1 (by omega)
      have notBoth : report.completed? = none := by
        have lengths := congrArg List.length parts
        have atMostOne : report.begun.toList.length ≤ 1 := Option.length_toList_le
        cases completed : report.completed? with
        | none => rfl
        | some other =>
          rw [completed] at lengths
          simp at lengths
          omega
      rw [filterMap_cons_eq, filterMap_cons_eq, filterMap_cons_eq, parts, faulted, notBoth,
        nothing, noneCompleted, noneFaulted]
      exact ⟨rfl, Nat.le_refl 1⟩

/-- **The trace of any calls.** It has a line for every instruction that was begun, and the count is the
number of instructions completed. Each counted instruction has just one line, with at most one more line for
a fault, if and only if no keyboard read was abandoned. -/
theorem trace_of_calls (noLines : first.cpu.trace = #[]) (noneCounted : first.cpu.instructions = 0) :
    last.cpu.trace.toList = reports.filterMap Report.begun ∧
      last.cpu.instructions = (reports.filterMap Report.completed?).length ∧
      (OneLineEach reports last.cpu ↔ ∀ report ∈ reports, report.abandoned? = none) := by
  obtain ⟨trace, count⟩ := trace_of_history bystander calls tracing
  rw [noLines, List.nil_append] at trace
  rw [noneCounted, Nat.zero_add] at count
  refine ⟨trace, count, fun each report among => ?_, fun noneAbandoned => ?_⟩
  · obtain ⟨final, lines, atMostOne, faults, -⟩ := each
    have lengths := length_begun bystander calls tracing
    rw [← trace, lines, List.length_append] at lengths
    by_contra abandoned
    obtain ⟨entry, gaveUp⟩ := Option.ne_none_iff_exists'.1 abandoned
    have found : entry ∈ reports.filterMap Report.abandoned? :=
      List.mem_filterMap.2 ⟨report, among, gaveUp⟩
    have positive := List.length_pos_of_mem found
    -- the one line that is left over would be of an instruction that has faulted
    have noFault : reports.filterMap Report.faulted? = [] :=
      List.length_eq_zero_iff.1 (by omega)
    cases final with
    | nil =>
      rw [List.length_nil] at lengths
      omega
    | cons line rest =>
      have faulted := faults line List.mem_cons_self
      rw [noFault] at faulted
      cases faulted
  · obtain ⟨begun, atMostOne⟩ := begun_of_none_abandoned bystander calls tracing noneAbandoned
    exact ⟨_, trace.trans begun, atMostOne, fun _ isFaulted => isFaulted, count.symm⟩

end Calls

/-! ### A read that is tried again -/

/-- A program that reads a key and halts, with nobody at the keyboard and a trace of what happens. -/
def reading : Machine Unit where
  cpu := { tracing := true }
  memory := beginning [84, 1, 0]
  notes := ()

/-- The line of the instruction that reads the key. -/
def readingLine : TraceEntry :=
  ⟨0, .input, {}⟩

/-- The first read is given up; once a key is there the instruction is tried again, and completes. -/
def retried : List Report :=
  [⟨some readingLine, .error .aborted⟩, {}, ⟨some readingLine, .ok ()⟩]

/-- The machine with a key in the latch of its keyboard. -/
def keyed (m : Machine Unit) : Machine Unit :=
  { m with devices := { m.devices with keyboard := ⟨some (.key 107)⟩ } }

theorem exists_calls_retried :
    ∃ last, History (Called alone) reading retried last ∧
      last.cpu.trace.toList = [readingLine, readingLine] ∧ last.cpu.instructions = 1 := by
  obtain ⟨failure, stopped, gaveUp, checked⟩ := exists_of_failsWith alone reading
    (fun failure stopped => decide (failure = .aborted ∧ begun? (keyed stopped) = some readingLine) &&
      leadsTo alone (keyed stopped) fun last => decide
        (last.cpu.trace.toList = [readingLine, readingLine] ∧ last.cpu.instructions = 1))
    (by decide +kernel)
  obtain ⟨abandoned, goesOn⟩ := Bool.and_eq_true_iff.1 checked
  obtain ⟨rfl, again⟩ := of_decide_eq_true abandoned
  obtain ⟨last, completed, counted⟩ := exists_of_leadsTo alone (keyed stopped) _ goesOn
  have isLine : begun? reading = some readingLine := by decide +kernel
  -- the read is given up once, then there is a key, and then it is read
  have first : Called alone reading ⟨some readingLine, .error .aborted⟩ stopped := by
    rw [← isLine]
    exact .step (.fails gaveUp nofun)
  have second : Called alone (keyed stopped) ⟨some readingLine, .ok ()⟩ last := by
    rw [← again]
    exact .step (.completes completed)
  have between : Called alone stopped {} (keyed stopped) := .outside rfl
  exact ⟨last, .cons first (.cons between (.cons second (.nil last))), of_decide_eq_true counted⟩

theorem trace_of_calls_retried :
    ∃ last, alone.Bystander ∧ History (Called alone) reading retried last ∧
      reading.cpu.tracing = true ∧ reading.cpu.trace = #[] ∧ reading.cpu.instructions = 0 ∧
      last.cpu.trace.toList = retried.filterMap Report.begun ∧
      last.cpu.instructions = (retried.filterMap Report.completed?).length ∧
      (OneLineEach retried last.cpu ↔ ∀ report ∈ retried, report.abandoned? = none) := by
  obtain ⟨last, calls, -⟩ := exists_calls_retried
  exact ⟨last, bystander_alone, calls, rfl, rfl, rfl,
    trace_of_calls bystander_alone calls rfl rfl rfl⟩

/-- An instruction that was tried twice has two lines, and counts once. -/
theorem exists_two_lines_for_one :
    ∃ (first last : Machine Unit) (reports : List Report),
      first.cpu.tracing = true ∧ first.cpu.trace = #[] ∧ first.cpu.instructions = 0 ∧
      History (Called alone) first reports last ∧
      last.cpu.instructions = 1 ∧ last.cpu.trace.size = 2 ∧ ¬ OneLineEach reports last.cpu := by
  obtain ⟨last, calls, lines, counted⟩ := exists_calls_retried
  refine ⟨reading, last, retried, rfl, rfl, rfl, calls, counted, ?_, ?_⟩
  · rw [← Array.length_toList, lines]
    rfl
  · rintro ⟨final, split, atMostOne, faults, -⟩
    -- nothing has faulted, so every line would be the only one of its instruction
    have nothing : final = [] := List.eq_nil_iff_forall_not_mem.2 fun entry among => by
      simpa [retried, Report.faulted?] using faults entry among
    rw [lines, nothing] at split
    exact absurd split (by decide)

end Machine

end EightBit
