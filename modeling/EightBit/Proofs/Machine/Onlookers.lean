import EightBit.Proofs.Machine.Bare
import EightBit.Proofs.Machine.Keeping
import Mathlib.Data.List.Forall2

/-!
# Onlookers Change Nothing

Two machines that differ in nothing but their onlookers (whether a trace is kept, and who is told of stores,
of ports and of the lights) give the same answers to the same calls, and differ in nothing else after any
number of them. Each of the two does what the bare machine does, so it is one comparison with the bare
machine, made twice.

## Main Definitions

- `Command`, `Reply`: what is called, and what comes back.
- `session`: one call after the other.
- `LooksSame`: what is the same on both machines.

## Main Statements

- `Env.Observed.run`, `Env.Observed.reset`: runs and resets ignore their onlookers.
- `Env.Observed.session`: so does every session.
- `session_looksSame`: onlookers do not change execution.
-/

namespace EightBit

namespace Machine

variable {σ δ : Type} {view : σ → δ}

/-! ## The control panel -/

theorem ignores_clearKeyboard : Ignores view clearKeyboard clearKeyboard :=
  ignores_modifyDevices _

theorem ignores_requestStop : Ignores view requestStop requestStop :=
  .get fun _ => .ite (fun _ => .bind (ignores_modifyControl _) fun _ => ignores_modifyDevices _) fun _ =>
    .pure _

theorem ignores_followPolicy : Ignores view followPolicy followPolicy := by
  refine .get fun m => ?_
  dsimp only [bare]
  cases m.operator.policy with
  | stop => exact ignores_requestStop
  | resume => exact ignores_modifyControl _
  | step => exact ignores_modifyControl _
  | wait => exact .pure _

theorem ignores_takeToken : Ignores view takeToken takeToken :=
  .get fun _ => .ite (fun _ => .pure _) fun _ => .ite (fun _ => .pure _) fun _ =>
    .bind (ignores_modifyControl _) fun _ => .pure _

theorem ignores_grantStep : Ignores view grantStep grantStep :=
  .get fun _ => .ite (fun _ => .pure _) fun _ => .get fun _ =>
    .perhaps ignores_followPolicy ignores_takeToken

/-- What a step leads to depends on no onlooker. -/
theorem ignores_settleStep (ip : Int) {seen : Action σ Unit} {plain : Action δ Unit}
    (work : Ignores view seen plain) : Ignores view (settleStep ip seen) (settleStep ip plain) := by
  refine .tryCatch (.bind work fun _ => .pure _) fun failure => ?_
  -- a fault goes into the journal, an abort looks at the control panel, all else is nobody's business here
  cases failure with
  | fault fault => exact .get fun _ => .bind (ignores_record _ _ _) fun _ => .pure _
  | aborted => exact .get fun _ => .pure _
  | waiting => exact .pure _
  | trap trap => exact .throw _
  | outOfBounds access => exact .throw _
  | refused refusal => exact .throw _

theorem ignores_conclude (reason : StopReason) : Ignores view (conclude reason) (conclude reason) :=
  .bind (ignores_modifyControl _) fun _ => .get fun _ => .perhaps ignores_clearKeyboard <|
    .bind (ignores_modifyControl _) fun _ => .get fun _ => ignores_record _ _ _

/-! ## Loading -/

theorem ignores_resetProcessor : Ignores view resetProcessor resetProcessor :=
  .modify fun _ => rfl

/-- A halted processor goes on with its trace. -/
theorem ignores_resumeProcessor : Ignores view resumeProcessor resumeProcessor :=
  .modify fun m => congrArg (fun cpu => { m.bare view with cpu }) m.cpu.bare_resume

theorem ignores_loadProgram (code : List UInt8) : Ignores view (loadProgram code) (loadProgram code) :=
  .perhaps (.throw _) <| .bind (.modify fun _ => rfl) fun _ => ignores_record _ _ _

theorem ignores_loadAssembled (program : Program) :
    Ignores view (loadAssembled program) (loadAssembled program) :=
  .bind ignores_requestStop fun _ => .bind (ignores_loadProgram _) fun _ =>
    .bind ignores_resetProcessor fun _ => .bind (ignores_modifyControl _) fun _ => ignores_record _ _ _

theorem ignores_assemble (limit : DigitLimit) (source : List Char) :
    Ignores view (assemble limit source) (assemble limit source) := by
  unfold assemble
  cases assembleText limit source with
  | error rejection => exact .throw _
  | ok program =>
    exact .bind (.modify fun _ => rfl) fun _ => .bind (ignores_loadAssembled program) fun _ => .pure _

theorem ignores_loadFile (limit : DigitLimit) (bytes : List UInt8) :
    Ignores view (loadFile limit bytes) (loadFile limit bytes) := by
  unfold loadFile
  cases sourceText bytes with
  | ok text => exact ignores_assemble limit text
  | error refusal => exact .throw _

theorem ignores_loadBinary (code : List UInt8) : Ignores view (loadBinary code) (loadBinary code) :=
  .bind ignores_requestStop fun _ => .bind (ignores_loadProgram _) fun _ =>
    .bind ignores_resetProcessor fun _ => ignores_modifyControl _

end Machine

namespace Env.Observed

open Machine

variable {σ δ : Type} {view : σ → δ} {env : Env σ} {plain : Env δ} (observed : env.Observed view plain)
include observed

/-- **Painting the display** ignores those who listen as well. -/
theorem fillDisplay : Ignores view (fillDisplay env) (fillDisplay plain) :=
  .get fun _ => .forM fun _ => .bind (.modify fun _ => rfl) fun _ => observed.tellListeners _ _

theorem reset : Ignores view (reset env) (reset plain) :=
  .bind ignores_requestStop fun _ => .bind ignores_resetProcessor fun _ =>
    .bind (.bind (.modify fun _ => rfl) fun _ => observed.fillDisplay) fun _ =>
    .bind (ignores_modifyDevices _) fun _ => ignores_modifyControl _

/-! ## Runs -/

theorem takeTurn : Ignores view (takeTurn env) (takeTurn plain) := by
  refine .bind ignores_grantStep fun granted => ?_
  match granted with
  | none => exact .pure _
  | some false => exact .pure _
  | some true => exact .bind ignores_getRegs fun _ => ignores_settleStep _ observed.step

/-- **A round of a run ignores its onlookers**, since none of the conditions to end it is about them. -/
theorem turn (limit : Option Nat) (steps : Nat) :
    Ignores view (turn env limit steps) (turn plain limit steps) := by
  refine .get fun m => ?_
  rw [show checks? (m.bare view) limit steps = checks? m limit steps from rfl]
  cases checks? m limit steps with
  | some reason => exact .pure _
  | none => exact observed.takeTurn

theorem proceed (limit : Option Nat) (detached : Bool) (fuel steps : Nat) (turned : Turn) :
    Ignores view (proceed env limit detached fuel steps turned)
      (proceed plain limit detached fuel steps turned) := by
  induction fuel generalizing steps turned with
  | zero =>
    cases turned with
    | next => exact .pure _
    | finish reason => exact .bind (ignores_conclude reason) fun _ => .pure _
    | pause wait => exact .bind (ignores_modifyControl _) fun _ => .pure _
  | succ fuel ih =>
    cases turned with
    -- only another turn uses up fuel
    | next => exact .bind (observed.turn _ _) fun turned => ih _ turned
    | finish reason => exact .bind (ignores_conclude reason) fun _ => .pure _
    | pause wait => exact .bind (ignores_modifyControl _) fun _ => .pure _

theorem begin (fuel : Nat) (limit : Option Nat) (detached : Bool) :
    Ignores view (begin env fuel limit detached) (begin plain fuel limit detached) :=
  .bind (ignores_modifyControl _) fun _ => .bind (observed.turn _ _) fun turned =>
    observed.proceed _ _ _ _ turned

/-- **A whole run ignores its onlookers**, however it ends. -/
theorem run (patience : Nat) (limit : Option Nat) :
    Ignores view (run env patience limit) (run plain patience limit) :=
  .get fun _ => .perhaps (.throw _) (observed.begin _ _ _)

theorem start (patience : Nat) (limit : Option Nat) :
    Ignores view (start env patience limit) (start plain patience limit) :=
  .get fun _ => .perhaps (.throw _) <| .bind (ignores_modifyControl _) fun _ => observed.begin _ _ _

theorem retry (wait : Wait) : Ignores view (retry env wait) (retry plain wait) := by
  cases wait with
  | token => exact observed.takeTurn
  | key ip =>
    exact ignores_settleStep ip <| ignores_guarded ip <| .bind ignores_readKey fun _ =>
      .bind (ignores_modifyRegs _) fun _ => ignores_advance

theorem settle (patience : Nat) : Ignores view (settle env patience) (settle plain patience) := by
  refine .get fun m => ?_
  dsimp only [bare]
  cases m.control.suspension with
  | none => exact .pure _
  | some s =>
    exact .bind (ignores_modifyControl _) fun _ => .bind (observed.retry s.wait) fun turned =>
      (observed.proceed _ _ _ _ turned).discard

theorem stop (patience : Nat) : Ignores view (stop env patience) (stop plain patience) :=
  .get fun _ => .ite (fun _ => .bind ignores_requestStop fun _ => .bind (observed.settle patience)
    fun _ => ignores_clearKeyboard) fun _ => .pure _

end Env.Observed

/-! ## Sessions -/

/-- What can be called from outside. -/
inductive Command
  | assemble (limit : DigitLimit) (source : List Char)
  | loadFile (limit : DigitLimit) (bytes : List UInt8)
  | loadBinary (code : List UInt8)
  | run (patience : Nat) (limit : Option Nat)
  | start (patience : Nat) (limit : Option Nat)
  | settle (patience : Nat)
  | stop (patience : Nat)
  | step
  /-- Lets a halted processor go on. -/
  | resume
  /-- Lets a run in step mode go on freely. -/
  | leaveStepMode
  | requestStep
  | resetProcessor
  | reset
  | press (key : Key)
  deriving DecidableEq, Repr

/-- What comes back. -/
inductive Reply
  | done
  | program (program : Program)
  | ending (ending : Machine.Ending)
  | taken (taken : Bool)
  deriving DecidableEq, Repr

/-- What the call does. -/
def Command.perform {σ : Type} (env : Env σ) : Command → Action σ Reply
  | assemble limit source => do return .program (← Machine.assemble limit source)
  | loadFile limit bytes => do return .program (← Machine.loadFile limit bytes)
  | loadBinary code => do Machine.loadBinary code; return .done
  | run patience limit => do return .ending (← Machine.run env patience limit)
  | start patience limit => do return .ending (← Machine.start env patience limit)
  | settle patience => do Machine.settle env patience; return .done
  | stop patience => do Machine.stop env patience; return .done
  | step => do Machine.step env; return .done
  | resume => do Machine.resumeProcessor; return .done
  | leaveStepMode => do Machine.leaveStepMode; return .done
  | requestStep => do Machine.requestStep; return .done
  | resetProcessor => do Machine.resetProcessor; return .done
  | reset => do Machine.reset env; return .done
  | press key => do return .taken (← Machine.press key)

namespace Machine

variable {σ ρ δ α : Type}

/-- The reply or failure, and the machine behind it. -/
def answered : EStateM.Result Failure (Machine σ) α → Except Failure α × Machine σ
  | .ok a m => (.ok a, m)
  | .error failure m => (.error failure, m)

/-- **One call after the other**, whether they fail or not: what each of them has answered, and the machine
that it has left behind. -/
def session (env : Env σ) : List Command → Machine σ → List (Except Failure Reply × Machine σ)
  | [], _ => []
  | command :: rest, m =>
    let outcome := answered (command.perform env m)
    outcome :: session env rest outcome.2

/-- What is the same on two machines that differ in their onlookers only. -/
structure LooksSame (m : Machine σ) (n : Machine ρ) : Prop where
  regs : m.cpu.regs = n.cpu.regs
  memory : m.memory = n.memory
  mode : m.cpu.mode = n.cpu.mode
  lastFault : m.cpu.lastFault = n.cpu.lastFault
  instructions : m.cpu.instructions = n.cpu.instructions
  devices : m.devices = n.devices
  display : m.display = n.display
  control : m.control = n.control
  operator : m.operator = n.operator
  journal : m.journal = n.journal

theorem looksSame_of_bare {view : σ → δ} {view' : ρ → δ} {m : Machine σ} {n : Machine ρ}
    (same : m.bare view = n.bare view') : LooksSame m n where
  regs := congrArg (·.cpu.regs) same
  memory := congrArg (·.memory) same
  mode := congrArg (·.cpu.mode) same
  lastFault := congrArg (·.cpu.lastFault) same
  instructions := congrArg (·.cpu.instructions) same
  devices := congrArg (·.devices) same
  display := congrArg (·.display) same
  control := congrArg (·.control) same
  operator := congrArg (·.operator) same
  journal := congrArg (·.journal) same

end Machine

namespace Env.Observed

open Machine

variable {σ δ : Type} {view : σ → δ} {env : Env σ} {plain : Env δ} (observed : env.Observed view plain)
include observed

theorem perform (command : Command) : Ignores view (command.perform env) (command.perform plain) := by
  -- each command is made of actions that ignore onlookers
  cases command with
  | assemble limit source => exact .bind (ignores_assemble limit source) fun _ => .pure _
  | loadFile limit bytes => exact .bind (ignores_loadFile limit bytes) fun _ => .pure _
  | loadBinary code => exact .bind (ignores_loadBinary code) fun _ => .pure _
  | run patience limit => exact .bind (observed.run patience limit) fun _ => .pure _
  | start patience limit => exact .bind (observed.start patience limit) fun _ => .pure _
  | settle patience => exact .bind (observed.settle patience) fun _ => .pure _
  | stop patience => exact .bind (observed.stop patience) fun _ => .pure _
  | step => exact .bind observed.step fun _ => .pure _
  | resume => exact .bind ignores_resumeProcessor fun _ => .pure _
  | leaveStepMode => exact .bind (ignores_modifyControl _) fun _ => .pure _
  | requestStep => exact .bind (ignores_modifyControl _) fun _ => .pure _
  | resetProcessor => exact .bind ignores_resetProcessor fun _ => .pure _
  | reset => exact .bind observed.reset fun _ => .pure _
  | press key => exact .bind (ignores_press key) fun _ => .pure _

/-- **A session ignores its onlookers**, call by call. -/
theorem session (commands : List Command) (m : Machine σ) :
    (session env commands m).map (fun outcome => (outcome.1, outcome.2.bare view)) =
      session plain commands (m.bare view) := by
  induction commands generalizing m with
  | nil => rfl
  | cons command rest ih =>
    have ignores := observed.perform command m
    -- the rest of the session begins with the bare machine that the call has left
    rw [Machine.session, Machine.session, List.map_cons, ih, ← ignores]
    cases command.perform env m with
    | ok reply after => rfl
    | error failure after => rfl

end Env.Observed

namespace Machine

variable {σ ρ δ : Type}

/-- **Onlookers do not change execution.** Two machines that differ in nothing but in their onlookers give the
same answers to every sequence of calls, and look the same after each of them. -/
theorem session_looksSame {view : σ → δ} {view' : ρ → δ} {env : Env σ} {env' : Env ρ} {plain : Env δ}
    (observed : env.Observed view plain) (observed' : env'.Observed view' plain) {m : Machine σ}
    {n : Machine ρ} (same : m.bare view = n.bare view') (commands : List Command) :
    List.Forall₂ (fun one other => one.1 = other.1 ∧ LooksSame one.2 other.2) (session env commands m)
      (session env' commands n) := by
  have equal : (session env commands m).map (fun outcome => (outcome.1, outcome.2.bare view)) =
      (session env' commands n).map fun outcome => (outcome.1, outcome.2.bare view') := by
    rw [observed.session, observed'.session, same]
  rw [← List.forall₂_eq_eq_eq, List.forall₂_map_left_iff, List.forall₂_map_right_iff] at equal
  refine equal.imp fun one other equal => ?_
  exact ⟨congrArg Prod.fst equal, looksSame_of_bare (congrArg Prod.snd equal)⟩

/-- A device that is attached to a port gives back what it was given last, and its observers do nothing. -/
def echoing : Env UInt8 where
  notify := fun _ notice =>
    match notice with
    | .write _ value => modify fun m => { m with notes := value }
    | .watch .. | .display .. | .out .. | .lights .. => pure ()
  answer := fun _ _ => do return (← get).notes.toNat

/-- The same device, and observers that only record what they are told. -/
def recording {ν : Type} (record : Notice → ν → ν) : Env (ν × UInt8) where
  notify := fun _ notice =>
    match notice with
    | .write _ value => modify fun m => { m with notes := (m.notes.1, value) }
    | .watch .. | .display .. | .out .. | .lights .. =>
      modify fun m => { m with notes := (record notice m.notes.1, m.notes.2) }
  answer := fun _ _ => do return (← get).notes.2.toNat

/-- **Observers that only record are onlookers**, whatever they record and however. -/
theorem observed_recording {ν : Type} (record : Notice → ν → ν) :
    (recording record).Observed Prod.snd echoing where
  watch := fun _ _ _ _ _ => rfl
  display := fun _ _ _ _ => rfl
  out := fun _ _ _ _ => rfl
  lights := fun _ _ _ _ => rfl
  write := fun _ _ _ _ => rfl
  answer := fun _ _ _ => rfl

/-- The standard ports, and a device at port nine. -/
def echoBus : Bus :=
  { readers := (9, .hook 0) :: Bus.standard.readers, writers := (9, .hook 0) :: Bus.standard.writers }

/-- A machine that is not traced and not watched. -/
def unwatched : Machine (Unit × UInt8) :=
  { simulator ((), 0) with bus := echoBus }

/-- A machine that keeps a trace, and whose display, ports and lights are watched. -/
def watched : Machine (List Notice × UInt8) :=
  { simulator ([], 0) with
    cpu := { tracing := true }
    bus := echoBus
    observers :=
      { watchpoints := [(0xC0, 1)]
        listeners := [.display, .hook 2]
        writeTaps := [(2, 3), (9, 3)]
        lampTaps := [4] } }

/-- The program writes the display and two ports, one of which it reads again, until it pops from an empty
stack. -/
def busy : List Command :=
  [.loadBinary (([(Instr.move .addressImmediate).opcode, 0xC0, 72, Instr.output.opcode, 2,
      Instr.output.opcode, 9, Instr.input.opcode, 9, Instr.popFlags.opcode] : List Nat).map UInt8.ofNat),
    .step, .run 0 (some 2), .run 0 (some 9), .resume, .reset]

theorem session_looksSame_of_busy :
    (recording List.cons).Observed Prod.snd echoing ∧
      (recording fun _ (_ : Unit) => ()).Observed Prod.snd echoing ∧
      watched.bare Prod.snd = unwatched.bare Prod.snd ∧
      List.Forall₂ (fun one other => one.1 = other.1 ∧ LooksSame one.2 other.2)
        (session (recording List.cons) busy watched) (session (recording fun _ _ => ()) busy unwatched) := by
  have same : watched.bare Prod.snd = unwatched.bare Prod.snd := rfl
  exact ⟨observed_recording _, observed_recording _, same,
    session_looksSame (observed_recording _) (observed_recording _) same busy⟩

end Machine

end EightBit
