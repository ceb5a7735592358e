import EightBit.Machine.Execute

/-!
# Runs

The controls of a machine. Those that put a program into it, and the one that clears it, ask a run that is
going on to stop; used from inside the run, by an observer, they then change the machine at once, while the
instruction that woke the observer still has to finish.

A run steps the processor until one of several conditions is met. They are checked before every
instruction, in a fixed order: a stop was requested, the processor is halted, it is faulted, the
limit on instructions is reached, the instruction pointer is at a breakpoint, step mode does not
grant a step. The first instruction of a run is executed even at a breakpoint.

A run can have to wait, for a key or for a step token. It is then suspended, with all that is
needed to go on, until `settle` is called.

## Main Definitions

- `assemble`, `loadFile`, `loadBinary`, `reset`: loading and resetting.
- `checks?`: the conditions, as a function of the machine.
- `turn`: one round of a run.
- `advanceRun`: rounds until the run ends or waits.
- `run`, `start`, `settle`, `stop`: the controls.
-/

namespace EightBit.Machine

/-! ## Loading and resetting -/

/-- Resets the processor. -/
def resetProcessor : Action σ Unit :=
  modify fun m => { m with cpu := m.cpu.reset }

/-- Lets a halted processor go on. -/
def resumeProcessor : Action σ Unit :=
  modify fun m => { m with cpu := m.cpu.resume }

/-- Asks a run to stop, and cancels a keyboard read it may be waiting in. Without a run there is
nothing to stop. -/
def requestStop : Action σ Unit := do
  if (← get).control.running then
    modifyControl fun control => { control with stopRequested := true }
    abortKeyboard

/-- Loads an assembled program and resets the processor. -/
def loadAssembled (program : Program) : Action σ Unit := do
  requestStop
  loadProgram program.code
  resetProcessor
  modifyControl fun control => { control with program := some program }
  record .info .simulator ("Program loaded: " ++ toString program.code.length ++ " bytes")

/-- The record that a source was assembled. -/
def assembledRecord (program : Program) : Journal.Record :=
  ⟨.debug, .assembler,
    "Assembled " ++ toString program.code.length ++ " bytes, " ++
      toString program.symbols.length ++ " labels"⟩

/-- Assembles a source and loads the program. A source that does not assemble leaves the machine
alone. -/
def assemble (limit : DigitLimit) (source : List Char) : Action σ Program := do
  match assembleText limit source with
  | .error rejection => refuse (.ofRejection rejection)
  | .ok program =>
    modify fun m => { m with journal := assembledRecord program :: m.journal }
    loadAssembled program
    return program

/-- The text of a source file: UTF-8, with its line ends made uniform. -/
def sourceText (bytes : List UInt8) : Except Refusal (List Char) :=
  match Text.decodeUtf8 bytes with
  | .ok text => .ok (Text.normalizeNewlines text)
  | .error error => .error (.undecodable error)

/-- Assembles a source file and loads the program. -/
def loadFile (limit : DigitLimit) (bytes : List UInt8) : Action σ Program := do
  match sourceText bytes with
  | .ok text => assemble limit text
  | .error refusal => refuse refusal

/-- Loads plain code, which has no source lines, and resets the processor. -/
def loadBinary (code : List UInt8) : Action σ Unit := do
  -- the stop stands even if the code turns out to be too large
  requestStop
  loadProgram code
  resetProcessor
  modifyControl fun control => { control with program := none }

/-- Resets processor, memory and devices. -/
def reset (env : Env σ) : Action σ Unit := do
  requestStop
  resetProcessor
  resetMemory env
  modifyDevices fun _ => {}
  -- the program is kept, so its source lines can still be looked up
  modifyControl fun control => { control with lastReason := none }

/-! ## Runs -/

/-- What one round of a run leads to. -/
inductive Turn
  /-- An instruction was completed. -/
  | next
  /-- The run has ended. -/
  | finish (reason : StopReason)
  /-- The run has to wait. -/
  | pause (wait : Wait)
  deriving DecidableEq, Repr

/-- How a run was left. -/
inductive Ending
  /-- It has ended. -/
  | done (reason : StopReason)
  /-- It is suspended. -/
  | waiting (wait : Wait)
  /-- It has used up the rounds it was given. -/
  | unfinished
  deriving DecidableEq, Repr

/-- The reason of a run that has ended. -/
def Ending.reason? : Ending → Option StopReason
  | .done reason => some reason
  | _ => none

/-! ## One round -/

/-- The reason to end a run before its next instruction, when it has done `steps` of them. -/
def checks? (m : Machine σ) (limit : Option Nat) (steps : Nat) : Option StopReason :=
  if m.control.stopRequested then some .stopped
  else if m.cpu.mode = .halted then some .halt
  else if m.cpu.mode = .faulted then some .fault
  else if limit.any (· ≤ steps) then some .timeout
  -- a run may begin at a breakpoint
  else if steps ≠ 0 ∧ m.cpu.regs.ip ∈ m.control.breakpoints then some .breakpoint
  else none

/-- Step mode has no token, and no stop was requested. -/
def lacksToken (control : Control) : Bool :=
  control.stepMode && control.tokens == 0 && !control.stopRequested

/-- Grants a step token. -/
def requestStep : Action σ Unit :=
  modifyControl fun control => { control with tokens := control.tokens + 1 }

/-- Leaves step mode. -/
def leaveStepMode : Action σ Unit :=
  modifyControl fun control => { control with stepMode := false }

/-- Does what the operator does when step mode has no token. -/
def followPolicy : Action σ Unit := do
  match (← get).operator.policy with
  | .stop => requestStop
  | .resume => leaveStepMode
  | .step => requestStep
  | .wait => pure ()

/-- Whether step mode lets the next instruction be executed: `none` while it has to be waited for.
A token is used up if there is one. -/
def grantStep : Action σ (Option Bool) := do
  if !(← get).control.stepMode then return some true
  if lacksToken (← get).control then followPolicy
  let control := (← get).control
  if lacksToken control then return none
  -- a stop takes no token
  if control.stopRequested then return some false
  modifyControl fun control => { control with tokens := control.tokens - 1 }
  return some true

/-- What a step leads to. -/
def settleStep (ip : Int) (work : Action σ Unit) : Action σ Turn :=
  tryCatch (do work; return .next) fun failure => do
    match failure with
    | .fault fault =>
      let line := (← get).currentLine?.elim "None" toString
      record .warning .simulator ("Fault on line " ++ line ++ ": " ++ fault.message)
      return .finish .fault
    -- not every abort of a read comes from a stop
    | .aborted => return .finish (if (← get).control.stopRequested then .stopped else .aborted)
    | .waiting => return .pause (.key ip)
    | other => throw other

/-- Executes the next instruction, once step mode grants it. -/
def takeTurn (env : Env σ) : Action σ Turn := do
  match ← grantStep with
  | none => return .pause .token
  | some false => return .finish .stopped
  | some true => settleStep (← getRegs).ip (step env)

/-- One round of a run that has done `steps` instructions. -/
def turn (env : Env σ) (limit : Option Nat) (steps : Nat) : Action σ Turn := do
  match checks? (← get) limit steps with
  | some reason => return .finish reason
  | none => takeTurn env

/-! ## Whole runs -/

/-- Ends a run. If a stop was requested, a key or abort marker that was not consumed is dropped. -/
def conclude (reason : StopReason) : Action σ Unit := do
  modifyControl fun control => { control with lastReason := some reason }
  -- the abort marker of a stop may not reach the next run
  if (← get).control.stopRequested then clearKeyboard
  modifyControl fun control => { control with running := false, suspension := none }
  let cpu := (← get).cpu
  record .info .simulator
    ("Stopped: " ++ reason.name ++ " after " ++ toString cpu.instructions ++
      " instructions (IP=" ++ String.ofList (Numeral.hexAddress cpu.regs.ip) ++ ")")

/-- Goes on from what a round has led to; `fuel` bounds the number of rounds to come. -/
def proceed (env : Env σ) (limit : Option Nat) (detached : Bool) :
    Nat → Nat → Turn → Action σ Ending
  | _, _, .finish reason => do
    conclude reason
    return .done reason
  | _, steps, .pause wait => do
    modifyControl fun control =>
      { control with suspension := some { limit, steps, wait, detached } }
    return .waiting wait
  | 0, _, .next => return .unfinished
  | fuel + 1, steps, .next => do
    proceed env limit detached fuel (steps + 1) (← turn env limit (steps + 1))

/-- Begins a run and goes on until it ends or waits. -/
def begin (env : Env σ) (fuel : Nat) (limit : Option Nat) (detached : Bool) :
    Action σ Ending := do
  modifyControl fun control => { control with running := true, stopRequested := false }
  proceed env limit detached fuel 0 (← turn env limit 0)

/-- Enough rounds for a run with a limit; without one, as many as are asked for. -/
def rounds (limit : Option Nat) (patience : Nat) : Nat :=
  limit.elim patience (· + 1)

/-- Runs until one of the conditions is met. -/
def run (env : Env σ) (patience : Nat) (limit : Option Nat) : Action σ Ending := do
  if (← get).control.running then refuse .alreadyRunning
  begin env (rounds limit patience) limit false

/-- Starts a run of its own, with no step tokens left over from earlier. -/
def start (env : Env σ) (patience : Nat) (limit : Option Nat) : Action σ Ending := do
  if (← get).control.running then refuse .alreadyRunning
  modifyControl fun control => { control with tokens := 0 }
  begin env (rounds limit patience) limit true

/-- Does again what a suspended run was waiting in. -/
def retry (env : Env σ) : Wait → Action σ Turn
  | .token => takeTurn env
  | .key ip => settleStep ip (guarded ip do receive (← readKey))

/-- Lets a suspended run go on, as far as it can. -/
def settle (env : Env σ) (patience : Nat) : Action σ Unit := do
  match (← get).control.suspension with
  | none => return
  | some s =>
    -- should the run have to wait once more, this becomes another suspension
    modifyControl fun control => { control with suspension := none }
    discard (proceed env s.limit s.detached (rounds s.limit patience) s.steps
      (← retry env s.wait))

/-- Stops a suspended run from outside, and waits for its end. -/
def stop (env : Env σ) (patience : Nat) : Action σ Unit := do
  if (← get).control.running then
    requestStop
    settle env patience
    -- the run may have ended without taking the abort marker
    clearKeyboard

/-- The reason of the last run, unless one that was started is still going on. -/
def awaited? (m : Machine σ) : Option StopReason :=
  if m.control.suspension.any (·.detached) then none else m.control.lastReason

end EightBit.Machine
