import EightBit.Machine.Run
import EightBit.Proofs.Machine.Local

/-!
# Properties that Steps and Runs Keep

An invariant that is not about the processor is none of an instruction's business: only stores, observers
and attached devices could break it. If they keep it, every step does, whether it completes or fails.

What a run does besides its steps concerns the control panel, the keyboard and the journal. An invariant that
is about other things, the processor among them, is kept by every run whose steps keep it, however it ends.

## Main Definitions

- `Aloof`: a property that has nothing to do with the processor and what is attached to it.
- `takeToken`: the last part of granting a step.
- `Lasting`: one that has nothing to do with what a run does besides its steps.
- `Detached`: one that is aloof, and has nothing to do with the control panel either.
- `Enduring`: one that stores, loads, observers and attached devices keep.

## Main Statements

- `Aloof.step`: steps keep what stores and observers keep.
- `Lasting.run`: runs keep what their steps keep.
- `Enduring.assemble`, `Enduring.reset`: loading and resetting keep what their parts keep.
-/

namespace EightBit

namespace Machine

variable {σ α β : Type} {P : Machine σ → Prop}

/-! ## Steps of a run -/

/-- What a step leads to keeps the property if the step and the journal do. -/
theorem Keeps.settleStep {work : Action σ Unit} (worked : Keeps P work)
    (record : ∀ level part text, Keeps P (record level part text : Action σ Unit)) (ip : Int) :
    Keeps P (settleStep ip work) := by
  refine .tryCatch (worked.bind fun _ => .pure _) fun failure => ?_
  cases failure with
  | fault fault => exact .get fun m => .bind (record _ _ _) fun _ => .pure _
  | aborted => exact .get fun m => .pure _
  | waiting => exact .pure _
  | trap trap => exact .throw _
  | outOfBounds access => exact .throw _
  | refused refusal => exact .throw _

/-! ## Properties that are not about the processor -/

/-- The property has nothing to do with the processor, the devices and the operator, and what is written
down does not matter for it. -/
structure Aloof (P : Machine σ → Prop) : Prop where
  keeps : ∀ m cpu devices operator journal notes, P m →
    P { m with cpu, devices, operator, journal, notes }

theorem Aloof.toCentral (aloof : Aloof P) : Central P where
  keeps := fun m _ _ _ holds => aloof.keeps m _ _ _ _ _ holds

theorem Aloof.and {Q : Machine σ → Prop} (aloof : Aloof P) (other : Aloof Q) :
    Aloof fun m => P m ∧ Q m where
  keeps := fun m _ _ _ _ _ holds =>
    ⟨aloof.keeps m _ _ _ _ _ holds.1, other.keeps m _ _ _ _ _ holds.2⟩

/-- The two machines are the same one, and it has the property. -/
def Still (P : Machine σ → Prop) (m n : Machine σ) : Prop :=
  n = m ∧ P m

/-- A property that an action keeps is a relation of a machine to itself that it keeps. -/
theorem keeps_iff_coupled {action : Action σ α} :
    Keeps P action ↔ Coupled (Still P) action action (Still P) fun _ => Still P := by
  -- the second machine is the same as the first, so that coupling is keeping
  constructor
  · rintro keeps m _ ⟨rfl, holds⟩
    have kept := keeps.ensures _ holds
    cases ran : action _ with
    | ok a after =>
      rw [ran] at kept
      exact .ok ⟨rfl, kept⟩
    | error failure after =>
      rw [ran] at kept
      exact .error ⟨rfl, kept⟩
  · refine fun coupled => ⟨fun m holds => ?_⟩
    have paired := coupled m m ⟨rfl, holds⟩
    cases ran : action m with
    | ok a after =>
      rw [ran] at paired
      obtain ⟨_, -, kept⟩ := paired.of_ok
      exact kept.2
    | error failure after =>
      rw [ran] at paired
      obtain ⟨_, -, kept⟩ := paired.of_error
      exact kept.2

section Aloof

variable (aloof : Aloof P)
include aloof

theorem Aloof.modeless : Modeless (Still P) where
  same := by
    rintro _ m ⟨rfl, -⟩
    rfl
  -- nothing that the property looks at can be reached by any of these changes
  processor := by
    rintro _ m cpu ⟨rfl, holds⟩ - -
    exact ⟨rfl, aloof.keeps m cpu _ _ _ _ holds⟩
  devices := by
    rintro _ m devices ⟨rfl, holds⟩ -
    exact ⟨rfl, aloof.keeps m _ devices _ _ _ holds⟩
  notes := by
    rintro _ m notes ⟨rfl, holds⟩
    exact ⟨rfl, aloof.keeps m _ _ _ _ notes holds⟩
  journal := by
    rintro _ m record ⟨rfl, holds⟩
    exact ⟨rfl, aloof.keeps m _ _ _ (record :: m.journal) _ holds⟩
  freely := by
    rintro _ m cpu ⟨rfl, holds⟩ -
    exact ⟨rfl, aloof.keeps m cpu _ _ _ _ holds⟩

theorem Aloof.keyed : Keyed (Still P) where
  toAround := aloof.modeless.toAround
  operator_eq := by
    -- both machines are one and the same, so a change only has to keep the property
    rintro _ m ⟨rfl, -⟩
    rfl
  operator := by
    rintro _ m operator ⟨rfl, holds⟩
    exact ⟨rfl, aloof.keeps m _ _ operator _ _ holds⟩
  keyboard := by
    rintro _ m devices ⟨rfl, holds⟩
    exact ⟨rfl, aloof.keeps m _ devices _ _ _ holds⟩

theorem Aloof.of_local {action : Action σ α} (acts : Local action) : Keeps P action :=
  keeps_iff_coupled.2 <| (acts _ aloof.modeless.toAround).mono (fun _ _ still => still)
    (fun _ _ still => still) fun _ _ _ failed => failed.2

theorem Aloof.of_private {action : Action σ α} (own : Private action) : Keeps P action :=
  keeps_iff_coupled.2 <| (own.coupled aloof.modeless.toAround).mono (fun _ _ still => still)
    (fun _ _ still => still) fun _ _ _ failed => failed.2

theorem Aloof.modifyProcessor (f : Processor → Processor) :
    Keeps P (modify fun m => { m with cpu := f m.cpu } : Action σ Unit) :=
  .modify fun m holds => aloof.keeps m (f m.cpu) _ _ _ _ holds

/-! ### Parts of a step -/

theorem Aloof.halt : Keeps P (halt : Action σ Unit) :=
  keeps_iff_coupled.2 aloof.modeless.halt

theorem Aloof.receive (value : UInt8) : Keeps P (receive value : Action σ Unit) :=
  keeps_iff_coupled.2 (aloof.modeless.receive value)

theorem Aloof.complete (ip : Int) : Keeps P (complete ip : Action σ Unit) :=
  keeps_iff_coupled.2 (aloof.modeless.complete ip)

theorem Aloof.latch (reason : FaultReason) (ip : Int) : Keeps P (latch reason ip : Action σ Unit) :=
  keeps_iff_coupled.2 <| (aloof.modeless.latch reason ip).mono (fun _ _ still => still)
    (fun _ _ still => still) fun _ _ _ failed => failed.2

theorem Aloof.recover (ip : Int) (failure : Failure) :
    Keeps P (recover ip failure : Action σ Unit) := by
  cases failure with
  | trap trap => exact aloof.latch _ _
  | outOfBounds access => exact aloof.latch _ _
  | refused refusal => exact aloof.latch _ _
  | fault fault => exact aloof.latch _ _
  | waiting => exact .throw _
  | aborted => exact .bind (aloof.of_local (local_modifyRegs _)) fun _ => .throw _

/-- To read the key that an input has waited for. -/
theorem Aloof.receiveKey (ip : Int) :
    Keeps P (guarded ip (do Machine.receive (← Machine.readKey)) : Action σ Unit) :=
  .bind (.tryCatch (.bind aloof.toCentral.readKey fun _ => aloof.receive _) fun _ =>
    aloof.recover ip _) fun _ => aloof.complete ip

theorem Aloof.refault : Keeps P (refault : Action σ Unit) := by
  refine .get fun m => ?_
  dsimp only
  split
  · exact .throw _
  · exact .bind (.modify fun m holds => aloof.keeps m _ _ _ _ _ holds) fun _ => .throw _

/-- Inputs keep the property if the attached devices do. -/
theorem Aloof.input {env : Env σ} (answer : ∀ hook port, Keeps P (env.answer hook port)) :
    Keeps P (input env) :=
  .bind (aloof.of_local local_fetch) fun _ => .bind (aloof.toCentral.readPort answer _) fun _ =>
    aloof.receive _

/-- Stores keep the property if a byte that is written does, and if observers keep it. -/
theorem Aloof.keeps_store {env : Env σ} (notify : ∀ hook notice, Keeps P (env.notify hook notice))
    (shown : ∀ m display, P m → P { m with display })
    (written : ∀ m address value, P m → P { m with memory := m.memory.write address value })
    (address value : Int) : Keeps P (store env address value) := by
  refine .bind (aloof.of_local (local_load _)) fun old => .bind (.modify fun m holds =>
    written m _ _ holds) fun _ => .get fun m => .bind (.forM fun hook => notify hook _) fun _ => ?_
  split
  · exact keeps_tellListeners (fun hook => notify hook _) shown
  · exact .pure _

section Step

variable {env : Env σ} (notify : ∀ hook notice, Keeps P (env.notify hook notice))
  (answer : ∀ hook port, Keeps P (env.answer hook port))
  (stores : ∀ address value, Keeps P (store env address value))
include notify answer stores

theorem Aloof.carries : env.Carries (Still P) (Still P) fun _ => Still P where
  around := aloof.modeless.toAround
  modeless := aloof.modeless
  loosen := fun _ _ still => still
  internal := fun _ _ _ _ still => still
  fault := fun _ _ _ still => still
  settle := fun _ _ _ still => still
  rewind := by
    -- the pointer of an instruction that is aborted is part of the processor
    rintro _ m ip ⟨rfl, holds⟩
    exact ⟨rfl, aloof.keeps m _ _ _ _ _ holds⟩
  notify := fun hook notice => keeps_iff_coupled.1 (notify hook notice)
  answer := fun hook port => keeps_iff_coupled.1 (answer hook port)
  store := fun address value => keeps_iff_coupled.1 (stores address value)

theorem Aloof.writePort (port value : Int) : Keeps P (writePort env port value) :=
  keeps_iff_coupled.2 ((aloof.carries notify answer stores).writePort port value)

/-- **Steps keep the property**, completed or not. -/
theorem Aloof.step : Keeps P (step env) :=
  keeps_iff_coupled.2 ((aloof.carries notify answer stores).step aloof.keyed.readKey)

end Step

end Aloof

/-! ## Properties that are not about the course of a run -/

/-- The end of granting a step, once the operator has been asked: a token is used up, unless there is none, or
a stop was requested. -/
def takeToken : Action σ (Option Bool) := do
  let control := (← get).control
  if lacksToken control then return none
  if control.stopRequested then return some false
  modifyControl fun control => { control with tokens := control.tokens - 1 }
  return some true

/-- The property has nothing to do with devices and journal, nor with the control panel except for the program
that is loaded. -/
structure Lasting (P : Machine σ → Prop) : Prop where
  keeps : ∀ m devices control journal, control.program = m.control.program → P m →
    P { m with devices, control, journal }

section Lasting

variable (lasting : Lasting P)
include lasting

theorem Lasting.modifyControl {f : Control → Control}
    (sameProgram : ∀ control, (f control).program = control.program) :
    Keeps P (modifyControl f : Action σ Unit) :=
  .modify fun m holds => lasting.keeps m _ (f m.control) _ (sameProgram _) holds

theorem Lasting.modifyDevices (f : Devices → Devices) : Keeps P (modifyDevices f : Action σ Unit) :=
  .modify fun m holds => lasting.keeps m (f m.devices) _ _ rfl holds

theorem Lasting.record (level : Journal.Level) (part : Journal.Part) (text : String) :
    Keeps P (record level part text : Action σ Unit) :=
  .modify fun m holds => lasting.keeps m _ _ _ rfl holds

theorem Lasting.requestStop : Keeps P (requestStop : Action σ Unit) := by
  refine .get fun m => ?_
  split
  · exact .bind (lasting.modifyControl fun _ => rfl) fun _ => lasting.modifyDevices _
  · exact .pure _

/-! ### Rounds -/

theorem Lasting.followPolicy : Keeps P (followPolicy : Action σ Unit) := by
  refine .get fun m => ?_
  cases m.operator.policy with
  | stop => exact lasting.requestStop
  | resume => exact lasting.modifyControl fun _ => rfl
  | step => exact lasting.modifyControl fun _ => rfl
  | wait => exact .pure _

theorem Lasting.takeToken : Keeps P (takeToken : Action σ (Option Bool)) := by
  refine .get fun m => ?_
  dsimp only
  split
  · exact .pure _
  split
  · exact .pure _
  · exact .bind (lasting.modifyControl fun _ => rfl) fun _ => .pure _

theorem Lasting.grantStep : Keeps P (grantStep : Action σ (Option Bool)) := by
  refine .get fun m => ?_
  split
  · exact .pure _
  refine .get fun m => ?_
  split
  · exact .bind lasting.followPolicy fun _ => lasting.takeToken
  · exact lasting.takeToken

theorem Lasting.settleStep (ip : Int) {work : Action σ Unit} (worked : Keeps P work) :
    Keeps P (settleStep ip work) :=
  worked.settleStep lasting.record ip

/-! ### Runs -/

theorem Lasting.conclude (reason : StopReason) : Keeps P (conclude reason : Action σ Unit) := by
  have reports : Keeps P (do
      Machine.modifyControl fun control => { control with running := false, suspension := none }
      let cpu := (← get).cpu
      Machine.record .info .simulator
        ("Stopped: " ++ reason.name ++ " after " ++ toString cpu.instructions ++
          " instructions (IP=" ++ String.ofList (Numeral.hexAddress cpu.regs.ip) ++ ")")
      : Action σ Unit) :=
    .bind (lasting.modifyControl fun _ => rfl) fun _ => .get fun m => lasting.record _ _ _
  refine .bind (lasting.modifyControl fun _ => rfl) fun _ => .get fun m => ?_
  -- a stop that was requested ends the attachment of devices besides
  split
  · exact .bind (lasting.modifyDevices _) fun _ => reports
  · exact reports

section Run

variable {env : Env σ} (steps : Keeps P (step env)) {limit : Option Nat}
include steps

theorem Lasting.takeTurn : Keeps P (takeTurn env) := by
  refine .bind lasting.grantStep fun granted => ?_
  rcases granted with _ | _ | _
  · exact .pure _
  · exact .pure _
  · exact .bind (.get fun now => .pure _) fun regs => lasting.settleStep regs.ip steps

theorem Lasting.turn (done : Nat) : Keeps P (turn env limit done) := by
  refine .get fun m => ?_
  cases checks? m limit done with
  | some reason => exact .pure _
  | none => exact lasting.takeTurn steps

theorem Lasting.proceed (detached : Bool) (fuel done : Nat) (turned : Turn) :
    Keeps P (proceed env limit detached fuel done turned) := by
  induction fuel generalizing done turned with
  | zero =>
    cases turned with
    | finish reason => exact .bind (lasting.conclude reason) fun _ => .pure _
    | pause wait => exact .bind (lasting.modifyControl fun _ => rfl) fun _ => .pure _
    | next => exact .pure _
  | succ fuel ih =>
    cases turned with
    | finish reason => exact .bind (lasting.conclude reason) fun _ => .pure _
    | pause wait => exact .bind (lasting.modifyControl fun _ => rfl) fun _ => .pure _
    | next => exact .bind (lasting.turn steps _) fun turned => ih _ turned

theorem Lasting.begin (fuel : Nat) (detached : Bool) : Keeps P (begin env fuel limit detached) :=
  .bind (lasting.modifyControl fun _ => rfl) fun _ => .bind (lasting.turn steps 0) fun turned =>
    lasting.proceed steps _ _ 0 turned

/-- **Runs keep the property**, however they end. -/
theorem Lasting.run (patience : Nat) : Keeps P (run env patience limit) := by
  have begins : Keeps P (Machine.begin env (rounds limit patience) limit false) :=
    lasting.begin steps _ _
  refine .get fun m => ?_
  split
  · exact .bind (.throw _) fun _ => begins
  · exact begins

end Run

end Lasting

/-! ## Properties that are not about the control panel -/

/-- The property has nothing to do with the control panel either. -/
structure Detached (P : Machine σ → Prop) : Prop extends Aloof P where
  control : ∀ m control, P m → P { m with control }

section Detached

variable (detached : Detached P)
include detached

theorem Detached.lasting : Lasting P where
  keeps := fun m devices control journal _ holds =>
    detached.control _ control (detached.keeps m _ devices _ journal _ holds)

theorem Detached.modifyControl (f : Control → Control) :
    Keeps P (modifyControl f : Action σ Unit) :=
  .modify fun m holds => detached.control m (f m.control) holds

/-! ### Suspended runs -/

section Suspended

variable {env : Env σ} (steps : Keeps P (step env))
include steps

theorem Detached.retry (wait : Wait) : Keeps P (retry env wait) := by
  cases wait with
  | token => exact detached.lasting.takeTurn steps
  | key ip => exact detached.lasting.settleStep ip (detached.receiveKey ip)

/-- **Letting a suspended run go on** keeps the property as well. -/
theorem Detached.settle (patience : Nat) : Keeps P (settle env patience) := by
  refine .get fun m => ?_
  cases m.control.suspension with
  | none => exact .pure _
  | some s =>
    refine .bind (detached.modifyControl _) fun _ => .bind (detached.retry steps s.wait) fun turned => ?_
    exact (detached.lasting.proceed steps _ _ _ turned).discard

theorem Detached.start (patience : Nat) (limit : Option Nat) : Keeps P (start env patience limit) := by
  -- an attached run throws away its tokens before it begins, whether or not another one had been going on
  have begins : Keeps P (do
      Machine.modifyControl fun control => { control with tokens := 0 }
      begin env (rounds limit patience) limit true) :=
    .bind (detached.modifyControl _) fun _ => detached.lasting.begin steps _ _
  refine .get fun m => ?_
  split
  · exact .bind (.throw _) fun _ => begins
  · exact begins

theorem Detached.stop (patience : Nat) : Keeps P (stop env patience) := by
  refine .get fun m => ?_
  split
  · exact .bind detached.lasting.requestStop fun _ => .bind (detached.settle steps patience) fun _ =>
      detached.toCentral.modifyDevices _
  · exact .pure _

end Suspended

end Detached

/-! ## Properties that everything keeps -/

/-- A detached property that the parts of a machine keep which it is about: stores, program loads and clearing,
observers and attached devices. More listeners do not matter for it, nor do other observers. -/
structure Enduring (P : Machine σ → Prop) (env : Env σ) : Prop extends Detached P where
  notify : ∀ hook notice, Keeps P (env.notify hook notice)
  answer : ∀ hook port, Keeps P (env.answer hook port)
  store : ∀ address value, Keeps P (Machine.store env address value)
  loadProgram : ∀ code, Keeps P (Machine.loadProgram code)
  resetMemory : Keeps P (Machine.resetMemory env)
  attach : ∀ m observers, m.observers.listeners ⊆ observers.listeners → P m → P { m with observers }

section Enduring

variable {env : Env σ} (enduring : Enduring P env)
include enduring

theorem Enduring.step : Keeps P (Machine.step env) :=
  enduring.toAloof.step enduring.notify enduring.answer enduring.store

theorem Enduring.run (patience : Nat) (limit : Option Nat) : Keeps P (Machine.run env patience limit) :=
  enduring.lasting.run enduring.step patience

theorem Enduring.loadAssembled (program : Program) : Keeps P (Machine.loadAssembled program) :=
  .bind enduring.lasting.requestStop fun _ => .bind (enduring.loadProgram _) fun _ =>
    .bind (enduring.modifyProcessor _) fun _ => .bind (enduring.modifyControl _) fun _ =>
      enduring.toCentral.record _ _ _

theorem Enduring.assemble (limit : DigitLimit) (source : List Char) :
    Keeps P (Machine.assemble limit source) := by
  unfold Machine.assemble
  cases assembleText limit source with
  | error rejection => exact .throw _
  | ok program =>
    refine .bind (.modify fun m holds => ?_) fun _ => .bind (enduring.loadAssembled program) fun _ =>
      .pure _
    exact enduring.keeps m _ _ _ _ _ holds

theorem Enduring.loadFile (limit : DigitLimit) (bytes : List UInt8) :
    Keeps P (Machine.loadFile limit bytes) := by
  unfold Machine.loadFile
  cases sourceText bytes with
  | ok text => exact enduring.assemble limit text
  | error refusal => exact .throw _

theorem Enduring.loadBinary (code : List UInt8) : Keeps P (Machine.loadBinary code) :=
  .bind enduring.lasting.requestStop fun _ => .bind (enduring.loadProgram _) fun _ =>
    .bind (enduring.modifyProcessor _) fun _ => enduring.modifyControl _

theorem Enduring.reset : Keeps P (Machine.reset env) :=
  .bind enduring.lasting.requestStop fun _ => .bind (enduring.modifyProcessor _) fun _ =>
    .bind enduring.resetMemory fun _ => .bind (enduring.toCentral.modifyDevices _) fun _ =>
      enduring.modifyControl _

end Enduring

/-- **What is said of memory alone endures** if bytes that are written keep it, and program regions that are
replaced. Observers and attached devices may do anything that keeps it as well. -/
theorem enduring_memory {Q : Memory → Prop} {env : Env σ}
    (notify : ∀ hook notice, Keeps (fun m => Q m.memory) (env.notify hook notice))
    (answer : ∀ hook port, Keeps (fun m => Q m.memory) (env.answer hook port))
    (written : ∀ memory address value, Q memory → Q (memory.write address value))
    (filled : ∀ memory code, code.length ≤ programLimit → Q memory → Q (memory.fill code)) :
    Enduring (fun m => Q m.memory) env := by
  -- the property is one of memory, so devices, processor and control panel are no matter
  have detached : Detached fun m : Machine σ => Q m.memory :=
    { keeps := fun _ _ _ _ _ _ holds => holds
      control := fun _ _ holds => holds }
  have tells (address : Int) (value : UInt8) :
      Keeps (fun m => Q m.memory) (tellListeners env address value) :=
    keeps_tellListeners (fun hook => notify hook _) fun _ _ holds => holds
  refine { detached with notify, answer, store := ?_, loadProgram := ?_, resetMemory := ?_, attach := ?_ }
  -- three operations write memory: a store, a load of a program, and a reset
  · exact detached.keeps_store notify (fun _ _ holds => holds) fun m => written m.memory
  · intro code
    have loads (fits : code.length ≤ programLimit) : Keeps (fun m : Machine σ => Q m.memory) (do
        modify fun m => { m with memory := m.memory.fill code }
        record .debug .memory ("Loaded " ++ toString code.length ++ " bytes of machine code")) :=
      .bind (.modify fun m holds => filled m.memory code fits holds) fun _ =>
        detached.toCentral.record _ _ _
    unfold loadProgram
    -- a program that is too large changes nothing
    split
    · exact ⟨fun m holds => holds⟩
    · next fits => exact loads (Nat.le_of_not_lt fits)
  · have paints : Keeps (fun m => Q m.memory) (fillDisplay env) :=
      .get fun _ => .forM fun address =>
        .bind (.modify fun m holds => written m.memory address displayFill holds) fun _ => tells _ _
    exact .bind (.modify fun m holds => filled m.memory [] (Nat.zero_le _) holds) fun _ => paints
  · exact fun _ _ _ holds => holds

end Machine

end EightBit
