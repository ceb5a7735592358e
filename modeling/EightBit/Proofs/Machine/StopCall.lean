import EightBit.Proofs.Machine.Keeping
import EightBit.Proofs.Machine.Requests

/-!
# Stop Requests Under Way

An observer that calls for a stop is told of something while an instruction is being executed. The call
leaves two marks: the request on the control panel, and the abort marker in the keyboard. The rest of the
instruction looks at neither of them, so it does the same as without the call.

Two environments are compared: the observers of the one do what those of the other do, and may call for a
stop on the way. An instruction is executed on the same machine in both of them.

## Main Definitions

- `Machine.called`: a machine on which a stop was called for.
- `PerhapsCalled`: two machines that are the same, unless a stop was called for on the second one.
- `Calls`: an action that does what another one does, and may call for a stop.
- `Env.Calls`: observers and attached devices that do.

## Main Statements

- `calls_requestStop`: what may call for a stop.
- `Env.Calls.step`: a step does the same, whether a stop is called for or not.
-/

namespace EightBit

namespace Machine

variable {σ α β : Type}

/-! ## The marks of a call -/

/-- The machine on which a stop was called for; keyboard and journal may have changed since then. -/
def called (m : Machine σ) (keyboard : Keyboard) (journal : List Journal.Record) : Machine σ :=
  { m with
    control := { m.control with stopRequested := true }
    devices := { m.devices with keyboard }
    journal }

/-- A run is going on. Only then can a stop be called for. -/
def Going (m : Machine σ) : Prop :=
  m.control.running = true

theorem aloof_going : Aloof (Going : Machine σ → Prop) where
  keeps := fun _ _ _ _ _ _ going => going

/-- **A stop may have been called for** on the second machine. Otherwise it is the first one. -/
inductive PerhapsCalled (m : Machine σ) : Machine σ → Prop
  | same (going : Going m) : PerhapsCalled m m
  | called {keyboard journal} (going : Going m) : PerhapsCalled m (m.called keyboard journal)

theorem PerhapsCalled.going {m n : Machine σ} (perhaps : PerhapsCalled m n) : Going m := by
  cases perhaps with
  | same going => exact going
  | called going => exact going

theorem PerhapsCalled.of_still {m n : Machine σ} (still : Still Going m n) : PerhapsCalled m n := by
  obtain ⟨rfl, going⟩ := still
  exact .same going

/-- Where no stop is requested, none was called for. -/
theorem PerhapsCalled.eq_of_calm {m n : Machine σ} (perhaps : PerhapsCalled m n)
    (calm : n.control.stopRequested = false) : n = m := by
  cases perhaps with
  | same going => rfl
  | called going => cases calm

/-- Where a stop is requested, one was called for. -/
theorem PerhapsCalled.exists_called {m n : Machine σ} (perhaps : PerhapsCalled m n)
    (calm : m.control.stopRequested = false) (requested : n.control.stopRequested = true) :
    ∃ keyboard journal, n = m.called keyboard journal := by
  cases perhaps with
  | same going =>
    rw [calm] at requested
    cases requested
  | called going => exact ⟨_, _, rfl⟩

theorem PerhapsCalled.breakpoints_eq {m n : Machine σ} (perhaps : PerhapsCalled m n) :
    n.control.breakpoints = m.control.breakpoints := by
  cases perhaps <;> rfl

/-- **The second action calls for a stop, perhaps**, and does what the first one does. -/
def Calls (plain told : Action σ α) : Prop :=
  Coupled PerhapsCalled plain told PerhapsCalled fun _ => PerhapsCalled

/-- Actions that are executed where no stop was called for so far. -/
def CallsFirst (plain told : Action σ α) : Prop :=
  Coupled (Still Going) plain told PerhapsCalled fun _ => PerhapsCalled

/-! ## Rules -/

section Rules

theorem Calls.first {plain told : Action σ α} (calls : Calls plain told) : CallsFirst plain told :=
  calls.mono (fun _ _ => .of_still) (fun _ _ perhaps => perhaps) fun _ _ _ perhaps => perhaps

theorem Calls.pure (a : α) : Calls (pure a : Action σ α) (pure a) :=
  Coupled.pure fun _ _ perhaps => perhaps

theorem Calls.throw (failure : Failure) : Calls (throw failure : Action σ α) (throw failure) :=
  Coupled.throw fun _ _ perhaps => perhaps

theorem Calls.bind {plain told : Action σ α} {next next' : α → Action σ β} (before : Calls plain told)
    (behind : ∀ a, Calls (next a) (next' a)) : Calls (plain >>= next) (told >>= next') :=
  Coupled.bind before behind

theorem Calls.forM {items : List β} {plain told : β → Action σ PUnit}
    (each : ∀ item, Calls (plain item) (told item)) : Calls (items.forM plain) (items.forM told) :=
  Coupled.forM each

/-- What follows may look at anything but the marks of a call. -/
theorem Calls.get {next next' : Machine σ → Action σ α}
    (blind : ∀ m keyboard journal, next' (called m keyboard journal) = next' m)
    (behind : ∀ m, Calls (next m) (next' m)) : Calls (get >>= next) (get >>= next') := by
  refine Coupled.get fun m n perhaps => ?_
  -- one machine may have been told to stop, which the look does not tell
  have looked : next' n = next' m := by
    cases perhaps with
    | same going => rfl
    | called going => exact blind m _ _
  rw [looked]
  exact behind m m n perhaps

/-- A change may be of anything but the marks of a call, and of whether a run is going on. -/
theorem Calls.modify {f : Machine σ → Machine σ}
    (keeps : ∀ m, (f m).control.running = m.control.running)
    (around : ∀ m keyboard journal, ∃ written,
      f (called m keyboard journal) = called (f m) keyboard written) :
    Calls (modify f : Action σ Unit) (modify f) := by
  refine Coupled.modify fun m n perhaps => ?_
  have going : Going (f m) := (keeps m).trans perhaps.going
  cases perhaps with
  | same _ => exact .same going
  | @called keyboard journal _ =>
    obtain ⟨written, changed⟩ := around m keyboard journal
    rw [changed]
    exact .called going

theorem calls_record (level : Journal.Level) (part : Journal.Part) (text : String) :
    Calls (record level part text : Action σ Unit) (record level part text) :=
  .modify (fun _ => rfl) fun _ _ _ => ⟨_, rfl⟩

theorem calls_modifyRegs (f : Registers → Registers) :
    Calls (modifyRegs f : Action σ Unit) (modifyRegs f) :=
  .modify (fun _ => rfl) fun _ _ _ => ⟨_, rfl⟩

theorem calls_getRegs : Calls (getRegs : Action σ Registers) getRegs :=
  .get (fun _ _ _ => rfl) fun _ => .pure _

/-- **An observer may call for a stop** where it could do nothing instead. -/
theorem calls_requestStop : Calls (Pure.pure () : Action σ Unit) requestStop := by
  intro m n perhaps
  -- a request during a run clears the keyboard and is noted in the journal
  have stops : ∀ now : Machine σ, now.control.running = true → requestStop now =
      .ok () (called now now.devices.keyboard.abort now.journal) := by
    intro now going
    show (if now.control.running then _ else _ : Action σ Unit) now = _
    rw [if_pos going]
    rfl
  cases perhaps with
  | same going =>
    rw [stops m going]
    exact .ok (.called going)
  | @called keyboard journal going =>
    rw [stops (m.called keyboard journal) going]
    exact .ok (.called going)

/-- What only observers know about is the same, whether a stop was called for or not. -/
theorem Private.calls {action : Action σ α} (own : Private action) : Calls action action := by
  obtain ⟨outcome, acts⟩ := own
  intro m n perhaps
  have sameNotes : n.notes = m.notes := by cases perhaps <;> rfl
  -- notes are private, so the call is not seen from them
  have noted : ∀ notes : σ, PerhapsCalled { m with notes } { n with notes } := by
    intro notes
    cases perhaps with
    | same going => exact .same going
    | called going => exact .called going
  rw [acts m, acts n, sameNotes]
  obtain ⟨result, notes⟩ := outcome m.notes
  cases result with
  | ok a => exact .ok (noted notes)
  | error refusal => exact .error (noted notes)

/-- What happens in front of any call keeps the two machines the same. -/
theorem Keeps.still {action : Action σ α} (keeps : Keeps Going action) :
    Coupled (Still Going) action action (Still Going) fun _ => PerhapsCalled :=
  (keeps_iff_coupled.1 keeps).mono (fun _ _ still => still) (fun _ _ still => still) fun _ _ _ => .of_still

theorem Keeps.callsFirst {action : Action σ α} (keeps : Keeps Going action) : CallsFirst action action :=
  keeps.still.mono (fun _ _ still => still) (fun _ _ => .of_still) fun _ _ _ perhaps => perhaps

/-- So does what instructions do by themselves. -/
theorem Local.still {action : Action σ α} (acts : Local action) :
    Coupled (Still Going) action action (Still Going) fun _ => PerhapsCalled :=
  (aloof_going.of_local acts).still

theorem Local.callsFirst {action : Action σ α} (acts : Local action) : CallsFirst action action :=
  (aloof_going.of_local acts).callsFirst

/-- A key that the keyboard has can be pressed; it concerns keyboard and journal alone. -/
theorem press_ok {key : Key} {code : UInt8} (resolved : key.resolve = .ok code) (m : Machine σ) :
    ∃ taken keyboard journal, press key m =
      .ok taken { m with devices := { m.devices with keyboard }, journal } := by
  rw [press, resolved]
  dsimp only
  simp only [get_bind]
  generalize m.devices.keyboard.press code = outcome
  obtain ⟨taken, keyboard⟩ := outcome
  cases taken with
  | true => exact ⟨_, _, _, rfl⟩
  | false => exact ⟨_, _, _, rfl⟩

/-- A key may be pressed. With the abort marker in the keyboard it is dropped, but only a caller that looks
at the result would notice. -/
theorem calls_press (key : Key) :
    Calls (discard (press key) : Action σ PUnit) (discard (press key)) := by
  intro m n perhaps
  cases perhaps with
  -- with no request so far, the press is the same on both machines
  | same going => exact (aloof_going.toCentral.press key).discard.callsFirst m m ⟨rfl, going⟩
  -- with a request made, the latch may hold another item, which is no matter afterwards
  | @called keyboard journal going =>
    cases resolved : key.resolve with
    | error refusal =>
      have refused : ∀ now : Machine σ,
          discard (press key) now = .error (.refused refusal) now := by
        intro now
        have fails : press key now = .error (.refused refusal) now := by
          rw [press, resolved]
          rfl
        exact bind_of_error fails
      rw [refused, refused]
      exact .error (.called going)
    | ok code =>
      obtain ⟨taken, keyboard', journal', here⟩ := press_ok resolved m
      obtain ⟨taken', other, written, there⟩ := press_ok resolved (m.called keyboard journal)
      have first : discard (press key) m = .ok PUnit.unit _ := bind_of_ok here
      have second : discard (press key) (m.called keyboard journal) = .ok PUnit.unit _ :=
        bind_of_ok there
      rw [first, second]
      exact .ok (.called going)

end Rules

end Machine

/-! ## Environments -/

/-- **The second environment may call for a stop.** Its observers and attached devices do what those of the
first one do, and perhaps call for a stop on the way. -/
structure Env.Calls {σ : Type} (quiet env : Env σ) : Prop where
  notify : ∀ hook notice, Machine.Calls (quiet.notify hook notice) (env.notify hook notice)
  answer : ∀ hook port, Machine.Calls (quiet.answer hook port) (env.answer hook port)

namespace Env.Calls

open Machine

variable {σ α : Type} {quiet env : Env σ} (calls : quiet.Calls env)
include calls

/-! ### Requests of instructions -/

theorem tellListeners (address : Int) (value : UInt8) :
    Machine.Calls (tellListeners quiet address value) (tellListeners env address value) := by
  refine .get (fun _ _ _ => rfl) fun m => .forM fun listener => ?_
  cases listener with
  | display => exact .modify (fun _ => rfl) fun _ _ _ => ⟨_, rfl⟩
  | hook hook => exact calls.notify hook _

/-- A store is the same for all who are told of it. -/
theorem store (address value : Int) :
    Machine.Calls (store quiet address value) (store env address value) := by
  have loads : Machine.Calls (load address : Action σ UInt8) (load address) := by
    refine .get (fun _ _ _ => rfl) fun m => ?_
    split
    · exact .pure _
    · exact .throw _
  refine .bind loads fun old => .bind (.modify (fun _ => rfl) fun _ _ _ => ⟨_, rfl⟩) fun _ => ?_
  refine .get (fun _ _ _ => rfl) fun m => .bind (.forM fun hook => calls.notify hook _) fun _ => ?_
  split
  · exact calls.tellListeners _ _
  · exact .pure _

theorem push (value : Int) : Machine.Calls (push quiet value) (push env value) := by
  refine .bind calls_getRegs fun regs => .bind (calls.store _ _) fun _ => ?_
  refine .bind (calls_modifyRegs _) fun _ => .bind calls_getRegs fun regs => ?_
  split
  · exact .throw _
  · exact .pure _

theorem updateLights (value : Int) :
    Machine.Calls (updateLights quiet value) (updateLights env value) := by
  refine .get (fun _ _ _ => rfl) fun m => .bind (.modify (fun _ => rfl) fun _ _ _ => ⟨_, rfl⟩) fun _ => ?_
  split
  · exact .get (fun _ _ _ => rfl) fun now => .forM fun hook =>
      .get (fun _ _ _ => rfl) fun _ => calls.notify hook _
  · exact .pure _

theorem writePort (port value : Int) :
    Machine.Calls (writePort quiet port value) (writePort env port value) := by
  refine .get (fun _ _ _ => rfl) fun m => .bind ?_ fun _ =>
    .get (fun _ _ _ => rfl) fun now => .forM fun hook => calls.notify hook _
  cases m.bus.writer? port with
  | none => exact calls_record _ _ _
  | some writer =>
    cases writer with
    | lights => exact calls.updateLights _
    | heater => exact .bind (.modify (fun _ => rfl) fun _ _ _ => ⟨_, rfl⟩) fun _ => calls_record _ _ _
    | hook hook => exact calls.notify hook _

/-- A port is read before anybody could have called for a stop. -/
theorem readPort (port : Int) : CallsFirst (readPort quiet port) (readPort env port) := by
  rintro _ m ⟨rfl, going⟩
  rw [Machine.readPort, Machine.readPort, get_bind, get_bind]
  cases m.bus.reader? port with
  | none => exact .ok (.same going)
  | some reader =>
    cases reader with
    | keyboard => exact aloof_going.toCentral.readKey.callsFirst m m ⟨rfl, going⟩
    | heater => exact .ok (.same going)
    | hook hook => exact (calls.answer hook port).bind (fun _ => .pure _) m m (.same going)

/-! ### Instructions -/

theorem writeOperand (shape : Shape) (code value : UInt8) :
    CallsFirst (writeOperand quiet shape code value) (writeOperand env shape code value) := by
  cases shape with
  | register => exact Local.callsFirst (.bind (local_register _) fun _ => local_modifyRegs _)
  | address => exact (calls.store _ _).first
  | indirect => exact local_getRegs.still.bind fun _ => (calls.store _ _).first
  | stackOffset => exact local_getRegs.still.bind fun _ => (calls.store _ _).first
  | immediate => exact Local.callsFirst (.pure _)
  | target => exact Local.callsFirst (.pure _)
  | label => exact Local.callsFirst (.pure _)
  | text => exact Local.callsFirst (.pure _)

/-- **Instructions do the same**, whether a stop is called for or not. -/
theorem execute (instr : Instr) : CallsFirst (execute quiet instr) (execute env instr) := by
  have ends : Machine.Calls (advance : Action σ Unit) advance := calls_modifyRegs _
  cases instr with
  -- a stop can be called for in the request of an instruction
  | move form =>
    exact local_fetch.still.bind fun _ => local_fetch.still.bind fun _ =>
      (local_readOperand _ _).still.bind fun _ => (calls.writeOperand _ _ _).bind fun _ => ends
  | push right =>
    exact local_fetch.still.bind fun _ => (local_readOperand _ _).still.bind fun _ =>
      (calls.push _).first.bind fun _ => ends
  | pushFlags =>
    exact local_getRegs.still.bind fun _ => (calls.push _).first.bind fun _ => ends
  | call destination =>
    exact local_fetch.still.bind fun _ => (local_readOperand _ _).still.bind fun _ =>
      local_getRegs.still.bind fun _ => (calls.push _).first.bind fun _ => calls_modifyRegs _
  | output =>
    exact local_fetch.still.bind fun _ => local_getRegs.still.bind fun _ =>
      (calls.writePort _ _).first.bind fun _ => ends
  | input =>
    exact local_fetch.still.bind fun _ => (calls.readPort _).bind fun _ =>
      (calls_modifyRegs _).bind fun _ => ends
  -- the others tell nobody
  | halt => exact aloof_going.halt.callsFirst
  | binary op right => exact (local_binary op right).callsFirst
  | unary op => exact (local_unary op).callsFirst
  | compare right => exact (local_compare right).callsFirst
  | jump condition destination => exact (local_jump condition destination).callsFirst
  | pop => exact local_popRegister.callsFirst
  | popFlags => exact local_popStatus.callsFirst
  | ret => exact local_ret.callsFirst
  | shift direction right => exact (local_shift direction right).callsFirst

omit calls in
/-- What becomes of a failure does not depend on the call. -/
theorem recover (ip : Int) (failure : Failure) :
    Machine.Calls (recover ip failure : Action σ Unit) (recover ip failure) := by
  have latches : ∀ reason, Machine.Calls (latch reason ip : Action σ Unit) (latch reason ip) :=
    fun reason => .bind (.modify (fun _ => rfl) fun _ _ _ => ⟨_, rfl⟩) fun _ =>
      .bind (calls_record _ _ _) fun _ => .throw _
  cases failure with
  | trap trap => exact latches _
  | outOfBounds access => exact latches _
  | refused refusal => exact latches _
  | fault fault => exact latches _
  | waiting => exact .throw _
  | aborted => exact .bind (calls_modifyRegs _) fun _ => .throw _

omit calls in
theorem complete (ip : Int) : Machine.Calls (complete ip : Action σ Unit) (complete ip) := by
  refine .bind (.modify (fun _ => rfl) fun _ _ _ => ⟨_, rfl⟩) fun _ => .bind calls_getRegs fun regs => ?_
  split
  · exact .bind (.modify (fun _ => rfl) fun _ _ _ => ⟨_, rfl⟩) fun _ => calls_record _ _ _
  · exact .pure _

/-- **A step does the same**, completed or not, whether a stop is called for on the way or not. -/
theorem step : CallsFirst (step quiet) (step env) := by
  rintro _ m ⟨rfl, going⟩
  have here : Still Going m m := ⟨rfl, going⟩
  cases mode : m.cpu.mode with
  | halted =>
    rw [step_of_halted mode, step_of_halted mode]
    exact .ok (.same going)
  | faulted =>
    rw [step_eq_refault mode, step_eq_refault mode]
    exact aloof_going.refault.callsFirst m m here
  | ready =>
    rw [step_of_ready mode, step_of_ready mode]
    -- the work reads and traces alike, and the call comes when the instruction asks for a device
    have works : CallsFirst (work quiet m.cpu.regs.ip) (work env m.cpu.regs.ip) :=
      (local_fetchInstr _).still.bind fun instr => (local_traceInstr _ instr).still.bind fun _ =>
        calls.execute instr
    exact (works.tryCatch (recover _)).bind (fun _ => complete _) m m here

end Env.Calls

end EightBit
