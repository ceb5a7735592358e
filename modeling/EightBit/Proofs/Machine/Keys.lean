import EightBit.Proofs.Machine.Local
import EightBit.Proofs.Machine.Requests

/-!
# Further Keys

An input that finds no key is abandoned, and nothing is left of it. Every other step does the same on a
machine whose operator has further keys: the next key is the same, and they are used one at a time.

## Main Definitions

- `Env.Private`: observers and attached devices that only use their notes.
- `typed`: a machine with further keys for its operator.
- `Dry`: the next instruction is an input that finds no key.
- `Supplied`: the second machine has further keys.

## Main Statements

- `step_of_dry`: an input that finds no key is abandoned, and the machine is left as it was.
- `paired_step_supplied`: any other step does the same with further keys.
-/

namespace EightBit

/-- Observers and attached devices only use their notes. They may fail. -/
structure Env.Private {σ : Type} (env : Env σ) : Prop where
  notify : ∀ hook notice, Machine.Private (env.notify hook notice)
  answer : ∀ hook port, Machine.Private (env.answer hook port)

/-- Nothing on the control panel ends a run or lets it wait. -/
structure Unhindered (control : Control) : Prop where
  free : control.stepMode = false
  calm : control.stopRequested = false
  breakpoints : control.breakpoints = []

namespace Machine

variable {σ : Type} {env : Env σ} {rest : List Key} {m n : Machine σ}

/-! ## Keys -/

/-- The machine with further keys for its operator. -/
def typed (keys : List Key) (m : Machine σ) : Machine σ :=
  { m with operator := { m.operator with feed := m.operator.feed ++ keys } }

@[simp] theorem typed_nil (m : Machine σ) : m.typed [] = m := by
  simp [typed]

/-- The operator gives a read up when the keys are used up. No read has been given up that the processor
does not know of, and no trace is kept. -/
structure Attended (m : Machine σ) : Prop where
  patience : m.operator.patience = .abort
  unmarked : m.devices.keyboard.slot ≠ some .abort
  untraced : m.cpu.tracing = false

/-- A read of the keyboard would find no key. -/
structure Exhausted (m : Machine σ) : Prop where
  nothing : m.devices.keyboard.slot = none
  used : m.operator.feed = []

/-- **The next instruction is an input that finds no key.** -/
structure Dry (m : Machine σ) : Prop extends Exhausted m where
  ready : m.cpu.mode = .ready
  fetches : Fetches m.cpu.regs m.memory .input
  port : ∃ port, HasOperand m.cpu.regs m.memory .input 0 .immediate port ∧
    m.bus.reader? port.toNat = some .keyboard

/-! ## An input without a key -/

section Dry

variable (attended : Attended m)
include attended

/-- An abandoned read leaves the machine as it was: the marker is put into the latch and taken out. -/
theorem readKey_of_exhausted (exhausted : Exhausted m) : readKey m = .error .aborted m := by
  obtain ⟨cpu, memory, bus, ⟨⟨slot⟩, lights, heater⟩, display, observers, ⟨feed, patience, policy⟩,
    control, journal, notes⟩ := m
  obtain rfl : slot = none := exhausted.nothing
  obtain rfl : feed = [] := exhausted.used
  obtain rfl : patience = .abort := attended.patience
  rfl

/-- **An input that finds no key is abandoned**, and nothing is left of the step. -/
theorem step_of_dry (dry : Dry m) : step env m = .error .aborted m := by
  obtain ⟨port, ⟨-, loaded⟩, bound⟩ := dry.port
  have untraced : m.cpu.traced .input = m.cpu := if_neg (by simp [attended.untraced])
  -- the operand byte is fetched, and then the read is given up
  have fetched : fetch m = .ok port (m.forward 1) := fetch_of_load loaded
  have given : readPort env port.toNat { m with cpu := { m.cpu with regs := m.cpu.regs.forward 1 } } =
      .error .aborted { m with cpu := { m.cpu with regs := m.cpu.regs.forward 1 } } := by
    rw [readPort, get_bind]
    simp only [bound]
    exact readKey_of_exhausted ⟨attended.patience, attended.unmarked, attended.untraced⟩
      ⟨dry.nothing, dry.used⟩
  have failed : work env m.cpu.regs.ip m =
      .error .aborted { m with cpu := { m.cpu with regs := m.cpu.regs.forward 1 } } := by
    rw [work_of_fetches dry.fetches, untraced]
    exact (bind_of_ok fetched).trans (bind_of_error given)
  rw [step_of_work_error dry.ready failed]
  rfl

end Dry

/-! ## An input with a key -/

/-- A key that waits in the latch is taken out. -/
theorem readKey_of_pending {code : UInt8} (waits : m.devices.keyboard.slot = some (.key code)) :
    readKey m = .ok code { m with devices := { m.devices with keyboard := ⟨none⟩ } } := by
  obtain ⟨cpu, memory, bus, ⟨⟨slot⟩, lights, heater⟩, display, observers, operator, control, journal,
    notes⟩ := m
  obtain rfl : slot = some (.key code) := waits
  rfl

/-- Without one, the next key is pressed and taken, unless the keyboard does not have it. -/
theorem readKey_of_feed {key : Key} {keys : List Key} (nothing : m.devices.keyboard.slot = none)
    (fed : m.operator.feed = key :: keys) :
    readKey m = match key.resolve with
      | .ok code => .ok code { m with operator := { m.operator with feed := keys } }
      | .error refusal =>
        .error (.refused refusal) { m with operator := { m.operator with feed := keys } } := by
  obtain ⟨cpu, memory, bus, ⟨⟨slot⟩, lights, heater⟩, display, observers, ⟨feed, patience, policy⟩,
    control, journal, notes⟩ := m
  obtain rfl : slot = none := nothing
  obtain rfl : feed = key :: keys := fed
  change (discard (press key) >>= fun _ => takeKey) _ = _
  rw [press]
  cases key.resolve <;> rfl

/-! ## Further keys -/

/-- **The second machine has further keys**, and a control panel and a journal of its own. -/
inductive Supplied (rest : List Key) (m : Machine σ) : Machine σ → Prop
  | intro {control journal} (attended : Attended m) (here : Unhindered m.control)
    (there : Unhindered control) : Supplied rest m { m.typed rest with control, journal }

theorem Supplied.attended (supplied : Supplied rest m n) : Attended m := by
  cases supplied with
  | intro attended here there => exact attended

theorem beyond_supplied : Beyond (Supplied rest : Machine σ → Machine σ → Prop) where
  same := fun m n supplied => by
    cases supplied
    rfl
  processor := fun m n cpu supplied _ tracing => by
    cases supplied with
    | intro attended here there =>
      exact .intro ⟨attended.patience, attended.unmarked, tracing.trans attended.untraced⟩ here there
  -- the keyboard is the one device whose state is looked at, and it does not change here
  devices := fun m n devices supplied keyboard => by
    cases supplied with
    | intro attended here there =>
      refine .intro ⟨attended.patience, ?_, attended.untraced⟩ here there
      show devices.keyboard.slot ≠ some .abort
      rw [keyboard]
      exact attended.unmarked
  notes := fun m n notes supplied => by
    cases supplied with
    | intro attended here there =>
      exact .intro ⟨attended.patience, attended.unmarked, attended.untraced⟩ here there
  journal := fun m n record supplied => by
    cases supplied with
    | intro attended here there =>
      exact .intro ⟨attended.patience, attended.unmarked, attended.untraced⟩ here there
  memory := fun m n memory supplied => by
    cases supplied with
    | intro attended here there =>
      exact .intro ⟨attended.patience, attended.unmarked, attended.untraced⟩ here there
  display := fun m n display supplied => by
    cases supplied with
    | intro attended here there =>
      exact .intro ⟨attended.patience, attended.unmarked, attended.untraced⟩ here there

theorem modeless_supplied : Modeless (Supplied rest : Machine σ → Machine σ → Prop) where
  toAround := beyond_supplied.toAround
  freely := fun m n cpu supplied tracing => by
    cases supplied with
    | intro attended here there =>
      exact .intro ⟨attended.patience, attended.unmarked, tracing.trans attended.untraced⟩ here there

/-- The failure is not that of a read that was given up or has to wait, and the second machine has further
keys. -/
def Unabandoned (rest : List Key) (failure : Failure) (m n : Machine σ) : Prop :=
  failure ≠ .aborted ∧ failure ≠ .waiting ∧ Supplied rest m n

/-- Unless the keys are used up, a read takes the same key with further ones. -/
theorem coupled_readKey : Coupled (fun m n : Machine σ => Supplied rest m n ∧ ¬Exhausted m) readKey
    readKey (Supplied rest) (Unabandoned rest) := by
  rintro m n ⟨supplied, more⟩
  have sameDevices := beyond_supplied.devices_eq supplied
  -- a key that is there already is read on both machines
  cases slot : m.devices.keyboard.slot with
  | some item =>
    cases item with
    | abort =>
      cases supplied with
      | intro attended here there => exact absurd slot attended.unmarked
    | key code =>
      rw [readKey_of_pending slot, readKey_of_pending (sameDevices ▸ slot)]
      cases supplied with
      | intro attended here there =>
        exact .ok (.intro ⟨attended.patience, nofun, attended.untraced⟩ here there)
  | none =>
    cases feed : m.operator.feed with
    -- otherwise the operator types the next key, which both operators have
    | nil => exact absurd ⟨slot, feed⟩ more
    | cons key keys =>
      have further : n.operator.feed = key :: (keys ++ rest) := by
        cases supplied with
        | intro attended here there =>
          show m.operator.feed ++ rest = _
          rw [feed, List.cons_append]
      rw [readKey_of_feed slot feed, readKey_of_feed (sameDevices ▸ slot) further]
      have supplied : Supplied rest { m with operator := { m.operator with feed := keys } }
          { n with operator := { n.operator with feed := keys ++ rest } } := by
        cases supplied with
        | intro attended here there =>
          exact .intro ⟨attended.patience, attended.unmarked, attended.untraced⟩ here there
      -- a key with no code is refused on both machines
      cases key.resolve with
      | ok code => exact .ok supplied
      | error refusal => exact .error ⟨nofun, nofun, supplied⟩

/-! ## Steps with further keys -/

theorem Unabandoned.of_internal {failure : Failure} (internal : failure.IsInternal)
    (supplied : Supplied rest m n) : Unabandoned rest failure m n := by
  cases failure with
  | trap trap => exact ⟨nofun, nofun, supplied⟩
  | outOfBounds access => exact ⟨nofun, nofun, supplied⟩
  | _ => exact absurd internal id

/-- What only observers know about is the same with further keys. -/
theorem Private.supplied {α : Type} {action : Action σ α} (own : Private action) :
    Coupled (Supplied rest) action action (Supplied rest) (Unabandoned rest) := by
  apply (own.coupled beyond_supplied.toAround).mono
  · exact fun _ _ supplied => supplied
  · exact fun _ _ supplied => supplied
  · rintro _ m n ⟨⟨refusal, rfl⟩, supplied⟩
    exact ⟨nofun, nofun, supplied⟩

/-- Without a trace, none is written. -/
theorem traceInstr_of_untraced (ip : Int) (instr : Instr) (untraced : m.cpu.tracing = false) :
    traceInstr ip instr m = .ok () m := by
  change EStateM.Result.ok () (if m.cpu.tracing = true then _ else m) = _
  rw [if_neg (by simp [untraced])]

section Steps

variable (own : env.Private)
include own

theorem carries_supplied : env.Carries (Supplied rest) (Supplied rest) (Unabandoned rest) where
  around := beyond_supplied.toAround
  modeless := modeless_supplied
  loosen := fun _ _ supplied => supplied
  internal := fun _ _ _ => Unabandoned.of_internal
  fault := fun _ _ _ supplied => ⟨nofun, nofun, supplied⟩
  settle := fun _ _ _ failed => failed.2.2
  rewind := fun _ _ _ failed => absurd rfl failed.1
  notify := fun hook notice => (own.notify hook notice).supplied
  answer := fun hook port => (own.answer hook port).supplied
  store := beyond_supplied.store (fun hook notice => (own.notify hook notice).supplied)
    fun _ _ _ => Unabandoned.of_internal

/-- The input does the same with further keys, unless it finds no key. -/
theorem paired_input (supplied : Supplied rest m n) (ready : m.cpu.mode = .ready)
    (fetches : Fetches m.cpu.regs m.memory .input) (wet : ¬Dry m) :
    Paired (Supplied rest) (Unabandoned rest) (execute env .input m) (execute env .input n) := by
  have carries : env.Carries (Supplied rest) (Supplied rest) (Unabandoned rest) := carries_supplied own
  refine Paired.bind (carries.of_local local_fetch m n supplied) fun port now other fetched supplied => ?_
  obtain ⟨loaded, ahead⟩ := (Ahead.start m).fetch fetched
  -- nothing around the processor has changed so far
  have same := ahead.inward
  have more : now.bus.reader? port.toNat = some .keyboard → ¬Exhausted now := by
    intro bound exhausted
    rw [same] at bound
    have nothing := exhausted.nothing
    have used := exhausted.used
    rw [same] at nothing used
    exact wet ⟨⟨nothing, used⟩, ready, fetches, port, ⟨rfl, loaded⟩, bound⟩
  refine Paired.bind (carries.paired_readPort supplied fun bound =>
    coupled_readKey now other ⟨supplied, more bound⟩) fun value one other _ supplied => ?_
  exact carries.modeless.receive value one other supplied

/-- **Any other step does the same with further keys**, and does not abandon a read. -/
theorem paired_step_supplied (supplied : Supplied rest m n) (wet : ¬Dry m) :
    Paired (Supplied rest) (Unabandoned rest) (step env m) (step env n) := by
  have carries : env.Carries (Supplied rest) (Supplied rest) (Unabandoned rest) := carries_supplied own
  have sameCpu := beyond_supplied.cpu_eq supplied
  -- both processors are in the same mode, and only one that is ready does any work
  cases mode : m.cpu.mode with
  | halted =>
    rw [step_of_halted mode, step_of_halted (sameCpu ▸ mode)]
    exact .ok supplied
  | faulted =>
    rw [step_eq_refault mode, step_eq_refault (sameCpu ▸ mode)]
    exact carries.refault m n supplied
  | ready =>
    rw [step_of_ready mode, step_of_ready (sameCpu ▸ mode), sameCpu]
    have worked : Coupled (fun a b => a = m ∧ b = n) (work env m.cpu.regs.ip) (work env m.cpu.regs.ip)
        (Supplied rest) (Unabandoned rest) := by
      rintro a b ⟨sameM, sameN⟩
      rw [sameM, sameN]
      -- both fetch the same instruction, and keep no trace of it
      refine Paired.bind (carries.of_local (local_fetchInstr _) m n supplied)
        fun instr now other found related => ?_
      obtain ⟨fetches, same⟩ := fetches_of_fetchInstr found
      rw [same] at related
      have untraced := related.attended.untraced
      show Paired _ _ ((traceInstr _ instr >>= fun _ => execute env instr) now) _
      rw [same, bind_of_ok (traceInstr_of_untraced _ instr untraced),
        bind_of_ok (traceInstr_of_untraced _ instr (beyond_supplied.cpu_eq related ▸ untraced))]
      -- reading a port is the one instruction that may come to the keys
      by_cases isInput : instr = .input
      · subst isInput
        exact paired_input own related mode fetches wet
      · exact carries.execute isInput m other related
    exact carries.guarded _ worked m n ⟨rfl, rfl⟩

end Steps

end Machine

end EightBit
