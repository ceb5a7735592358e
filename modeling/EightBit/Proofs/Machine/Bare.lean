import EightBit.Machine.Run

/-!
# Machines without their Onlookers

Watchpoints, listeners, port callbacks and lamp callbacks look on, and so does the trace. A bare machine is
what is left when they are taken away: no trace is kept, nobody is told but the display, and of the notes
only those remain that attached devices keep for themselves. An action of the machine ignores its onlookers
if it comes to the same on the bare machine. This is so for every instruction, completed or not, since no
part of it looks at the trace or at the lists of observers but to serve them.

## Main Definitions

- `Machine.bare`: the machine without its onlookers.
- `Ignores`: an action that comes to the same on the bare machine, with its rules.
- `Env.Observed`: observers that only look on, and attached devices that ignore them.

## Main Statements

- `Env.Observed.store`, `Env.Observed.writePort`: telling onlookers is no different from not telling them.
- `Env.Observed.step`: a step ignores its onlookers, completed or not.
-/

namespace EightBit

/-! ## Bare machines -/

/-- The processor without its trace. -/
def Processor.bare (cpu : Processor) : Processor :=
  { cpu with tracing := false, trace := #[] }

theorem Processor.bare_resume (cpu : Processor) : cpu.resume.bare = cpu.bare.resume := by
  unfold resume bare
  split
  · rfl
  · rfl

/-- The display is the only one who is told of anything. -/
def Observers.bare (observers : Observers) : Observers :=
  { listeners := observers.listeners.filter (· == .display) }

namespace Machine

variable {σ δ α β : Type}

/-- **The machine without its onlookers.** Of the notes, those parts are kept that are in view. -/
def bare (view : σ → δ) (m : Machine σ) : Machine δ where
  cpu := m.cpu.bare
  memory := m.memory
  bus := m.bus
  devices := m.devices
  display := m.display
  observers := m.observers.bare
  operator := m.operator
  control := m.control
  journal := m.journal
  notes := view m.notes

/-- The same of what an action has come to. -/
def erased (view : σ → δ) :
    EStateM.Result Failure (Machine σ) α → EStateM.Result Failure (Machine δ) α
  | .ok a m => .ok a (m.bare view)
  | .error failure m => .error failure (m.bare view)

/-- **The first action ignores the onlookers**: on the bare machine, the second one comes to the same. -/
def Ignores (view : σ → δ) (seen : Action σ α) (plain : Action δ α) : Prop :=
  ∀ m, erased view (seen m) = plain (m.bare view)

/-! ## Rules -/

namespace Ignores

variable {view : σ → δ}

theorem pure (a : α) : Ignores view (pure a) (pure a) :=
  fun _ => rfl

theorem throw (failure : Failure) : Ignores view (throw failure : Action σ α) (throw failure) :=
  fun _ => rfl

theorem modify {f : Machine σ → Machine σ} {g : Machine δ → Machine δ}
    (same : ∀ m, (f m).bare view = g (m.bare view)) : Ignores view (modify f) (modify g) :=
  fun m => congrArg (EStateM.Result.ok ()) (same m)

theorem bind {seen : Action σ α} {plain : Action δ α} {next : α → Action σ β} {next' : α → Action δ β}
    (before : Ignores view seen plain) (behind : ∀ a, Ignores view (next a) (next' a)) :
    Ignores view (seen >>= next) (plain >>= next') := by
  intro m
  have done := before m
  show erased view (EStateM.bind seen next m) = EStateM.bind plain next' (m.bare view)
  rw [EStateM.bind, EStateM.bind, ← done]
  -- whatever is watched has now come to the same outcome, so both go on from machines that look the same
  cases seen m with
  | ok a after => exact behind a after
  | error failure after => rfl

/-- What follows may look at the bare machine. -/
theorem get {next : Machine σ → Action σ α} {next' : Machine δ → Action δ α}
    (behind : ∀ m, Ignores view (next m) (next' (m.bare view))) :
    Ignores view (get >>= next) (get >>= next') :=
  fun m => behind m m

theorem tryCatch {seen : Action σ α} {plain : Action δ α} {handler : Failure → Action σ α}
    {handler' : Failure → Action δ α} (before : Ignores view seen plain)
    (behind : ∀ failure, Ignores view (handler failure) (handler' failure)) :
    Ignores view (tryCatch seen handler) (tryCatch plain handler') := by
  intro m
  have done := before m
  show erased view (EStateM.tryCatch seen handler m) = EStateM.tryCatch plain handler' (m.bare view)
  delta EStateM.tryCatch
  dsimp only
  rw [← done]
  cases seen m with
  | ok a after => rfl
  | error failure after => exact behind failure after

theorem ite {c : Prop} [Decidable c] {seen other : Action σ α} {plain other' : Action δ α}
    (holds : c → Ignores view seen plain) (fails : ¬c → Ignores view other other') :
    Ignores view (if c then seen else other) (if c then plain else other') := by
  split
  · next is => exact holds is
  · next is => exact fails is

/-- An action that is done under a condition, and what comes behind it in any case. -/
theorem perhaps {c : Prop} [Decidable c] {first : Action σ β} {first' : Action δ β} {rest : Action σ α}
    {rest' : Action δ α} (before : Ignores view first first') (behind : Ignores view rest rest') :
    Ignores view (if c then first >>= fun _ => rest else rest)
      (if c then first' >>= fun _ => rest' else rest') :=
  ite (fun _ => before.bind fun _ => behind) fun _ => behind

theorem discard {seen : Action σ α} {plain : Action δ α} (ignores : Ignores view seen plain) :
    Ignores view (discard seen : Action σ PUnit) (discard plain) := by
  show Ignores view (seen >>= fun _ => Pure.pure PUnit.unit) (plain >>= fun _ => Pure.pure PUnit.unit)
  exact ignores.bind fun _ => .pure _

theorem forM {items : List β} {act : β → Action σ PUnit} {act' : β → Action δ PUnit}
    (each : ∀ item, Ignores view (act item) (act' item)) :
    Ignores view (items.forM act) (items.forM act') := by
  induction items with
  | nil => exact .pure _
  | cons item rest ih => exact .bind (each item) fun _ => ih

/-- Onlookers that are told are as good as none. -/
theorem forM_nil {items : List β} {act : β → Action σ PUnit} {act' : β → Action δ PUnit}
    (each : ∀ item, Ignores view (act item) (Pure.pure ())) :
    Ignores view (items.forM act) (([] : List β).forM act') := by
  induction items with
  | nil => exact .pure _
  | cons item rest ih => exact .bind (each item) fun _ => ih

/-- Those who are taken away ignore what the others do. -/
theorem forM_filter {items : List β} {kept : β → Bool} {act : β → Action σ PUnit}
    {act' : β → Action δ PUnit} (there : ∀ item, kept item = true → Ignores view (act item) (act' item))
    (gone : ∀ item, kept item = false → Ignores view (act item) (Pure.pure ())) :
    Ignores view (items.forM act) ((items.filter kept).forM act') := by
  induction items with
  | nil => exact .pure _
  | cons item rest ih =>
    cases keeps : kept item with
    | true =>
      rw [List.filter_cons_of_pos keeps]
      exact .bind (there item keeps) fun _ => ih
    | false =>
      -- what is filtered out can be seen by observers only
      rw [List.filter_cons_of_neg (by simp [keeps])]
      exact .bind (gone item keeps) fun _ => ih

end Ignores

section Instructions

variable {view : σ → δ}

/-! ## What has no onlookers -/

theorem ignores_record (level : Journal.Level) (part : Journal.Part) (text : String) :
    Ignores view (record level part text) (record level part text) :=
  .modify fun _ => rfl

theorem ignores_modifyRegs (f : Registers → Registers) :
    Ignores view (modifyRegs f) (modifyRegs f) :=
  .modify fun _ => rfl

theorem ignores_modifyDevices (f : Devices → Devices) :
    Ignores view (modifyDevices f) (modifyDevices f) :=
  .modify fun _ => rfl

theorem ignores_modifyControl (f : Control → Control) :
    Ignores view (modifyControl f) (modifyControl f) :=
  .modify fun _ => rfl

theorem ignores_getRegs : Ignores view getRegs getRegs :=
  .get fun _ => .pure _

theorem ignores_orTrap (result : Except Trap α) : Ignores view (orTrap result) (orTrap result) := by
  cases result with
  | ok a => exact .pure a
  | error trap => exact .throw _

theorem ignores_load (address : Int) : Ignores view (load address) (load address) := by
  refine .get fun m => ?_
  dsimp only [bare]
  cases m.memory.load address with
  | ok value => exact .pure _
  | error access => exact .throw _

/-! ### Operands -/

theorem ignores_advance : Ignores view advance advance :=
  ignores_modifyRegs _

theorem ignores_fetch : Ignores view fetch fetch :=
  .bind ignores_advance fun _ => .get fun _ => .perhaps (.throw _) (ignores_load _)

theorem ignores_register (code : UInt8) : Ignores view (register code) (register code) := by
  unfold register
  cases Register.ofIndex? code.toNat with
  | some r => exact .pure r
  | none => exact .throw _

theorem ignores_readRegister (r : Register) : Ignores view (readRegister r) (readRegister r) :=
  .bind ignores_getRegs fun _ => .pure _

theorem ignores_writeRegister (r : Register) (value : Int) :
    Ignores view (writeRegister r value) (writeRegister r value) :=
  ignores_modifyRegs _

theorem ignores_readOperand (shape : Shape) (code : UInt8) :
    Ignores view (readOperand shape code) (readOperand shape code) := by
  cases shape with
  | register => exact .bind (ignores_register _) ignores_readRegister
  | address => exact ignores_load _
  | indirect => exact .bind ignores_getRegs fun _ => ignores_load _
  | stackOffset => exact .bind ignores_getRegs fun _ => ignores_load _
  | immediate => exact .pure _
  | target => exact .pure _
  | label => exact .pure _
  | text => exact .pure _

theorem ignores_fetchPair (right : Right) : Ignores view (fetchPair right) (fetchPair right) :=
  .bind ignores_fetch fun _ => .bind ignores_fetch fun _ => .bind (ignores_readOperand _ _) fun _ =>
    .pure _

theorem ignores_pop : Ignores view pop pop :=
  .bind (ignores_modifyRegs _) fun _ => .bind ignores_getRegs fun _ => .bind (ignores_load _) fun _ =>
    .bind ignores_getRegs fun _ => .perhaps (.throw _) (.pure _)

/-! ### Instructions that tell nobody -/

theorem ignores_halt : Ignores view halt halt :=
  .bind (.modify fun _ => rfl) fun _ => .bind ignores_advance fun _ => .get fun _ => ignores_record _ _ _

theorem ignores_binary (op : Binary) (right : Right) : Ignores view (binary op right) (binary op right) :=
  .bind (ignores_fetchPair _) fun _ => .bind (ignores_register _) fun _ =>
    .bind (ignores_readRegister _) fun _ => .bind (ignores_orTrap _) fun _ =>
    .bind (ignores_writeRegister _ _) fun _ => .bind (ignores_modifyRegs _) fun _ => ignores_advance

theorem ignores_compare (right : Right) : Ignores view (compare right) (compare right) :=
  .bind (ignores_fetchPair _) fun _ => .bind (ignores_register _) fun _ =>
    .bind (ignores_readRegister _) fun _ => .bind (ignores_modifyRegs _) fun _ => ignores_advance

theorem ignores_shift (direction : Shift) (right : Right) :
    Ignores view (shift direction right) (shift direction right) := by
  refine .bind (ignores_fetchPair _) fun _ => .bind (ignores_register _) fun _ =>
    .bind (ignores_readRegister _) fun _ => ?_
  split
  · exact .bind (ignores_writeRegister _ _) fun _ => .bind (ignores_modifyRegs _) fun _ => ignores_advance
  · exact ignores_advance

theorem ignores_unary (op : Unary) : Ignores view (unary op) (unary op) :=
  .bind ignores_fetch fun _ => .bind (ignores_register _) fun _ => .bind (ignores_readRegister _) fun _ =>
    .bind (ignores_writeRegister _ _) fun _ => .ite
      (fun _ => .bind (ignores_modifyRegs _) fun _ => ignores_advance)
      fun _ => .bind (ignores_modifyRegs _) fun _ => ignores_advance

theorem ignores_jump (condition : Condition) (destination : Destination) :
    Ignores view (jump condition destination) (jump condition destination) :=
  .bind ignores_fetch fun _ => .bind (ignores_readOperand _ _) fun _ => .bind ignores_getRegs fun _ =>
    .ite (fun _ => ignores_modifyRegs _) fun _ => ignores_advance

theorem ignores_popRegister : Ignores view popRegister popRegister :=
  .bind ignores_fetch fun _ => .bind (ignores_register _) fun _ => .bind ignores_pop fun _ =>
    .bind (ignores_writeRegister _ _) fun _ => ignores_advance

theorem ignores_popStatus : Ignores view popStatus popStatus :=
  .bind ignores_pop fun _ => .bind (ignores_modifyRegs _) fun _ => ignores_advance

/-! ### The keyboard -/

theorem ignores_press (key : Key) : Ignores view (press key) (press key) := by
  unfold press
  cases key.resolve with
  | error refusal => exact .throw _
  | ok code =>
    exact .get fun _ => .bind (ignores_modifyDevices _) fun _ =>
      .perhaps (ignores_record _ _ _) (.pure _)

theorem ignores_takeKey : Ignores view takeKey takeKey := by
  refine .get fun m => ?_
  dsimp only [bare]
  cases m.devices.keyboard.take? with
  | none => exact .throw _
  | some taken =>
    obtain ⟨item, keyboard⟩ := taken
    refine .bind (ignores_modifyDevices _) fun _ => ?_
    cases item with
    | key code => exact .pure _
    | abort => exact .throw _

theorem ignores_readKey : Ignores view readKey readKey := by
  refine .get fun m => ?_
  dsimp only [bare]
  refine .ite (fun _ => ?_) fun _ => ignores_takeKey
  -- the operator is the same for both
  cases m.operator.feed with
  | cons key rest =>
    exact .bind (.modify fun _ => rfl) fun _ => .bind (ignores_press key).discard fun _ => ignores_takeKey
  | nil => exact .perhaps (ignores_modifyDevices _) ignores_takeKey

theorem ignores_setBurner (on : Bool) : Ignores view (setBurner on) (setBurner on) :=
  .bind (ignores_modifyDevices _) fun _ => ignores_record _ _ _

/-! ### Around an instruction -/

theorem ignores_latch (reason : FaultReason) (ip : Int) :
    Ignores view (latch reason ip) (latch reason ip) :=
  .bind (.modify fun _ => rfl) fun _ => .bind (ignores_record _ _ _) fun _ => .throw _

theorem ignores_recover (ip : Int) (failure : Failure) :
    Ignores view (recover ip failure) (recover ip failure) := by
  cases failure with
  | trap trap => exact ignores_latch _ _
  | outOfBounds access => exact ignores_latch _ _
  | refused refusal => exact ignores_latch _ _
  | fault fault => exact ignores_latch _ _
  | waiting => exact .throw _
  -- only an abort puts back the instruction pointer, so that the instruction can be made again
  | aborted => exact .bind (ignores_modifyRegs _) fun _ => .throw _

theorem ignores_complete (ip : Int) : Ignores view (complete ip) (complete ip) :=
  .bind (.modify fun _ => rfl) fun _ => .bind ignores_getRegs fun _ => .ite
    (fun _ => .bind (.modify fun _ => rfl) fun _ => ignores_record _ _ _) fun _ => .pure _

theorem ignores_guarded (ip : Int) {seen : Action σ Unit} {plain : Action δ Unit}
    (work : Ignores view seen plain) : Ignores view (guarded ip seen) (guarded ip plain) :=
  .bind (.tryCatch work fun _ => ignores_recover ip _) fun _ => ignores_complete ip

theorem ignores_fetchInstr (ip : Int) : Ignores view (fetchInstr ip) (fetchInstr ip) := by
  refine .get fun _ => .perhaps (.throw _) (.bind (ignores_load ip) fun opcode => ?_)
  cases Instr.decode? opcode.toNat with
  | some instr => exact .pure _
  | none => exact .throw _

/-- The trace is for onlookers only. -/
theorem ignores_traceInstr (ip : Int) (instr : Instr) :
    Ignores view (traceInstr ip instr) (traceInstr ip instr) := by
  refine .modify fun m => ?_
  split
  · rfl
  · rfl

theorem ignores_refault : Ignores view refault refault := by
  refine .get fun m => ?_
  dsimp only [bare, Processor.bare]
  cases m.cpu.lastFault with
  | some fault => exact .throw _
  | none => exact .bind (.modify fun _ => rfl) fun _ => .throw _

end Instructions

end Machine

/-! ## Environments -/

/-- **Observers that only look on.** Whatever they are told of, they change nothing but what is not there on
the bare machine: their own notes, the trace, and the lists of observers. Attached devices do the same on the
machine as those of the second environment do on the bare one; apart from that, they may do anything. -/
structure Env.Observed {σ δ : Type} (view : σ → δ) (env : Env σ) (plain : Env δ) : Prop where
  watch : ∀ hook address old new,
    Machine.Ignores view (env.notify hook (.watch address old new)) (pure ())
  display : ∀ hook address value, Machine.Ignores view (env.notify hook (.display address value)) (pure ())
  out : ∀ hook port value, Machine.Ignores view (env.notify hook (.out port value)) (pure ())
  lights : ∀ hook old new, Machine.Ignores view (env.notify hook (.lights old new)) (pure ())
  write : ∀ hook port value,
    Machine.Ignores view (env.notify hook (.write port value)) (plain.notify hook (.write port value))
  answer : ∀ hook port, Machine.Ignores view (env.answer hook port) (plain.answer hook port)

namespace Env.Observed

open Machine

variable {σ δ : Type} {view : σ → δ} {env : Env σ} {plain : Env δ} (observed : env.Observed view plain)
include observed

/-! ### Stores -/

/-- The display is told, and those who listen as well ignore it. -/
theorem tellListeners (address : Int) (value : UInt8) :
    Ignores view (tellListeners env address value) (tellListeners plain address value) := by
  refine .get fun m => .forM_filter (fun listener keeps => ?_) fun listener gone => ?_
  · obtain rfl := beq_iff_eq.1 keeps
    exact .modify fun _ => rfl
  · cases listener with
    | display => exact absurd rfl (beq_eq_false_iff_ne.1 gone)
    | hook hook => exact observed.display hook address value

/-- **A store ignores those who watch it.** -/
theorem store (address value : Int) : Ignores view (store env address value) (store plain address value) :=
  .bind (ignores_load address) fun _ => .bind (.modify fun _ => rfl) fun _ => .get fun _ =>
    .bind (.forM_nil fun hook => observed.watch hook _ _ _) fun _ => .ite
      (fun _ => observed.tellListeners _ _) fun _ => .pure _

theorem push (value : Int) : Ignores view (push env value) (push plain value) :=
  .bind ignores_getRegs fun _ => .bind (observed.store _ _) fun _ => .bind (ignores_modifyRegs _) fun _ =>
    .bind ignores_getRegs fun _ => .ite (fun _ => .throw _) fun _ => .pure _

/-! ### Ports -/

theorem updateLights (value : Int) : Ignores view (updateLights env value) (updateLights plain value) :=
  .get fun _ => .bind (ignores_modifyDevices _) fun _ => .ite
    (fun _ => .get fun _ => .forM_nil fun hook => .get fun _ => observed.lights hook _ _) fun _ => .pure _

theorem deliver (port : Int) (value : UInt8) (writer : Option Writer) :
    Ignores view (deliver env port value writer) (deliver plain port value writer) := by
  cases writer with
  | none => exact ignores_record _ _ _
  | some writer =>
    cases writer with
    | lights => exact observed.updateLights _
    | heater => exact ignores_setBurner _
    | hook hook => exact observed.write hook port value

/-- **Writing a port ignores those who tap it.** -/
theorem writePort (port value : Int) : Ignores view (writePort env port value) (writePort plain port value) :=
  .get fun _ => .bind (observed.deliver _ _ _) fun _ => .get fun _ => .forM_nil fun hook =>
    observed.out hook _ _

theorem readPort (port : Int) : Ignores view (readPort env port) (readPort plain port) := by
  refine .get fun m => ?_
  dsimp only [bare]
  cases m.bus.reader? port with
  | none => exact .pure _
  | some reader =>
    cases reader with
    | keyboard => exact ignores_readKey
    | heater => exact .pure _
    | hook hook => exact .bind (observed.answer hook port) fun _ => .pure _

/-! ### Instructions and steps -/

theorem writeOperand (shape : Shape) (code value : UInt8) :
    Ignores view (writeOperand env shape code value) (writeOperand plain shape code value) := by
  cases shape with
  | register => exact .bind (ignores_register _) fun _ => ignores_writeRegister _ _
  | address => exact observed.store _ _
  | indirect => exact .bind ignores_getRegs fun _ => observed.store _ _
  | stackOffset => exact .bind ignores_getRegs fun _ => observed.store _ _
  | immediate => exact .pure _
  | target => exact .pure _
  | label => exact .pure _
  | text => exact .pure _

/-- **Every instruction ignores its onlookers.** -/
theorem execute (instr : Instr) : Ignores view (execute env instr) (execute plain instr) := by
  -- every instruction is made of parts that ignore onlookers; each case follows its definition
  cases instr with
  | halt => exact ignores_halt
  | move form =>
    exact .bind ignores_fetch fun _ => .bind ignores_fetch fun _ => .bind (ignores_readOperand _ _)
      fun _ => .bind (observed.writeOperand _ _ _) fun _ => ignores_advance
  | binary op right => exact ignores_binary op right
  | unary op => exact ignores_unary op
  | compare right => exact ignores_compare right
  | jump condition destination => exact ignores_jump condition destination
  | push value =>
    exact .bind ignores_fetch fun _ => .bind (ignores_readOperand _ _) fun _ =>
      .bind (observed.push _) fun _ => ignores_advance
  | pop => exact ignores_popRegister
  | pushFlags =>
    exact .bind ignores_getRegs fun _ => .bind (observed.push _) fun _ => ignores_advance
  | popFlags => exact ignores_popStatus
  | call destination =>
    exact .bind ignores_fetch fun _ => .bind (ignores_readOperand _ _) fun _ => .bind ignores_getRegs
      fun _ => .bind (observed.push _) fun _ => ignores_modifyRegs _
  | ret => exact .bind ignores_pop fun _ => ignores_modifyRegs _
  | shift direction right => exact ignores_shift direction right
  | output =>
    exact .bind ignores_fetch fun _ => .bind ignores_getRegs fun _ =>
      .bind (observed.writePort _ _) fun _ => ignores_advance
  | input =>
    exact .bind ignores_fetch fun _ => .bind (observed.readPort _) fun _ =>
      .bind (ignores_modifyRegs _) fun _ => ignores_advance

/-- **A step ignores its onlookers**, completed or not. -/
theorem step : Ignores view (step env) (step plain) := by
  refine .get fun m => ?_
  dsimp only [bare, Processor.bare]
  cases m.cpu.mode with
  | halted => exact .pure _
  | faulted => exact ignores_refault
  -- the bare machine writes no trace, and nothing else of a step depends on one
  | ready =>
    exact ignores_guarded _ <| .bind (ignores_fetchInstr _) fun instr =>
      .bind (ignores_traceInstr _ instr) fun _ => observed.execute instr

end Env.Observed

end EightBit
