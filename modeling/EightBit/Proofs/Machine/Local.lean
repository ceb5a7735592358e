import EightBit.Proofs.Machine.Effect

/-!
# What Instructions Do by Themselves

Most of what an instruction does is its own affair: it reads memory, computes, and changes the processor
and the journal. Around the processor it only ever stores a byte or uses a port. So a relation between
two machines that is not about the processor is kept by every instruction, provided that stores, observers
and the keyboard keep it. A relation of a machine with itself is an invariant.

Halting and latching a fault change the mode. A relation may depend on the mode, and is then replaced by a
looser one that does not.

## Main Definitions

- `Coupled`: the triple for two runs, with its rules for the building blocks of actions.
- `Around`: a relation on what lies around two processors that are the same.
- `Beyond`: one that is not about memory and display either.
- `Keyed`: one that is not about keyboard and operator either.
- `Local`: an action that keeps all relations of the first kind.
- `Private`: an action that is only about the notes of the observers.
- `Env.Carries`: stores, observers and attached devices keep a relation.

## Main Statements

- `Beyond.store`: stores keep relations that are not about memory.
- `Keyed.readKey`: reading the keyboard keeps relations that are not about it.
- `Env.Carries.execute`: instructions keep what the environment carries.
- `Env.Carries.step`: so do steps, completed or not.
-/

namespace EightBit

namespace Machine

variable {σ α β : Type}

/-! ## Triples for two runs -/

/-- Both results are successes with the same value, or both are the same failure. -/
inductive Paired (Q : Machine σ → Machine σ → Prop) (E : Failure → Machine σ → Machine σ → Prop) :
    EStateM.Result Failure (Machine σ) α → EStateM.Result Failure (Machine σ) α → Prop
  | ok {a one other} (related : Q one other) : Paired Q E (.ok a one) (.ok a other)
  | error {failure one other} (related : E failure one other) :
    Paired Q E (.error failure one) (.error failure other)

section Paired

variable {Q : Machine σ → Machine σ → Prop} {E : Failure → Machine σ → Machine σ → Prop}
  {one : Machine σ} {result : EStateM.Result Failure (Machine σ) α}

theorem Paired.of_ok {a : α} (paired : Paired Q E (.ok a one) result) :
    ∃ other, result = .ok a other ∧ Q one other := by
  cases paired with
  | ok related => exact ⟨_, rfl, related⟩

theorem Paired.of_error {failure : Failure} (paired : Paired Q E (.error failure one) result) :
    ∃ other, result = .error failure other ∧ E failure one other := by
  cases paired with
  | error related => exact ⟨_, rfl, related⟩

end Paired

/-- What follows is only looked at behind the value that both actions have come to. -/
theorem Paired.bind {Q Q' : Machine σ → Machine σ → Prop}
    {E : Failure → Machine σ → Machine σ → Prop} {first first' : Action σ α}
    {next next' : α → Action σ β} {m n : Machine σ} (before : Paired Q E (first m) (first' n))
    (behind : ∀ a one other, first m = .ok a one → Q one other →
      Paired Q' E (next a one) (next' a other)) :
    Paired Q' E ((first >>= next) m) ((first' >>= next') n) := by
  show Paired Q' E (EStateM.bind first next m) (EStateM.bind first' next' n)
  rw [EStateM.bind, EStateM.bind]
  generalize ran : first m = result, first' n = result' at before
  cases before with
  | ok related => exact behind _ _ _ ran related
  | error related => exact .error related

/-- Started on machines that are related, both actions end in the same way. -/
def Coupled (R : Machine σ → Machine σ → Prop) (first second : Action σ α)
    (Q : Machine σ → Machine σ → Prop) (E : Failure → Machine σ → Machine σ → Prop) : Prop :=
  ∀ m n, R m n → Paired Q E (first m) (second n)

section Rules

variable {R Q Q' : Machine σ → Machine σ → Prop} {E : Failure → Machine σ → Machine σ → Prop}

theorem Coupled.pure {a : α} (done : ∀ m n, R m n → Q m n) :
    Coupled R (pure a : Action σ α) (pure a) Q E :=
  fun m n related => .ok (done m n related)

theorem Coupled.throw {failure : Failure} (failed : ∀ m n, R m n → E failure m n) :
    Coupled R (throw failure : Action σ α) (throw failure) Q E :=
  fun m n related => .error (failed m n related)

theorem Coupled.modify {f g : Machine σ → Machine σ} (changed : ∀ m n, R m n → Q (f m) (g n)) :
    Coupled R (modify f : Action σ Unit) (modify g) Q E :=
  fun m n related => .ok (changed m n related)

/-- What follows may use the two machines as they are. -/
theorem Coupled.get {next next' : Machine σ → Action σ α}
    (behind : ∀ m n, R m n → Paired Q E (next m m) (next' n n)) :
    Coupled R (get >>= next) (get >>= next') Q E :=
  behind

theorem Coupled.bind {first first' : Action σ α} {next next' : α → Action σ β}
    (before : Coupled R first first' Q E) (behind : ∀ a, Coupled Q (next a) (next' a) Q' E) :
    Coupled R (first >>= next) (first' >>= next') Q' E :=
  fun m n related => (before m n related).bind fun a one other _ => behind a one other

/-- A failure of the work is where the handlers start. -/
theorem Coupled.tryCatch {work work' : Action σ α} {handler handler' : Failure → Action σ α}
    {middle : Failure → Machine σ → Machine σ → Prop} (before : Coupled R work work' Q middle)
    (behind : ∀ failure, Coupled (middle failure) (handler failure) (handler' failure) Q E) :
    Coupled R (tryCatch work handler) (tryCatch work' handler') Q E := by
  intro m n related
  have done := before m n related
  show Paired Q E (EStateM.tryCatch work handler m) (EStateM.tryCatch work' handler' n)
  delta EStateM.tryCatch
  dsimp only
  -- only a failure is handled, on machines that are related as failures leave them
  generalize work m = result, work' n = result' at done
  cases done with
  | ok related => exact .ok related
  | error related => exact behind _ _ _ related

/-- What every action of a list keeps, the whole list keeps. -/
theorem Coupled.forM {items : List β} {act act' : β → Action σ PUnit}
    (each : ∀ item, Coupled R (act item) (act' item) R E) :
    Coupled R (items.forM act) (items.forM act') R E := by
  induction items with
  | nil => exact .pure fun _ _ related => related
  | cons item rest ih =>
    show Coupled R (act item >>= fun _ => rest.forM act) (act' item >>= fun _ => rest.forM act') R E
    exact (each item).bind fun _ => ih

theorem Coupled.mono {first second : Action σ α} {R' Q' : Machine σ → Machine σ → Prop}
    {E' : Failure → Machine σ → Machine σ → Prop} (coupled : Coupled R first second Q E)
    (stronger : ∀ m n, R' m n → R m n) (weaker : ∀ m n, Q m n → Q' m n)
    (weakerFail : ∀ failure m n, E failure m n → E' failure m n) :
    Coupled R' first second Q' E' := by
  intro m n related
  have done := coupled m n (stronger m n related)
  generalize first m = result, second n = result' at done
  cases done with
  | ok related => exact .ok (weaker _ _ related)
  | error related => exact .error (weakerFail _ _ _ related)

end Rules

/-! ## Relations around the processor -/

/-- **A relation on what lies around the processor.** Two machines that are related differ in operator,
control panel and journal alone. They stay related when both processors change to the same one with the
same mode, when lights and heater or the notes of the observers do so, and when the same record is
written into both journals. -/
structure Around (R : Machine σ → Machine σ → Prop) : Prop where
  same : ∀ m n, R m n →
    n = { m with operator := n.operator, control := n.control, journal := n.journal }
  processor : ∀ m n (cpu : Processor), R m n → cpu.mode = m.cpu.mode → cpu.tracing = m.cpu.tracing →
    R { m with cpu } { n with cpu }
  devices : ∀ m n (devices : Devices), R m n → devices.keyboard = m.devices.keyboard →
    R { m with devices } { n with devices }
  notes : ∀ m n notes, R m n → R { m with notes } { n with notes }
  journal : ∀ m n record, R m n →
    R { m with journal := record :: m.journal } { n with journal := record :: n.journal }

/-- The relation does not depend on the mode either. -/
structure Modeless (R : Machine σ → Machine σ → Prop) : Prop extends Around R where
  freely : ∀ m n (cpu : Processor), R m n → cpu.tracing = m.cpu.tracing →
    R { m with cpu } { n with cpu }

/-- The relation is not about memory and display either, but that they are the same. -/
structure Beyond (R : Machine σ → Machine σ → Prop) : Prop extends Around R where
  memory : ∀ m n memory, R m n → R { m with memory } { n with memory }
  display : ∀ m n display, R m n → R { m with display } { n with display }

/-- The relation is not about keyboard and operator either, but that they are the same. -/
structure Keyed (R : Machine σ → Machine σ → Prop) : Prop extends Around R where
  operator_eq : ∀ m n, R m n → n.operator = m.operator
  operator : ∀ m n operator, R m n → R { m with operator } { n with operator }
  keyboard : ∀ m n devices, R m n → R { m with devices } { n with devices }

/-- The action reads and writes the notes of the observers, and does nothing else. It may be refused. -/
def Private (action : Action σ α) : Prop :=
  ∃ outcome : σ → Except Refusal α × σ, ∀ m, action m = match outcome m.notes with
    | (.ok a, notes) => .ok a { m with notes }
    | (.error refusal, notes) => .error (.refused refusal) { m with notes }

theorem Around.cpu_eq {R : Machine σ → Machine σ → Prop} (around : Around R) {m n : Machine σ}
    (related : R m n) : n.cpu = m.cpu := by
  rw [around.same m n related]

theorem Around.devices_eq {R : Machine σ → Machine σ → Prop} (around : Around R) {m n : Machine σ}
    (related : R m n) : n.devices = m.devices := by
  rw [around.same m n related]

/-- What follows may look at anything but operator, control panel and journal. -/
theorem Around.get {R Q : Machine σ → Machine σ → Prop} {E : Failure → Machine σ → Machine σ → Prop}
    (around : Around R) {next : Machine σ → Action σ α}
    (blind : ∀ m operator control journal, next { m with operator, control, journal } = next m)
    (behind : ∀ m, Coupled R (next m) (next m) Q E) :
    Coupled R (get >>= next) (get >>= next) Q E := by
  refine Coupled.get fun m n related => ?_
  have looked : next n = next m := by
    rw [around.same m n related]
    exact blind m _ _ _
  rw [looked]
  exact behind m m n related

/-- The action keeps every relation around the processor, and ends in the same way on both machines. What
it can fail with is its own affair, too. -/
def Local (action : Action σ α) : Prop :=
  ∀ R, Around R → Coupled R action action R fun failure m n => failure.IsInternal ∧ R m n

section Local

theorem Local.pure (a : α) : Local (pure a : Action σ α) :=
  fun _ _ => Coupled.pure fun _ _ related => related

theorem Local.throw {failure : Failure} (internal : failure.IsInternal) :
    Local (throw failure : Action σ α) :=
  fun _ _ => Coupled.throw fun _ _ related => ⟨internal, related⟩

theorem Local.bind {first : Action σ α} {next : α → Action σ β} (before : Local first)
    (behind : ∀ a, Local (next a)) : Local (first >>= next) :=
  fun R around => Coupled.bind (before R around) fun a => behind a R around

theorem Local.get {next : Machine σ → Action σ α}
    (blind : ∀ m operator control journal, next { m with operator, control, journal } = next m)
    (behind : ∀ m, Local (next m)) : Local (get >>= next) :=
  fun R around => around.get blind fun m => behind m R around

/-- A change of the processor may be of anything but its mode, and of whether it keeps a trace. -/
theorem Local.processor {f : Processor → Processor}
    (keeps : ∀ cpu, (f cpu).mode = cpu.mode ∧ (f cpu).tracing = cpu.tracing) :
    Local (modify fun m => { m with cpu := f m.cpu } : Action σ Unit) := by
  refine fun R around => Coupled.modify fun m n related => ?_
  rw [around.cpu_eq related]
  exact around.processor m n _ related (keeps m.cpu).1 (keeps m.cpu).2

theorem local_record (level : Journal.Level) (part : Journal.Part) (text : String) :
    Local (record level part text : Action σ Unit) :=
  fun _ around => Coupled.modify fun m n related => around.journal m n _ related

theorem local_modifyRegs (f : Registers → Registers) : Local (modifyRegs f : Action σ Unit) :=
  .processor (f := fun cpu => { cpu with regs := f cpu.regs }) fun _ => ⟨rfl, rfl⟩

theorem local_getRegs : Local (getRegs : Action σ Registers) :=
  .get (fun _ _ _ _ => rfl) fun _ => .pure _

theorem local_orTrap (result : Except Trap α) : Local (orTrap result : Action σ α) := by
  cases result with
  | ok a => exact .pure a
  | error trap => exact .throw trivial

theorem local_load (address : Int) : Local (load address : Action σ UInt8) := by
  refine .get (fun _ _ _ _ => rfl) fun m => ?_
  split
  · exact .pure _
  · exact .throw trivial

/-- A change of the devices may be of anything but the keyboard. -/
theorem local_modifyDevices {f : Devices → Devices}
    (keeps : ∀ devices, (f devices).keyboard = devices.keyboard) :
    Local (modifyDevices f : Action σ Unit) := by
  refine fun R around => Coupled.modify fun m n related => ?_
  rw [around.devices_eq related]
  exact around.devices m n _ related (keeps m.devices)

theorem local_setBurner (on : Bool) : Local (setBurner on : Action σ Unit) :=
  .bind (local_modifyDevices fun _ => rfl) fun _ => local_record _ _ _

/-! ## Operands -/

theorem local_advance : Local (advance : Action σ Unit) :=
  local_modifyRegs _

theorem local_fetch : Local (fetch : Action σ UInt8) := by
  refine .bind local_advance fun _ => .get (fun _ _ _ _ => rfl) fun m => ?_
  split
  · exact .bind (.throw trivial) fun _ => local_load _
  · exact local_load _

theorem local_register (code : UInt8) : Local (register code : Action σ Register) := by
  unfold register
  split
  · exact .pure _
  · exact .throw trivial

theorem local_readRegister (r : Register) : Local (readRegister r : Action σ UInt8) :=
  .bind local_getRegs fun _ => .pure _

theorem local_readOperand (shape : Shape) (code : UInt8) :
    Local (readOperand shape code : Action σ UInt8) := by
  cases shape with
  | register => exact .bind (local_register _) local_readRegister
  | address => exact local_load _
  | indirect => exact .bind local_getRegs fun _ => local_load _
  | stackOffset => exact .bind local_getRegs fun _ => local_load _
  | immediate => exact .pure _
  | target => exact .pure _
  | label => exact .pure _
  | text => exact .pure _

theorem local_fetchPair (right : Right) : Local (fetchPair right : Action σ (UInt8 × UInt8)) :=
  .bind local_fetch fun _ => .bind local_fetch fun _ =>
    .bind (local_readOperand _ _) fun _ => .pure _

theorem local_pop : Local (pop : Action σ UInt8) := by
  refine .bind (local_modifyRegs _) fun _ => .bind local_getRegs fun _ => ?_
  refine .bind (local_load _) fun value => .bind local_getRegs fun regs => ?_
  split
  · exact .bind (.throw trivial) fun _ => .pure _
  · exact .bind (.pure _) fun _ => .pure _

/-! ## Instructions that tell nobody -/

theorem local_binary (op : Binary) (right : Right) : Local (binary op right : Action σ Unit) :=
  .bind (local_fetchPair _) fun _ => .bind (local_register _) fun _ =>
    .bind (local_readRegister _) fun _ => .bind (local_orTrap _) fun _ =>
      .bind (local_modifyRegs _) fun _ => .bind (local_modifyRegs _) fun _ => local_advance

theorem local_compare (right : Right) : Local (compare right : Action σ Unit) :=
  .bind (local_fetchPair _) fun _ => .bind (local_register _) fun _ =>
    .bind (local_readRegister _) fun _ => .bind (local_modifyRegs _) fun _ => local_advance

theorem local_shift (direction : Shift) (right : Right) :
    Local (shift direction right : Action σ Unit) := by
  refine .bind (local_fetchPair _) fun _ => .bind (local_register _) fun _ =>
    .bind (local_readRegister _) fun _ => ?_
  split
  · exact .bind (local_modifyRegs _) fun _ => .bind (local_modifyRegs _) fun _ => local_advance
  · exact local_advance

theorem local_unary (op : Unary) : Local (unary op : Action σ Unit) := by
  refine .bind local_fetch fun _ => .bind (local_register _) fun _ =>
    .bind (local_readRegister _) fun _ => .bind (local_modifyRegs _) fun _ => ?_
  split
  · exact .bind (local_modifyRegs _) fun _ => local_advance
  · exact .bind (local_modifyRegs _) fun _ => local_advance

theorem local_jump (condition : Condition) (destination : Destination) :
    Local (jump condition destination : Action σ Unit) := by
  refine .bind local_fetch fun _ => .bind (local_readOperand _ _) fun _ =>
    .bind local_getRegs fun regs => ?_
  split
  · exact local_modifyRegs _
  · exact local_advance

theorem local_popRegister : Local (popRegister : Action σ Unit) :=
  .bind local_fetch fun _ => .bind (local_register _) fun _ => .bind local_pop fun _ =>
    .bind (local_modifyRegs _) fun _ => local_advance

theorem local_popStatus : Local (popStatus : Action σ Unit) :=
  .bind local_pop fun _ => .bind (local_modifyRegs _) fun _ => local_advance

theorem local_ret : Local (do goto (← pop) : Action σ Unit) :=
  .bind local_pop fun _ => local_modifyRegs _

/-! ## Around the instruction -/

theorem local_traceInstr (ip : Int) (instr : Instr) :
    Local (traceInstr ip instr : Action σ Unit) := by
  refine fun R around => Coupled.modify fun m n related => ?_
  rw [around.cpu_eq related]
  split
  · exact around.processor m n _ related rfl rfl
  · exact related

theorem local_fetchInstr (ip : Int) : Local (fetchInstr ip : Action σ Instr) := by
  refine .get (fun _ _ _ _ => rfl) fun m => ?_
  split
  · refine .bind (.throw trivial) fun _ => .bind (local_load ip) fun opcode => ?_
    cases Instr.decode? opcode.toNat with
    | some instr => exact .pure _
    | none => exact .throw trivial
  · refine .bind (local_load ip) fun opcode => ?_
    cases Instr.decode? opcode.toNat with
    | some instr => exact .pure _
    | none => exact .throw trivial

end Local

/-! ## Observers -/

/-- What only observers know about keeps every relation around the processor. -/
theorem Private.coupled {action : Action σ α} (own : Private action)
    {R : Machine σ → Machine σ → Prop} (around : Around R) :
    Coupled R action action R fun failure m n => (∃ refusal, failure = .refused refusal) ∧ R m n := by
  obtain ⟨outcome, acts⟩ := own
  intro m n related
  have sameNotes : n.notes = m.notes := by rw [around.same m n related]
  -- an action of its own is a function of the notes, which are the same on both machines
  rw [acts m, acts n, sameNotes]
  obtain ⟨result, notes⟩ := outcome m.notes
  cases result with
  | ok a => exact .ok (around.notes m n notes related)
  | error refusal => exact .error ⟨⟨refusal, rfl⟩, around.notes m n notes related⟩

section Beyond

variable {env : Env σ} {R : Machine σ → Machine σ → Prop} {E : Failure → Machine σ → Machine σ → Prop}
  (beyond : Beyond R)
  (notify : ∀ hook notice, Coupled R (env.notify hook notice) (env.notify hook notice) R E)
include beyond notify

theorem Beyond.tellListeners (address : Int) (value : UInt8) :
    Coupled R (tellListeners env address value) (tellListeners env address value) R E := by
  refine beyond.get (fun _ _ _ _ => rfl) fun m => .forM fun listener => ?_
  cases listener with
  | hook hook => exact notify hook _
  | display =>
    -- the display is on both machines the same, so the letter makes it the same again
    refine Coupled.modify fun m n related => ?_
    have shows : n.display = m.display := by rw [beyond.same m n related]
    rw [shows]
    exact beyond.display m n _ related

/-- **Stores keep a relation** that is not about memory and display, if the observers do. -/
theorem Beyond.store (internal : ∀ failure m n, failure.IsInternal → R m n → E failure m n)
    (address value : Int) : Coupled R (store env address value) (store env address value) R E := by
  have loads : Coupled R (load address : Action σ UInt8) (load address) R E :=
    (local_load address R beyond.toAround).mono (fun _ _ related => related)
      (fun _ _ related => related) fun _ _ _ failed => internal _ _ _ failed.1 failed.2
  refine .bind loads fun old => .bind (Q := R) (Coupled.modify fun m n related => ?_) fun _ =>
    beyond.get (fun _ _ _ _ => rfl) fun m => .bind (.forM fun hook => notify hook _) fun _ => ?_
  -- both memories hold the same, so the byte that is stored makes them the same again
  · have holds : n.memory = m.memory := by rw [beyond.same m n related]
    rw [holds]
    exact beyond.memory m n _ related
  · split
    · exact beyond.tellListeners notify _ _
    · exact Coupled.pure fun _ _ related => related

end Beyond

/-! ## The keyboard -/

section Keyed

variable {R : Machine σ → Machine σ → Prop} (keyed : Keyed R)
include keyed

theorem Keyed.modifyDevices (f : Devices → Devices) :
    Coupled R (modifyDevices f : Action σ Unit) (modifyDevices f) R fun _ => R := by
  refine Coupled.modify fun m n related => ?_
  rw [keyed.devices_eq related]
  exact keyed.keyboard m n _ related

theorem Keyed.press (key : Key) :
    Coupled R (press key : Action σ Bool) (press key) R fun _ => R := by
  unfold Machine.press
  split
  · exact Coupled.throw fun _ _ related => related
  · next code _ =>
    refine keyed.get (fun _ _ _ _ => rfl) fun m => ?_
    -- the keyboard takes the code or not, and only the device knows
    generalize m.devices.keyboard.press code = outcome
    refine .bind (keyed.modifyDevices _) fun _ => ?_
    have returns : ∀ taken : Bool, Coupled R (pure taken : Action σ Bool) (pure taken) R fun _ => R :=
      fun _ => Coupled.pure fun _ _ related => related
    cases outcome.1 with
    | true => exact returns true
    -- what was not taken is logged, and the journal may differ
    | false =>
      exact .bind (Coupled.modify fun m n related => keyed.journal m n _ related) fun _ => returns false

/-- The operator presses the next key. -/
theorem Keyed.feed (key : Key) (rest : List Key) :
    Coupled R (do
      modify fun m => { m with operator := { m.operator with feed := rest } }
      discard (Machine.press key) : Action σ PUnit) (do
      modify fun m => { m with operator := { m.operator with feed := rest } }
      discard (Machine.press key)) R fun _ => R := by
  refine .bind (Q := R) (Coupled.modify fun m n related => ?_) fun _ =>
    .bind (keyed.press key) fun _ => Coupled.pure fun _ _ related => related
  rw [keyed.operator_eq m n related]
  exact keyed.operator m n _ related

theorem Keyed.takeKey : Coupled R (takeKey : Action σ UInt8) takeKey R fun _ => R := by
  refine keyed.get (fun _ _ _ _ => rfl) fun m => ?_
  split
  · exact Coupled.throw fun _ _ related => related
  · refine .bind (keyed.modifyDevices _) fun _ => ?_
    split
    · exact Coupled.pure fun _ _ related => related
    · exact Coupled.throw fun _ _ related => related

/-- **Reading the keyboard keeps a relation** that is not about it. -/
theorem Keyed.readKey : Coupled R (readKey : Action σ UInt8) readKey R fun _ => R := by
  refine Coupled.get fun m n related => ?_
  rw [keyed.devices_eq related, keyed.operator_eq m n related]
  cases m.devices.keyboard.pending with
  | true => exact keyed.takeKey m n related
  | false =>
    -- without a pending key the operator is asked for one, or the read is given up
    cases m.operator.feed with
    | cons key rest =>
      exact ((keyed.feed key rest).bind fun _ => keyed.takeKey) m n related
    | nil =>
      cases m.operator.patience with
      | abort => exact ((keyed.modifyDevices _).bind fun _ => keyed.takeKey) m n related
      | wait => exact keyed.takeKey m n related

end Keyed

/-! ## Environments -/

end Machine

/-- **Stores, observers and attached devices keep a relation** around the processor. A looser one does not
depend on the mode. What holds after a failure may depend on it; the failure of an abandoned input is
passed on, and others may become faults. -/
structure Env.Carries {σ : Type} (env : Env σ) (R looser : Machine σ → Machine σ → Prop)
    (E : Failure → Machine σ → Machine σ → Prop) : Prop where
  around : Machine.Around R
  modeless : Machine.Modeless looser
  loosen : ∀ m n, R m n → looser m n
  internal : ∀ failure m n, failure.IsInternal → R m n → E failure m n
  fault : ∀ fault m n, looser m n → E (.fault fault) m n
  settle : ∀ failure m n, E failure m n → looser m n
  rewind : ∀ m n ip, E .aborted m n →
    E .aborted { m with cpu := { m.cpu with regs := { m.cpu.regs with ip } } }
      { n with cpu := { n.cpu with regs := { n.cpu.regs with ip } } }
  notify : ∀ hook notice, Machine.Coupled R (env.notify hook notice) (env.notify hook notice) R E
  answer : ∀ hook port, Machine.Coupled R (env.answer hook port) (env.answer hook port) R E
  store : ∀ address value, Machine.Coupled R (Machine.store env address value)
    (Machine.store env address value) R E

namespace Machine

section Modeless

variable {looser : Machine σ → Machine σ → Prop} {E : Failure → Machine σ → Machine σ → Prop}
  (modeless : Modeless looser)
include modeless

/-- Where the relation does not depend on the mode, a change of the processor may be of that too. -/
theorem Modeless.change {f : Processor → Processor} (keeps : ∀ cpu, (f cpu).tracing = cpu.tracing) :
    Coupled looser (modify fun m => { m with cpu := f m.cpu } : Action σ Unit)
      (modify fun m => { m with cpu := f m.cpu }) looser E := by
  refine Coupled.modify fun m n related => ?_
  rw [modeless.cpu_eq related]
  exact modeless.freely m n _ related (keeps m.cpu)

theorem Modeless.record (level : Journal.Level) (part : Journal.Part) (text : String) :
    Coupled looser (record level part text : Action σ Unit) (record level part text) looser E :=
  Coupled.modify fun m n related => modeless.journal m n _ related

theorem Modeless.modifyRegs (f : Registers → Registers) :
    Coupled looser (modifyRegs f : Action σ Unit) (modifyRegs f) looser E :=
  modeless.change (f := fun cpu => { cpu with regs := f cpu.regs }) fun _ => rfl

/-- The end of an input does not fail. -/
theorem Modeless.receive (value : UInt8) :
    Coupled looser (receive value : Action σ Unit) (receive value) looser E :=
  (modeless.modifyRegs _).bind fun _ => modeless.modifyRegs _

theorem Modeless.halt : Coupled looser (halt : Action σ Unit) halt looser E := by
  refine Coupled.bind (modeless.change (f := fun cpu => { cpu with mode := .halted }) fun _ => rfl)
    fun _ => (modeless.modifyRegs _).bind fun _ => Coupled.get fun m n related => ?_
  rw [modeless.cpu_eq related]
  exact modeless.record _ _ _ m n related

theorem Modeless.latch (reason : FaultReason) (ip : Int) :
    Coupled looser (latch reason ip : Action σ Unit) (latch reason ip) looser fun failure m n =>
      (∃ fault, failure = .fault fault) ∧ looser m n := by
  refine Coupled.bind (modeless.change (f := fun cpu => { cpu with
    regs := { cpu.regs with sr := Status.setFault cpu.regs.sr true }
    mode := .faulted
    lastFault := some ⟨reason, ip⟩ }) fun _ => rfl) fun _ => ?_
  exact Coupled.bind (modeless.record _ _ _) fun _ =>
    Coupled.throw fun _ _ related => ⟨⟨_, rfl⟩, related⟩

/-- Counting an instruction may latch a fault. -/
theorem Modeless.complete (ip : Int) :
    Coupled looser (complete ip : Action σ Unit) (complete ip) looser E := by
  refine Coupled.bind (modeless.change (f := fun cpu => { cpu with
    instructions := cpu.instructions + 1 }) fun _ => rfl) fun _ => Coupled.get fun m n related => ?_
  show Paired _ _ ((if Status.fault m.cpu.regs.sr then _ else _ : Action σ Unit) m)
    ((if Status.fault n.cpu.regs.sr then _ else _ : Action σ Unit) n)
  rw [modeless.cpu_eq related]
  split
  -- both machines have the same flags, so a restored fault flag stops both
  · refine Coupled.bind (modeless.change (f := fun cpu => { cpu with
      mode := .faulted, lastFault := some ⟨.flagRestored, ip⟩ }) fun _ => rfl) (fun _ => ?_) m n related
    exact modeless.record _ _ _
  · exact .ok related

end Modeless

end Machine

namespace Env.Carries

open Machine

variable {σ α : Type} {env : Env σ} {R looser : Machine σ → Machine σ → Prop}
  {E : Failure → Machine σ → Machine σ → Prop} (carries : env.Carries R looser E)
include carries

theorem of_local {action : Action σ α} (acts : Local action) : Coupled R action action R E :=
  (acts R carries.around).mono (fun _ _ related => related) (fun _ _ related => related)
    fun _ _ _ failed => carries.internal _ _ _ failed.1 failed.2

/-- Some actions promise less when they succeed. -/
theorem weaken {action : Action σ α} (keeps : Coupled R action action R E) :
    Coupled R action action looser E :=
  keeps.mono (fun _ _ related => related) carries.loosen fun _ _ _ failed => failed

/-! ### Ports -/

theorem updateLights (value : Int) :
    Coupled R (updateLights env value) (updateLights env value) R E := by
  refine carries.around.get (fun _ _ _ _ => rfl) fun m => .bind (Q := R) ?_ fun _ => ?_
  · exact carries.of_local (local_modifyDevices fun _ => rfl)
  split
  · refine carries.around.get (fun _ _ _ _ => rfl) fun now => .forM fun hook => ?_
    exact carries.around.get (fun _ _ _ _ => rfl) fun _ => carries.notify hook _
  · exact carries.of_local (.pure _)

theorem writePort (port value : Int) :
    Coupled R (writePort env port value) (writePort env port value) R E := by
  refine carries.around.get (fun _ _ _ _ => rfl) fun m => .bind (Q := R) ?_ fun _ =>
    carries.around.get (fun _ _ _ _ => rfl) fun now => .forM fun hook => carries.notify hook _
  cases m.bus.writer? port with
  | none => exact carries.of_local (local_record _ _ _)
  | some writer =>
    cases writer with
    | lights => exact carries.updateLights _
    | heater => exact carries.of_local (local_setBurner _)
    | hook hook => exact carries.notify hook _

/-- Reading a port keeps the relation, if it is not the keyboard's or the keyboard keeps it. -/
theorem paired_readPort {port : Int} {m n : Machine σ} (related : R m n)
    (keys : m.bus.reader? port = some .keyboard →
      Paired looser E ((readKey : Action σ UInt8) m) (readKey n)) :
    Paired looser E (readPort env port m) (readPort env port n) := by
  have sameBus : n.bus = m.bus := by rw [carries.around.same m n related]
  have sameDevices := carries.around.devices_eq related
  -- both machines have the same bus, so the same reader is bound to the port
  rw [readPort, get_bind, get_bind, sameBus, sameDevices]
  cases bound : m.bus.reader? port with
  | none => exact .ok (carries.loosen m n related)
  | some reader =>
    cases reader with
    | keyboard => exact keys bound
    | heater => exact .ok (carries.loosen m n related)
    | hook hook =>
      exact carries.weaken ((carries.answer hook port).bind fun _ => carries.of_local (.pure _)) m n
        related

/-! ### Instructions and steps -/

theorem push (value : Int) : Coupled R (push env value) (push env value) R E := by
  refine Coupled.bind (carries.of_local local_getRegs) fun _ => Coupled.bind (carries.store _ _)
    fun _ => carries.of_local (.bind (local_modifyRegs _) fun _ => .bind local_getRegs fun regs => ?_)
  split
  · exact .throw trivial
  · exact .pure _

theorem writeOperand (shape : Shape) (code value : UInt8) :
    Coupled R (writeOperand env shape code value) (writeOperand env shape code value) R E := by
  cases shape with
  | register => exact carries.of_local (.bind (local_register _) fun _ => local_modifyRegs _)
  | address => exact carries.store _ _
  | indirect => exact Coupled.bind (carries.of_local local_getRegs) fun _ => carries.store _ _
  | stackOffset => exact Coupled.bind (carries.of_local local_getRegs) fun _ => carries.store _ _
  | immediate => exact carries.of_local (.pure _)
  | target => exact carries.of_local (.pure _)
  | label => exact carries.of_local (.pure _)
  | text => exact carries.of_local (.pure _)

/-- **Instructions keep the relation**; the input is a matter of its own. -/
theorem execute {instr : Instr} (other : instr ≠ .input) :
    Coupled R (execute env instr) (execute env instr) looser E := by
  -- what an instruction with operands does in front of its request, and behind it
  have fetches := carries.of_local local_fetch
  have reads := fun shape code => carries.of_local (local_readOperand shape code)
  have looks := carries.of_local local_getRegs
  have ends := carries.of_local local_advance
  cases instr with
  | halt =>
    -- the only instruction that changes the mode
    exact carries.modeless.halt.mono carries.loosen (fun _ _ related => related)
      fun _ _ _ failed => failed
  | move form =>
    exact carries.weaken (fetches.bind fun _ => fetches.bind fun _ => (reads _ _).bind fun _ =>
      (carries.writeOperand _ _ _).bind fun _ => ends)
  | push value =>
    exact carries.weaken (fetches.bind fun _ => (reads _ _).bind fun _ =>
      (carries.push _).bind fun _ => ends)
  | pushFlags => exact carries.weaken (looks.bind fun _ => (carries.push _).bind fun _ => ends)
  | call destination =>
    exact carries.weaken (fetches.bind fun _ => (reads _ _).bind fun _ => looks.bind fun _ =>
      (carries.push _).bind fun _ => carries.of_local (local_modifyRegs _))
  | output =>
    exact carries.weaken (fetches.bind fun _ => looks.bind fun _ =>
      (carries.writePort _ _).bind fun _ => ends)
  | binary op right => exact carries.weaken (carries.of_local (local_binary op right))
  | unary op => exact carries.weaken (carries.of_local (local_unary op))
  | compare right => exact carries.weaken (carries.of_local (local_compare right))
  | jump condition destination =>
    exact carries.weaken (carries.of_local (local_jump condition destination))
  | pop => exact carries.weaken (carries.of_local local_popRegister)
  | popFlags => exact carries.weaken (carries.of_local local_popStatus)
  | ret => exact carries.weaken (carries.of_local local_ret)
  | shift direction right => exact carries.weaken (carries.of_local (local_shift direction right))
  | input => exact absurd rfl other

/-- The input keeps the relation if the keyboard does. -/
theorem input (keys : Coupled R (readKey : Action σ UInt8) readKey looser E) :
    Coupled R (input env) (input env) looser E :=
  (carries.of_local local_fetch).bind fun _ => Coupled.bind
    (fun m n related => carries.paired_readPort related fun _ => keys m n related) fun value =>
      carries.modeless.receive value

/-- What becomes of a failure is again one that keeps the relation. -/
theorem recover (ip : Int) (failure : Failure) :
    Coupled (E failure) (recover ip failure : Action σ Unit) (recover ip failure) looser E := by
  have latches : ∀ reason, Coupled (E failure) (latch reason ip : Action σ Unit) (latch reason ip)
      looser E := by
    -- a fault is latched in the same way on both, and what was left by the failure is settled
    intro reason
    refine (carries.modeless.latch reason ip).mono (fun _ _ => carries.settle failure _ _)
      (fun _ _ related => related) ?_
    rintro _ m n ⟨⟨fault, rfl⟩, related⟩
    exact carries.fault fault m n related
  cases failure with
  | trap trap => exact latches _
  | outOfBounds access => exact latches _
  | refused refusal => exact latches _
  | fault fault => exact latches _
  | waiting => exact Coupled.throw fun _ _ failed => failed
  -- an abort takes the pointer back; what it has left is carried over
  | aborted =>
    refine Coupled.bind (Q := E .aborted) (Coupled.modify fun m n failed => ?_) fun _ =>
      Coupled.throw fun _ _ failed => failed
    exact carries.rewind m n ip failed

/-- A latched fault is raised again. -/
theorem refault : Coupled R (refault : Action σ Unit) refault looser E := by
  refine carries.around.get (fun _ _ _ _ => rfl) fun m => ?_
  dsimp only
  have raises : ∀ fault, Coupled R (throw (.fault fault) : Action σ Unit) (throw (.fault fault))
      looser E :=
    fun fault => Coupled.throw fun m n related => carries.fault fault m n (carries.loosen m n related)
  -- a fault that has no description yet gets the same one on both machines
  split
  · exact raises _
  · refine .bind (Q := R) (Coupled.modify fun m n related => ?_) fun _ => raises _
    rw [carries.around.cpu_eq related]
    exact carries.around.processor m n _ related rfl rfl

/-- **The work of an instruction** is treated in the same way on both machines, whatever it comes to. -/
theorem guarded {before : Machine σ → Machine σ → Prop} {work : Action σ Unit} (ip : Int)
    (worked : Coupled before work work looser E) :
    Coupled before (guarded ip work) (guarded ip work) looser E :=
  (worked.tryCatch (carries.recover ip)).bind fun _ => carries.modeless.complete ip

/-- **Steps keep the relation**, completed or not, if the keyboard does. -/
theorem step (keys : Coupled R (readKey : Action σ UInt8) readKey looser E) :
    Coupled R (step env) (step env) looser E := by
  refine carries.around.get (fun _ _ _ _ => rfl) fun m => ?_
  dsimp only
  -- a processor that is not ready does nothing that could be told apart
  cases m.cpu.mode with
  | halted => exact carries.weaken (carries.of_local (.pure _))
  | faulted => exact carries.refault
  | ready =>
    refine carries.guarded _ (.bind (carries.of_local (local_fetchInstr _)) fun instr => ?_)
    refine .bind (carries.of_local (local_traceInstr _ instr)) fun _ => ?_
    -- only reading a port may come to the keys, which has its own hypothesis
    by_cases isInput : instr = .input
    · rw [isInput]
      exact carries.input keys
    · exact carries.execute isInput

end Env.Carries

end EightBit
