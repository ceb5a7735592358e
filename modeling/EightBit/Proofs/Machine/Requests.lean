import EightBit.Proofs.Machine.Stack

/-!
# What Instructions Ask For

Around the processor an instruction does one thing at most: it reads a port, it writes a port, or it
stores a byte. Whatever devices and observers make of that is done by the one request; the rest of the
instruction changes the processor, and the journal of what it does.

## Main Definitions

- `Request`, `requests`, `Asks`: the requests, and which of them an instruction makes.
- `Inward`: only the processor and the journal have changed.
- `Outside`: what has become of everything else.
- `work`: a step up to the point where its outcome is looked at.

## Main Statements

- `outside_execute`: nothing is done around the processor but the request of the instruction.
- `step_outside`: the same of a step.
-/

namespace EightBit.Machine

variable {σ α β : Type} {env : Env σ}

/-! ## Parts of a run -/

/-- A sequence has succeeded in its parts. -/
theorem exists_of_bind_ok {first : Action σ α} {next : α → Action σ β} {m after : Machine σ} {b : β}
    (ran : (first >>= next) m = .ok b after) :
    ∃ a middle, first m = .ok a middle ∧ next a middle = .ok b after := by
  change EStateM.bind first next m = _ at ran
  rw [EStateM.bind] at ran
  cases started : first m with
  | ok a middle =>
    rw [started] at ran
    exact ⟨a, middle, rfl, ran⟩
  | error failure middle =>
    rw [started] at ran
    cases ran

/-- What comes behind a success starts where it has ended. -/
theorem bind_of_ok {first : Action σ α} {next : α → Action σ β} {m middle : Machine σ} {a : α}
    (ran : first m = .ok a middle) : (first >>= next) m = next a middle := by
  change EStateM.bind first next m = _
  rw [EStateM.bind, ran]

theorem bind_of_error {first : Action σ α} {next : α → Action σ β} {m after : Machine σ}
    {failure : Failure} (failed : first m = .error failure after) :
    (first >>= next) m = .error failure after := by
  change EStateM.bind first next m = _
  rw [EStateM.bind, failed]

theorem tryCatch_of_ok {work : Action σ α} {handler : Failure → Action σ α} {m after : Machine σ} {a : α}
    (worked : work m = .ok a after) : tryCatch work handler m = .ok a after := by
  change EStateM.tryCatch work handler m = _
  delta EStateM.tryCatch
  simp only [worked]

/-- The handler starts with what the work has done. -/
theorem tryCatch_of_error {work : Action σ α} {handler : Failure → Action σ α} {m stopped : Machine σ}
    {failure : Failure} (failed : work m = .error failure stopped) :
    tryCatch work handler m = handler failure stopped := by
  change EStateM.tryCatch work handler m = _
  delta EStateM.tryCatch
  simp only [failed]
  rfl

/-- A query that has succeeded has changed nothing. -/
theorem query_ok {ε : Type} {wrap : ε → Failure} {result : Except ε α} {action : Action σ α}
    {m after : Machine σ} {a : α} (asks : action m = answer wrap result m)
    (ran : action m = .ok a after) : result = .ok a ∧ after = m := by
  rw [asks] at ran
  cases result with
  | ok found =>
    cases ran
    exact ⟨rfl, rfl⟩
  | error e => cases ran

/-! ## Changes inside -/

/-- **Only the processor has changed**, and the journal that is written about it. -/
def Inward (m after : Machine σ) : Prop :=
  after = { m with cpu := after.cpu, journal := after.journal }

theorem Inward.refl (m : Machine σ) : Inward m m :=
  rfl

theorem Inward.trans {m between after : Machine σ} (first : Inward m between)
    (second : Inward between after) : Inward m after := by
  rw [Inward, second, first]

theorem Inward.memory_eq {m after : Machine σ} (inward : Inward m after) :
    after.memory = m.memory := by
  rw [inward]

/-- The action changes nothing else, if it succeeds. -/
def Inner (action : Action σ α) : Prop :=
  ∀ m, Ensures (Inward m) action (fun _ => Inward m) fun _ _ => True

theorem Inner.inward {action : Action σ α} (inner : Inner action) {m after : Machine σ} {a : α}
    (ran : action m = .ok a after) : Inward m after := by
  have kept := inner m m (.refl m)
  rwa [ran] at kept

theorem Inner.pure (a : α) : Inner (pure a : Action σ α) :=
  fun _ => .pure fun _ inward => inward

theorem Inner.throw (failure : Failure) : Inner (throw failure : Action σ α) :=
  fun _ => .throw fun _ _ => trivial

theorem Inner.bind {first : Action σ α} {next : α → Action σ β} (start : Inner first)
    (rest : ∀ a, Inner (next a)) : Inner (first >>= next) :=
  fun m => .bind (start m) fun a => rest a m

theorem Inner.get {next : Machine σ → Action σ α} (rest : ∀ m, Inner (next m)) :
    Inner (get >>= next) :=
  fun m => .get fun now inward => .of_eq inward (rest now m)

theorem Inner.modify {f : Machine σ → Machine σ} (changed : ∀ m, Inward m (f m)) :
    Inner (modify f : Action σ Unit) :=
  fun _ => .modify fun now inward => inward.trans (changed now)

theorem Inner.query {ε : Type} {action : Action σ α} {wrap : ε → Failure}
    (result : Machine σ → Except ε α) (asks : ∀ m, action m = answer wrap (result m) m) :
    Inner action := by
  intro m now inward
  cases ran : action now with
  | ok a after =>
    obtain ⟨-, rfl⟩ := query_ok (asks now) ran
    exact inward
  | error failure after => trivial

theorem inner_modifyRegs (f : Registers → Registers) : Inner (modifyRegs f : Action σ Unit) :=
  .modify fun _ => rfl

theorem inner_getRegs : Inner (getRegs : Action σ Registers) :=
  .get fun _ => .pure _

theorem inner_load (address : Int) : Inner (load address : Action σ UInt8) :=
  .query _ (load_eq address)

theorem inner_register (code : UInt8) : Inner (register code : Action σ Register) :=
  .query (fun _ => _) (register_eq code)

theorem inner_readRegister (r : Register) : Inner (readRegister r : Action σ UInt8) :=
  .bind inner_getRegs fun _ => .pure _

theorem inner_readOperand (shape : Shape) (code : UInt8) :
    Inner (readOperand shape code : Action σ UInt8) :=
  .query _ (readOperand_eq shape code)

theorem inner_orTrap (result : Except Trap α) : Inner (orTrap result : Action σ α) :=
  .query (fun _ => _) (orTrap_eq result)

theorem inner_fetch : Inner (fetch : Action σ UInt8) := by
  refine .bind (inner_modifyRegs _) fun _ => .get fun m => ?_
  split
  · exact .bind (.throw _) fun _ => inner_load _
  · exact inner_load _

theorem inner_pop : Inner (pop : Action σ UInt8) := by
  refine .bind (inner_modifyRegs _) fun _ => .bind inner_getRegs fun regs =>
    .bind (inner_load _) fun value => .bind inner_getRegs fun _ => ?_
  split
  · exact .bind (.throw _) fun _ => .pure _
  · exact .pure _

theorem inner_fetchPair (right : Right) : Inner (fetchPair right : Action σ (UInt8 × UInt8)) :=
  .bind inner_fetch fun _ => .bind inner_fetch fun _ => .bind (inner_readOperand _ _) fun _ => .pure _

/-! ## Requests -/

/-- What an instruction can ask of what is around the processor. -/
inductive Request
  | read (port : UInt8)
  | write (port value : UInt8)
  | store (address : Int) (value : UInt8)
  deriving DecidableEq, Repr

/-- Carries out a request, and gives the byte that is passed. -/
def Request.perform (env : Env σ) : Request → Action σ UInt8
  | .read port => readPort env port.toNat
  | .write port value => do
    writePort env port.toNat value.toNat
    return value
  | .store address value => do
    Machine.store env address value.toNat
    return value

/-- The instruction makes this request: an input reads the port of its operand byte, an output writes the
first register to it, and what stores a byte asks for that. -/
inductive Asks (regs : Registers) (memory : Memory) : Instr → Request → Prop
  | read {port} (operand : HasOperand regs memory .input 0 .immediate port) :
      Asks regs memory .input (.read port)
  | write {port} (operand : HasOperand regs memory .output 0 .immediate port) :
      Asks regs memory .output (.write port regs.al)
  | store {instr address value} (stores : Stores regs memory instr address value) :
      Asks regs memory instr (.store address value)

theorem Denotes.unique {regs : Registers} {memory : Memory} {instr : Instr} {index : Nat}
    {address other : Int} (is : Denotes regs memory instr index address)
    (again : Denotes regs memory instr index other) : address = other := by
  obtain ⟨shape, code, operand, place⟩ := is
  obtain ⟨shape', code', operand', place'⟩ := again
  obtain ⟨rfl, rfl⟩ := operand.unique operand'
  exact Option.some.inj (place.symm.trans place')

/-- An instruction stores one byte, at one address. -/
theorem Stores.unique {regs : Registers} {memory : Memory} {instr : Instr} {address other : Int}
    {value byte : UInt8} (stores : Stores regs memory instr address value)
    (again : Stores regs memory instr other byte) : address = other ∧ value = byte := by
  -- a move pushes nothing and whatever pushes is no move, so both are made by the same rule
  cases stores with
  | move place source =>
    cases again with
    | move place' source' => exact ⟨place.unique place', source.unique source'⟩
    | push pushes => cases pushes
  | push pushes =>
    cases again with
    | move place source => cases pushes
    | push pushes' => exact ⟨rfl, pushes.unique pushes'⟩

/-- The instructions that make a request: two for the ports, and those that store a byte. -/
def requests : Instr → Bool
  | .move form => form.shapes.1 ≠ .register
  | .push _ | .pushFlags | .call _ | .output | .input => true
  | _ => false

/-- **What has become of everything around the processor**: the request of the instruction has been
carried out, once, or it is one that makes none. -/
inductive Outside (env : Env σ) (m : Machine σ) (instr : Instr) (after : Machine σ) : Prop
  | silent (nothing : requests instr = false) (inward : Inward m after)
  | asked {request : Request} {byte : UInt8} {before between : Machine σ}
      (asks : Asks m.cpu.regs m.memory instr request) (reached : Inward m before)
      (performed : request.perform env before = .ok byte between) (rest : Inward between after)

/-! ## Instructions without a request -/

theorem inner_advance : Inner (advance : Action σ Unit) :=
  inner_modifyRegs _

theorem inner_halt : Inner (halt : Action σ Unit) := by
  refine .bind (.modify fun _ => rfl) fun _ => ?_
  exact .bind inner_advance fun _ => .get fun _ => .modify fun _ => rfl

theorem inner_move {form : Move} (isRegister : form.shapes.1 = .register) :
    Inner (move env form) := by
  refine .bind inner_fetch fun destination => .bind inner_fetch fun source =>
    .bind (inner_readOperand _ _) fun value => .bind ?_ fun _ => inner_advance
  rw [isRegister]
  exact .bind (inner_register _) fun _ => inner_modifyRegs _

theorem inner_binary (op : Binary) (right : Right) : Inner (binary op right : Action σ Unit) :=
  .bind (inner_fetchPair right) fun _ => .bind (inner_register _) fun _ =>
    .bind (inner_readRegister _) fun _ => .bind (inner_orTrap _) fun _ =>
    .bind (inner_modifyRegs _) fun _ => .bind (inner_modifyRegs _) fun _ => inner_advance

theorem inner_compare (right : Right) : Inner (compare right : Action σ Unit) :=
  .bind (inner_fetchPair right) fun _ => .bind (inner_register _) fun _ =>
    .bind (inner_readRegister _) fun _ => .bind (inner_modifyRegs _) fun _ => inner_advance

theorem inner_shift (direction : Shift) (right : Right) :
    Inner (shift direction right : Action σ Unit) := by
  refine .bind (inner_fetchPair right) fun _ => .bind (inner_register _) fun _ =>
    .bind (inner_readRegister _) fun _ => ?_
  split
  · exact .bind (inner_modifyRegs _) fun _ => .bind (inner_modifyRegs _) fun _ => inner_advance
  · exact inner_advance

theorem inner_unary (op : Unary) : Inner (unary op : Action σ Unit) := by
  refine .bind inner_fetch fun _ => .bind (inner_register _) fun _ =>
    .bind (inner_readRegister _) fun _ => .bind (inner_modifyRegs _) fun _ => ?_
  split
  · exact .bind (inner_modifyRegs _) fun _ => inner_advance
  · exact .bind (inner_modifyRegs _) fun _ => inner_advance

theorem inner_jump (condition : Condition) (destination : Destination) :
    Inner (jump condition destination : Action σ Unit) := by
  refine .bind inner_fetch fun _ => .bind (inner_readOperand _ _) fun _ => .bind inner_getRegs
    fun _ => ?_
  split
  · exact inner_modifyRegs _
  · exact inner_advance

theorem inner_popRegister : Inner (popRegister : Action σ Unit) :=
  .bind inner_fetch fun _ => .bind (inner_register _) fun _ => .bind inner_pop fun _ =>
    .bind (inner_modifyRegs _) fun _ => inner_advance

theorem inner_popStatus : Inner (popStatus : Action σ Unit) :=
  .bind inner_pop fun _ => .bind (inner_modifyRegs _) fun _ => inner_advance

theorem inner_ret : Inner (execute env .ret) :=
  .bind inner_pop fun _ => inner_modifyRegs _

/-! ## Instructions with a request -/

section Requests

variable {m now between after : Machine σ} {instr : Instr}

/-- Of a value that is stored, only the low byte matters. -/
theorem store_toByte (address value : Int) :
    store env address value = store env address (Bits.toByte value).toNat := by
  unfold store
  simp only [Bits.toByte_toNat]

theorem Outside.of_store {address value : Int} {done : Unit}
    (stores : Stores m.cpu.regs m.memory instr address (Bits.toByte value)) (reached : Inward m now)
    (ran : store env address value now = .ok done between) (rest : Inward between after) :
    Outside env m instr after := by
  have performed : (Request.store address (Bits.toByte value)).perform env now =
      .ok (Bits.toByte value) between := by
    rw [store_toByte] at ran
    exact bind_of_ok ran
  exact .asked (.store stores) reached performed rest

/-- The end of a push: the stack pointer moves down, and is looked at. -/
def endPush : Action σ Unit := do
  modifyRegs fun regs => { regs with sp := regs.sp - 1 }
  if (← getRegs).sp < stackLimit then throw (.trap .stackOverflow)

theorem push_eq (value : Int) (m : Machine σ) :
    push env value m = (store env m.cpu.regs.sp value >>= fun _ => endPush) m :=
  rfl

theorem inner_endPush : Inner (endPush : Action σ Unit) := by
  refine .bind (inner_modifyRegs _) fun _ => .bind inner_getRegs fun _ => ?_
  split
  · exact .throw _
  · exact .pure _

/-- A push stores its byte at the stack pointer. -/
theorem Outside.of_push {value : Int} {next : Unit → Action σ Unit} {done : Unit}
    (pushes : Pushes m.cpu.regs m.memory instr (Bits.toByte value)) (reached : Inward m now)
    (there : now.cpu.regs.sp = m.cpu.regs.sp) (inner : Inner (next ()))
    (ran : (push env value >>= next) now = .ok done after) : Outside env m instr after := by
  obtain ⟨⟨⟩, settled, pushed, ended⟩ := exists_of_bind_ok ran
  rw [push_eq, there] at pushed
  obtain ⟨⟨⟩, between, stored, checked⟩ := exists_of_bind_ok pushed
  exact .of_store (.push pushes) reached stored
    ((inner_endPush.inward checked).trans (inner.inward ended))

/-- The machine with its instruction pointer moved on. -/
def forward (m : Machine σ) (count : Nat) : Machine σ :=
  { m with cpu := { m.cpu with regs := m.cpu.regs.forward count } }

@[simp] theorem forward_zero (m : Machine σ) : m.forward 0 = m := by
  rw [forward, Registers.forward_zero]

@[simp] theorem forward_forward (m : Machine σ) (count more : Nat) :
    (m.forward count).forward more = m.forward (count + more) := by
  simp [forward]

/-- The byte behind the instruction pointer is fetched. -/
theorem fetch_of_load {code : UInt8} (loaded : m.memory.load (m.cpu.regs.ip + 1) = .ok code) :
    fetch m = .ok code (m.forward 1) := by
  have inside := Memory.inside_of_load loaded
  show (if (m.memory.size : Int) ≤ m.cpu.regs.ip + 1 then _ else load _ : Action σ UInt8)
    (m.forward 1) = _
  rw [if_neg (by omega), load_eq]
  show answer _ (m.memory.load (m.cpu.regs.ip + 1)) _ = _
  rw [loaded]
  rfl

/-- The instruction pointer has moved on from where it was, and registers and flags have not changed. -/
structure Ahead (m : Machine σ) (count : Nat) (now : Machine σ) : Prop where
  inward : Inward m now
  regs : now.cpu.regs = m.cpu.regs.forward count

theorem Ahead.start (m : Machine σ) : Ahead m 0 m :=
  ⟨.refl m, (Registers.forward_zero _).symm⟩

/-- A byte that is fetched stands behind those that were fetched before. -/
theorem Ahead.fetch {index : Nat} {code : UInt8} (ahead : Ahead m index now)
    (ran : fetch now = .ok code after) :
    m.memory.load (m.cpu.regs.ip + (index + 1 : Nat)) = .ok code ∧ Ahead m (index + 1) after := by
  have inward := ahead.inward.trans (inner_fetch.inward ran)
  -- the byte behind the pointer is read, and the pointer moves on to it
  change (if now.memory.size ≤ now.cpu.regs.ip + 1 then _ else load (now.cpu.regs.ip + 1))
    { now with cpu := { now.cpu with regs := now.cpu.regs.forward 1 } } = _ at ran
  split at ran
  · cases ran
  · obtain ⟨loaded, rfl⟩ := query_ok (load_eq _ _) ran
    have place : now.cpu.regs.ip + 1 = m.cpu.regs.ip + (index + 1 : Nat) := by
      rw [ahead.regs, Registers.ip_forward]
      omega
    rw [place, ahead.inward.memory_eq] at loaded
    refine ⟨loaded, inward, ?_⟩
    show now.cpu.regs.forward 1 = _
    rw [ahead.regs, Registers.forward_forward]

/-- An operand still has the value that it had at the start of the instruction. -/
theorem Ahead.operand {count : Nat} {shape : Shape} {code value : UInt8} (ahead : Ahead m count now)
    (ran : readOperand shape code now = .ok value after) :
    m.cpu.regs.operand? m.memory shape code = .ok value ∧ after = now := by
  obtain ⟨found, rfl⟩ := query_ok (readOperand_eq shape code now) ran
  rw [ahead.regs, ahead.inward.memory_eq, Registers.operand?_forward] at found
  exact ⟨found, rfl⟩

theorem outside_output {done : Unit} (ran : execute env .output m = .ok done after) :
    Outside env m .output after := by
  obtain ⟨port, now, fetched, ran⟩ := exists_of_bind_ok ran
  obtain ⟨loaded, ahead⟩ := (Ahead.start m).fetch fetched
  obtain ⟨regs, same, got, ran⟩ := exists_of_bind_ok ran
  obtain ⟨rfl, rfl⟩ := EStateM.Result.ok.inj got
  obtain ⟨⟨⟩, between, written, ended⟩ := exists_of_bind_ok ran
  -- the register is read behind the operand, and no operand changes a register
  have first : now.cpu.regs.al = m.cpu.regs.al := by rw [ahead.regs]; rfl
  rw [first] at written
  have performed : (Request.write port m.cpu.regs.al).perform env now =
      .ok m.cpu.regs.al between := bind_of_ok written
  exact .asked (.write ⟨rfl, loaded⟩) ahead.inward performed (inner_advance.inward ended)

theorem outside_input {done : Unit} (ran : execute env .input m = .ok done after) :
    Outside env m .input after := by
  obtain ⟨port, now, fetched, ran⟩ := exists_of_bind_ok ran
  obtain ⟨loaded, ahead⟩ := (Ahead.start m).fetch fetched
  obtain ⟨value, between, read, ended⟩ := exists_of_bind_ok ran
  have receives : Inner (receive value : Action σ Unit) :=
    .bind (inner_modifyRegs _) fun _ => inner_advance
  exact .asked (.read ⟨rfl, loaded⟩) ahead.inward read (receives.inward ended)

theorem outside_pushFlags {done : Unit} (ran : execute env .pushFlags m = .ok done after) :
    Outside env m .pushFlags after := by
  obtain ⟨regs, same, got, ran⟩ := exists_of_bind_ok ran
  obtain ⟨rfl, rfl⟩ := EStateM.Result.ok.inj got
  exact .of_push .status (.refl m) rfl inner_advance ran

theorem outside_push {right : Right} {done : Unit} (ran : execute env (.push right) m = .ok done after) :
    Outside env m (.push right) after := by
  obtain ⟨code, now, fetched, ran⟩ := exists_of_bind_ok ran
  obtain ⟨loaded, ahead⟩ := (Ahead.start m).fetch fetched
  obtain ⟨value, same, read, pushed⟩ := exists_of_bind_ok ran
  obtain ⟨found, rfl⟩ := ahead.operand read
  have pushes : Pushes m.cpu.regs m.memory (.push right) (Bits.toByte value.toNat) := by
    rw [Bits.toByte_toNat]
    exact .operand ⟨right.shape, code, ⟨rfl, loaded⟩, found⟩
  exact .of_push pushes ahead.inward (by rw [ahead.regs]; rfl) inner_advance pushed

theorem outside_call {destination : Destination} {done : Unit}
    (ran : execute env (.call destination) m = .ok done after) :
    Outside env m (.call destination) after := by
  obtain ⟨code, now, fetched, ran⟩ := exists_of_bind_ok ran
  obtain ⟨-, ahead⟩ := (Ahead.start m).fetch fetched
  obtain ⟨target, same, read, called⟩ := exists_of_bind_ok ran
  obtain ⟨-, rfl⟩ := ahead.operand read
  obtain ⟨regs, again, got, pushed⟩ := exists_of_bind_ok called
  obtain ⟨rfl, rfl⟩ := EStateM.Result.ok.inj got
  -- what is pushed is the address behind the operand
  have behind : same.cpu.regs.ip + 1 = m.cpu.regs.ip + (Instr.call destination).size := by
    rw [ahead.regs]
    exact Int.add_assoc ..
  have pushes : Pushes m.cpu.regs m.memory (.call destination)
      (Bits.toByte (same.cpu.regs.ip + 1)) := by
    rw [behind]
    exact .returnAddress
  exact .of_push pushes ahead.inward (by rw [ahead.regs]; rfl) (inner_modifyRegs _) pushed

/-- A move to a place in memory stores its source. -/
theorem outside_move {form : Move} {done : Unit}
    (place : ∀ code, ∃ address, m.cpu.regs.address? form.shapes.1 code = some address)
    (ran : execute env (.move form) m = .ok done after) : Outside env m (.move form) after := by
  obtain ⟨destination, first, fetched, ran⟩ := exists_of_bind_ok ran
  obtain ⟨isDestination, ahead⟩ := (Ahead.start m).fetch fetched
  obtain ⟨source, now, fetched, ran⟩ := exists_of_bind_ok ran
  obtain ⟨isSource, ahead⟩ := ahead.fetch fetched
  obtain ⟨value, same, read, moved⟩ := exists_of_bind_ok ran
  obtain ⟨found, rfl⟩ := ahead.operand read
  obtain ⟨⟨⟩, between, written, ended⟩ := exists_of_bind_ok moved
  obtain ⟨address, there⟩ := place destination
  -- the address is computed with the registers of the start, for the reads have changed the pointer only
  have still : same.cpu.regs.address? form.shapes.1 destination = some address := by
    rw [ahead.regs, Registers.address?_forward, there]
  rw [writeOperand_eq still] at written
  have stores : Stores m.cpu.regs m.memory (.move form) address (Bits.toByte value.toNat) := by
    rw [Bits.toByte_toNat]
    exact .move ⟨_, destination, ⟨rfl, isDestination⟩, there⟩
      ⟨_, source, ⟨rfl, isSource⟩, found⟩
  exact .of_store stores ahead.inward written (inner_advance.inward ended)

end Requests

/-! ## Every instruction -/

/-- **Nothing is done around the processor** but the request of the instruction. -/
theorem outside_execute {m after : Machine σ} {instr : Instr} {done : Unit}
    (ran : execute env instr m = .ok done after) : Outside env m instr after := by
  -- five instructions make requests; the others only change the processor
  cases instr with
  | move form =>
    by_cases isRegister : form.shapes.1 = .register
    · exact .silent (decide_eq_false (not_not.2 isRegister)) ((inner_move isRegister).inward ran)
    · exact outside_move (fun code =>
        (form.destination_cases m.cpu.regs code).resolve_left isRegister) ran
  | push right => exact outside_push ran
  | pushFlags => exact outside_pushFlags ran
  | call destination => exact outside_call ran
  | output => exact outside_output ran
  | input => exact outside_input ran
  | halt => exact .silent rfl (inner_halt.inward ran)
  | binary op right => exact .silent rfl ((inner_binary op right).inward ran)
  | unary op => exact .silent rfl ((inner_unary op).inward ran)
  | compare right => exact .silent rfl ((inner_compare right).inward ran)
  | jump condition destination => exact .silent rfl ((inner_jump condition destination).inward ran)
  | pop => exact .silent rfl (inner_popRegister.inward ran)
  | popFlags => exact .silent rfl (inner_popStatus.inward ran)
  | ret => exact .silent rfl (inner_ret.inward ran)
  | shift direction right => exact .silent rfl ((inner_shift direction right).inward ran)

/-! ## Steps -/

/-- The work of a step: the instruction at an address is found and executed. -/
def work (env : Env σ) (ip : Int) : Action σ Unit := do
  let instr ← fetchInstr ip
  traceInstr ip instr
  execute env instr

section Steps

variable {m : Machine σ} {instr : Instr}

/-- An instruction at the instruction pointer is found there. -/
theorem fetchInstr_of_fetches (fetches : Fetches m.cpu.regs m.memory instr) :
    fetchInstr m.cpu.regs.ip m = .ok instr m := by
  obtain ⟨opcode, loaded, decoded⟩ := fetches
  have inside := Memory.inside_of_load loaded
  change (ite (¬(0 ≤ m.cpu.regs.ip ∧ m.cpu.regs.ip < m.memory.size)) _ _ : Action σ Instr) m = _
  rw [if_neg (not_not.2 inside)]
  have read : load m.cpu.regs.ip m = .ok opcode m := by
    rw [load_eq, loaded]
    rfl
  rw [bind_of_ok read, decoded]
  rfl

/-- An instruction that is found is the one at the instruction pointer. -/
theorem fetches_of_fetchInstr {now : Machine σ} (found : fetchInstr m.cpu.regs.ip m = .ok instr now) :
    Fetches m.cpu.regs m.memory instr ∧ now = m := by
  -- the pointer is in memory, the byte there is loaded, and it is the opcode of an instruction
  change (ite (¬(0 ≤ m.cpu.regs.ip ∧ m.cpu.regs.ip < m.memory.size)) _ _ : Action σ Instr) m = _ at found
  split at found
  · cases found
  · obtain ⟨opcode, middle, read, chosen⟩ := exists_of_bind_ok found
    obtain ⟨loaded, rfl⟩ := query_ok (load_eq _ _) read
    cases decoded : Instr.decode? opcode.toNat with
    | none =>
      rw [decoded] at chosen
      cases chosen
    | some other =>
      rw [decoded] at chosen
      cases chosen
      exact ⟨⟨opcode, loaded, decoded⟩, rfl⟩

/-- With an instruction at the instruction pointer, the work of a step is to execute it. -/
theorem work_of_fetches (fetches : Fetches m.cpu.regs m.memory instr) :
    work env m.cpu.regs.ip m = execute env instr { m with cpu := m.cpu.traced instr } := by
  have found := fetchInstr_of_fetches fetches
  have traced : traceInstr m.cpu.regs.ip instr m = .ok () { m with cpu := m.cpu.traced instr } := by
    change EStateM.Result.ok () (if m.cpu.tracing = true then _ else m) = _
    rw [Processor.traced]
    split <;> rfl
  calc work env m.cpu.regs.ip m
      _ = (traceInstr m.cpu.regs.ip instr >>= fun _ => execute env instr) m := bind_of_ok found
      _ = execute env instr { m with cpu := m.cpu.traced instr } := bind_of_ok traced

/-- Counting an instruction does not fail, and changes nothing around the processor. -/
theorem complete_ok (ip : Int) (m : Machine σ) :
    ∃ after, complete ip m = .ok () after ∧ Inward m after := by
  -- counting and the look at the fault flag cannot fail, and ask nobody
  have counted := ensures_counted ip (E := fun _ _ => False) m ⟨rfl, rfl⟩
  have inner : Inner (complete ip : Action σ Unit) := by
    refine .bind (.modify fun _ => rfl) fun _ => .bind inner_getRegs fun regs => ?_
    split
    · exact .bind (.modify fun _ => rfl) fun _ => .modify fun _ => rfl
    · exact .pure _
  cases ran : (complete ip : Action σ Unit) m with
  | ok done after => exact ⟨after, rfl, inner.inward ran⟩
  | error failure after =>
    rw [ran] at counted
    exact counted.elim

/-- Whatever becomes of a failure, it is a failure. -/
theorem recover_error (ip : Int) (failure : Failure) (m : Machine σ) :
    ∃ final after, recover ip failure m = .error final after := by
  have recovered := ensures_recovered ip failure (Q := fun _ _ => False) m ⟨rfl, rfl⟩
  cases ran : recover ip failure m with
  | ok done after =>
    rw [ran] at recovered
    exact recovered.elim
  | error final after => exact ⟨final, after, rfl⟩

/-- When its work is done, a step counts the instruction. -/
theorem step_of_work_ok (ready : m.cpu.mode = .ready) {done : Unit} {now : Machine σ}
    (worked : work env m.cpu.regs.ip m = .ok done now) :
    step env m = complete m.cpu.regs.ip now := by
  rw [step_of_ready ready]
  exact bind_of_ok (tryCatch_of_ok worked)

/-- When its work has failed, a step treats the failure. -/
theorem step_of_work_error (ready : m.cpu.mode = .ready) {cause : Failure} {stopped : Machine σ}
    (failed : work env m.cpu.regs.ip m = .error cause stopped) :
    step env m = recover m.cpu.regs.ip cause stopped := by
  obtain ⟨final, after, recovered⟩ := recover_error m.cpu.regs.ip cause stopped
  rw [step_of_ready ready, recovered]
  exact bind_of_error ((tryCatch_of_error failed).trans recovered)

/-- **A completed step** has carried out its instruction, and counted it. -/
theorem exists_of_step_ok (ready : m.cpu.mode = .ready) (fetches : Fetches m.cpu.regs m.memory instr)
    {done : Unit} {after : Machine σ} (ran : step env m = .ok done after) :
    ∃ now, execute env instr { m with cpu := m.cpu.traced instr } = .ok () now ∧
      after.cpu.regs = now.cpu.regs ∧ Inward now after := by
  cases worked : work env m.cpu.regs.ip m with
  -- a step whose work has failed does not succeed
  | error cause stopped =>
    obtain ⟨final, failed, recovered⟩ := recover_error m.cpu.regs.ip cause stopped
    rw [step_of_work_error ready worked, recovered] at ran
    cases ran
  | ok done now =>
    obtain ⟨counted, completed, rest⟩ := complete_ok m.cpu.regs.ip now
    -- what follows the work counts the instruction and leaves registers and surroundings alone
    have kept := ensures_counted m.cpu.regs.ip (E := fun _ _ => False) now ⟨rfl, rfl⟩
    rw [completed] at kept
    rw [step_of_work_ok ready worked, completed] at ran
    obtain ⟨-, rfl⟩ := EStateM.Result.ok.inj ran
    rw [work_of_fetches fetches] at worked
    exact ⟨now, worked, by rw [kept.1, Processor.regs_counted], rest⟩

/-- Guarded work that fails has failed by itself, and its failure was treated. -/
theorem exists_of_guarded_error {ip : Int} {work : Action σ Unit} {failure : Failure} {after : Machine σ}
    (failed : guarded ip work m = .error failure after) :
    ∃ cause stopped, work m = .error cause stopped ∧ Recovers ip stopped.cpu cause failure after.cpu := by
  cases worked : work m with
  | ok done middle =>
    obtain ⟨counted, completed, -⟩ := complete_ok ip middle
    rw [guarded, bind_of_ok (tryCatch_of_ok worked), completed] at failed
    cases failed
  | error cause stopped =>
    obtain ⟨final, now, fails⟩ := recover_error ip cause stopped
    have recovered := ensures_recovered ip cause (Q := fun _ _ => False) stopped ⟨rfl, rfl⟩
    rw [guarded, bind_of_error ((tryCatch_of_error worked).trans fails)] at failed
    rw [fails] at recovered
    obtain ⟨rfl, rfl⟩ := EStateM.Result.error.inj failed
    exact ⟨cause, stopped, rfl, recovered.1⟩

/-- A step that ends in a fault has latched it, behind work that has failed. -/
theorem exists_latched (ready : m.cpu.mode = .ready) {fault : Fault} {after : Machine σ}
    (failed : step env m = .error (.fault fault) after) :
    ∃ cause stopped, work env m.cpu.regs.ip m = .error cause stopped ∧
      after.cpu = stopped.cpu.latched fault := by
  rw [step_of_ready ready] at failed
  obtain ⟨cause, stopped, worked, recovers⟩ := exists_of_guarded_error failed
  exact ⟨cause, stopped, worked, recovers.of_fault.2.2⟩

/-- **A step that ends in a fault** comes from an instruction that has failed. -/
theorem exists_of_step_fault (ready : m.cpu.mode = .ready)
    (fetches : Fetches m.cpu.regs m.memory instr) {fault : Fault} {after : Machine σ}
    (failed : step env m = .error (.fault fault) after) :
    ∃ cause stopped, execute env instr { m with cpu := m.cpu.traced instr } = .error cause stopped ∧
      after.cpu.regs.ip = stopped.cpu.regs.ip := by
  obtain ⟨cause, stopped, worked, latched⟩ := exists_latched ready failed
  rw [work_of_fetches fetches] at worked
  -- latching leaves the pointer where the failure has left it
  exact ⟨cause, stopped, worked, by rw [latched]; rfl⟩

/-- Around the processor, it has done nothing but the request of the instruction. -/
theorem step_outside (ready : m.cpu.mode = .ready) (fetches : Fetches m.cpu.regs m.memory instr)
    {done : Unit} {after : Machine σ} (ran : step env m = .ok done after) :
    Outside env m instr after := by
  obtain ⟨now, worked, -, rest⟩ := exists_of_step_ok ready fetches ran
  have traced : Inward m { m with cpu := m.cpu.traced instr } := rfl
  cases outside_execute worked with
  | silent nothing inward => exact .silent nothing (traced.trans (inward.trans rest))
  | asked asks reached performed behind =>
    -- the trace does not show in the registers, so this is what the machine itself asks
    rw [Processor.regs_traced] at asks
    exact .asked asks (traced.trans reached) performed (behind.trans rest)

end Steps

end EightBit.Machine
