import EightBit.Proofs.Machine.Effect

/-!
# Executing Instructions by the Rules

Every instruction does what its rule says when it completes, and what one of the rules of broken
instructions says when it does not. The instructions are followed action by action; in between,
registers and memory are known exactly, relative to those the instruction started with.

## Main Definitions

- `Finished`, `Broken`: the two ends of an instruction.
- `Meets`: the rest of an instruction leads to one of them.

## Main Statements

- `meets_execute`: every instruction follows the rules.
-/

namespace EightBit

theorem Bits.toNat_toByte (value : Int) : ((Bits.toByte value).toNat : Int) = value % 256 := by
  rw [Bits.toByte, UInt8.toNat_ofNat']
  omega

theorem Bits.toByte_toNat (b : UInt8) : Bits.toByte b.toNat = b := by
  have small := b.toNat_lt
  have low : ((b.toNat : Int) % 256).toNat = b.toNat := by omega
  rw [Bits.toByte, low, UInt8.ofNat_toNat]

namespace Registers

section Operands

variable (regs : Registers) (count : Nat) (memory : Memory) (shape : Shape) (code : UInt8)

theorem indirectAddress_forward :
    (regs.forward count).indirectAddress code = regs.indirectAddress code := by
  simp [indirectAddress]

@[simp] theorem address?_forward :
    (regs.forward count).address? shape code = regs.address? shape code := by
  cases shape <;> simp [address?, indirectAddress_forward, stackAddress]

@[simp] theorem operand?_forward :
    (regs.forward count).operand? memory shape code = regs.operand? memory shape code := by
  cases shape <;> simp [operand?, indirectAddress_forward, stackAddress, read?]

@[simp] theorem holds_forward (condition : Condition) :
    (regs.forward count).holds condition = regs.holds condition := by
  cases condition <;> rfl

theorem withUnaryFlags_of_ne {op : Unary} (other : op ≠ .dec) (flags : Flags) :
    regs.withUnaryFlags op flags = regs.withFlags flags := by
  rw [withUnaryFlags, if_neg other, withFlags]

end Operands

end Registers

/-- The destination of a move is a register or a place in memory. -/
theorem Move.destination_cases (form : Move) (regs : Registers) (code : UInt8) :
    form.shapes.1 = .register ∨ ∃ address, regs.address? form.shapes.1 code = some address := by
  cases form <;> simp [Move.shapes, Registers.address?]

/-- Only a division by zero fails. -/
theorem Binary.eval?_error {op : Binary} {a b : Int} {trap : Trap} (fails : op.eval? a b = .error trap) :
    op = .div ∧ b = 0 ∧ trap = .divisionByZero := by
  -- only a division can fail
  cases op with
  | div =>
    rw [Binary.eval?] at fails
    split at fails
    · next zero => exact ⟨rfl, zero, (Except.error.inj fails).symm⟩
    · cases fails
  | add => cases fails
  | sub => cases fails
  | mul => cases fails
  | and => cases fails
  | or => cases fails
  | xor => cases fails

namespace Machine

variable {σ α β : Type}

/-! ## Queries -/

/-- Gives the result, and changes nothing. -/
def answer {ε : Type} (wrap : ε → Failure) (result : Except ε α) : Action σ α := fun m =>
  match result with
  | .ok a => .ok a m
  | .error e => .error (wrap e) m

theorem load_eq (address : Int) (m : Machine σ) :
    load address m = answer .outOfBounds (m.memory.load address) m := by
  rw [load, get_bind]
  cases m.memory.load address <;> rfl

theorem register_eq (code : UInt8) (m : Machine σ) :
    register code m = answer id (match Register.ofIndex? code.toNat with
      | some r => .ok r
      | none => .error (.trap (.invalidRegister code.toNat))) m := by
  unfold register
  cases Register.ofIndex? code.toNat <;> rfl

theorem orTrap_eq (result : Except Trap α) (m : Machine σ) :
    orTrap result m = answer .trap result m := by
  cases result <;> rfl

/-- Reading an operand is a query. -/
theorem readOperand_eq (shape : Shape) (code : UInt8) (m : Machine σ) :
    readOperand shape code m = answer id (m.cpu.regs.operand? m.memory shape code) m := by
  have loads : ∀ address, load address m =
      answer id ((m.memory.load address).mapError .outOfBounds) m := by
    intro address
    rw [load_eq]
    cases m.memory.load address <;> rfl
  -- a register by its number, a place in memory by a load, and anything else as it is
  cases shape with
  | register =>
    show EStateM.bind (register code) readRegister m = _
    rw [EStateM.bind, register_eq, Registers.operand?, Registers.read?]
    cases Register.ofIndex? code.toNat <;> rfl
  | address => exact loads _
  | indirect => exact loads _
  | stackOffset => exact loads _
  | immediate => rfl
  | target => rfl
  | label => rfl
  | text => rfl

/-- Writing an operand that is a place in memory is a store. -/
theorem writeOperand_eq {env : Env σ} {shape : Shape} {code value : UInt8} {address : Int}
    {m : Machine σ} (place : m.cpu.regs.address? shape code = some address) :
    writeOperand env shape code value m = store env address value.toNat m := by
  cases shape with
  | address => exact congrArg (fun a => store env a _ m) (Option.some.inj place)
  | indirect => exact congrArg (fun a => store env a _ m) (Option.some.inj place)
  | stackOffset => exact congrArg (fun a => store env a _ m) (Option.some.inj place)
  | register => cases place
  | immediate => cases place
  | target => cases place
  | label => cases place
  | text => cases place

section Rules

variable {P : Machine σ → Prop} {Q : β → Machine σ → Prop} {E : Failure → Machine σ → Prop}

/-- What is known beside the machine. -/
theorem Ensures.given {fact : Prop} {action : Action σ β}
    (ensures : fact → Ensures P action Q E) : Ensures (fun m => fact ∧ P m) action Q E :=
  fun m ⟨known, holds⟩ => ensures known m holds

theorem Ensures.congr {action other : Action σ β} (same : ∀ m, P m → action m = other m)
    (ensures : Ensures P other Q E) : Ensures P action Q E := by
  intro m holds
  rw [same m holds]
  exact ensures m holds

/-- What follows a query starts with the same machine. -/
theorem Ensures.query {ε : Type} {action : Action σ α} {wrap : ε → Failure} {result : Except ε α}
    {next : α → Action σ β} (asks : ∀ m, P m → action m = answer wrap result m)
    (found : ∀ a, result = .ok a → Ensures P (next a) Q E)
    (failed : ∀ e, result = .error e → ∀ m, P m → E (wrap e) m) :
    Ensures P (action >>= next) Q E := by
  refine .bind (Q := fun a m => result = .ok a ∧ P m) (.congr asks fun m holds => ?_) fun a =>
    .given (found a)
  cases result with
  | ok a => exact ⟨rfl, holds⟩
  | error e => exact failed e rfl m holds

end Rules

/-! ## The ends of an instruction -/

section Ends

variable (env : Env σ) (cpu : Processor) (memory : Memory) (instr : Instr)

/-- The instruction is completed, and its rule says what is left behind. -/
def Finished (m : Machine σ) : Prop :=
  ∃ regs, Executes env cpu.regs memory instr regs m.memory ∧
    m.cpu = { cpu with regs, mode := if instr = .halt then .halted else cpu.mode }

/-- The instruction has failed, and a rule says what is left behind. -/
def Broken (failure : Failure) (m : Machine σ) : Prop :=
  ∃ regs, Breaks env cpu.regs memory instr failure regs m.memory ∧ m.cpu = { cpu with regs }

/-- Started with these registers and this memory in the middle of an instruction, the action brings it
to an end by the rules. -/
def Meets (regs : Registers) (now : Memory) (action : Action σ Unit) : Prop :=
  Ensures (Core { cpu with regs } now) action (fun _ => Finished env cpu memory instr)
    (Broken env cpu memory instr)

end Ends

section Rest

variable {env : Env σ} {cpu : Processor} {memory : Memory} {instr : Instr} {regs : Registers}
  {now : Memory}

theorem Broken.intro {failure : Failure} {m : Machine σ} (core : Core { cpu with regs } now m)
    (breaks : Breaks env cpu.regs memory instr failure regs now) :
    Broken env cpu memory instr failure m :=
  ⟨regs, core.2 ▸ breaks, core.1⟩

/-- What follows a query can use its result. -/
theorem Meets.query {ε : Type} {action : Action σ α} {wrap : ε → Failure} {result : Except ε α}
    {next : α → Action σ Unit}
    (asks : ∀ m, Core { cpu with regs } now m → action m = answer wrap result m)
    (found : ∀ a, result = .ok a → Meets env cpu memory instr regs now (next a))
    (failed : ∀ e, result = .error e → Breaks env cpu.regs memory instr (wrap e) regs now) :
    Meets env cpu memory instr regs now (action >>= next) :=
  Ensures.query asks found fun e lacks _ core => .intro core (failed e lacks)

/-! ## Registers -/

theorem Meets.registers {next : Registers → Action σ Unit}
    (rest : Meets env cpu memory instr regs now (next regs)) :
    Meets env cpu memory instr regs now (getRegs >>= next) := by
  have asks : ∀ m : Machine σ, Core { cpu with regs } now m →
      getRegs m = answer id (.ok regs) m := by
    intro m core
    show EStateM.Result.ok m.cpu.regs m = .ok regs m
    rw [core.1]
  exact .query asks (fun a found => Except.ok.inj found ▸ rest) nofun

theorem Meets.value {next : UInt8 → Action σ Unit} {r : Register}
    (rest : Meets env cpu memory instr regs now (next (regs.get r))) :
    Meets env cpu memory instr regs now (readRegister r >>= next) := by
  rw [readRegister, bind_assoc]
  exact .registers rest

theorem ensures_modifyRegs (cpu : Processor) (regs : Registers) (f : Registers → Registers)
    {E : Failure → Machine σ → Prop} :
    Ensures (Core { cpu with regs } now) (modifyRegs f)
      (fun _ => Core { cpu with regs := f regs } now) E := by
  refine .modify fun m core => ⟨?_, core.2⟩
  show { m.cpu with regs := f m.cpu.regs } = _
  rw [core.1]

theorem Meets.change {f : Registers → Registers} {next : Unit → Action σ Unit}
    (rest : Meets env cpu memory instr (f regs) now (next ())) :
    Meets env cpu memory instr regs now (modifyRegs f >>= next) :=
  .bind (ensures_modifyRegs cpu regs f) fun _ => rest

theorem Meets.written {count : Nat} {r : Register} {value : Int} {next : Unit → Action σ Unit}
    (rest : Meets env cpu memory instr ((regs.set r (Bits.toByte value)).forward count) now
      (next ())) :
    Meets env cpu memory instr (regs.forward count) now (writeRegister r value >>= next) := by
  rw [← Registers.set_forward] at rest
  exact .change rest

theorem Meets.flagged {count : Nat} {flags : Flags} {next : Unit → Action σ Unit}
    (rest : Meets env cpu memory instr ((regs.withFlags flags).forward count) now (next ())) :
    Meets env cpu memory instr (regs.forward count) now (writeFlags flags >>= next) :=
  .change rest

/-- The last change of the registers completes the instruction. -/
theorem Meets.finished {f : Registers → Registers} (running : instr ≠ .halt)
    (executes : Executes env cpu.regs memory instr (f regs) now) :
    Meets env cpu memory instr regs now (modifyRegs f) := by
  refine .mono (ensures_modifyRegs cpu regs f) (fun _ core => core) (fun _ m core => ?_)
    fun _ _ broken => broken
  refine ⟨f regs, core.2.symm ▸ executes, ?_⟩
  rw [if_neg running]
  exact core.1

/-- An instruction that does not jump ends behind its operands. -/
theorem Meets.advanced (running : instr ≠ .halt)
    (executes : Executes env cpu.regs memory instr (regs.past instr) now) :
    Meets env cpu memory instr (regs.forward instr.shapes.length) now advance := by
  refine .finished running ?_
  show Executes env cpu.regs memory instr ((regs.forward instr.shapes.length).forward 1) now
  rwa [Registers.forward_forward, Nat.add_comm]

/-! ## Operands -/

/-- An operand byte is fetched, unless the instruction runs over the end of memory. -/
theorem ensures_fetch {index : Nat} (nonneg : 0 ≤ cpu.regs.ip) :
    Ensures (Core { cpu with regs := cpu.regs.forward index } memory) fetch
      (fun code m => memory.load (cpu.regs.ip + (index + 1 : Nat)) = .ok code ∧
        Core { cpu with regs := cpu.regs.forward (index + 1) } memory m)
      (fun failure (m : Machine σ) =>
        (memory.size ≤ cpu.regs.ip + (index + 1 : Nat) ∧
          failure = .trap (.pointerOutOfBounds (cpu.regs.ip + (index + 1 : Nat)))) ∧
        Core { cpu with regs := cpu.regs.forward (index + 1) } memory m) := by
  have moved : (cpu.regs.forward index).forward 1 = cpu.regs.forward (index + 1) :=
    Registers.forward_forward ..
  refine .bind (moved ▸ ensures_modifyRegs cpu (cpu.regs.forward index) fun regs => regs.forward 1)
    fun _ => ?_
  refine .get fun m core => ?_
  obtain ⟨sameCpu, sameMemory⟩ := core
  have here : m.cpu.regs.ip = cpu.regs.ip + (index + 1 : Nat) := by
    rw [sameCpu, Registers.ip_forward]
  show Ensures _ (if m.memory.size ≤ m.cpu.regs.ip then _ else _) _ _
  rw [here, sameMemory]
  split
  · next beyond =>
    refine .throw fun now same => ?_
    subst same
    exact ⟨⟨beyond, rfl⟩, sameCpu, sameMemory⟩
  · next within =>
    refine .congr (fun now _ => load_eq _ now) fun now same => ?_
    subst same
    -- the pointer has only moved up, so the address exists
    obtain ⟨-, -, found⟩ | ⟨outside, -⟩ := memory.load_cases (cpu.regs.ip + (index + 1 : Nat))
    · rw [sameMemory, found]
      exact ⟨rfl, sameCpu, sameMemory⟩
    · exact absurd ⟨by omega, by omega⟩ outside

theorem Meets.fetched {index : Nat} {shape : Shape} {next : UInt8 → Action σ Unit}
    (nonneg : 0 ≤ cpu.regs.ip) (before : cpu.regs.ip + index < memory.size)
    (slot : instr.shapes[index]? = some shape)
    (rest : ∀ code, HasOperand cpu.regs memory instr index shape code →
      Meets env cpu memory instr (cpu.regs.forward (index + 1)) memory (next code)) :
    Meets env cpu memory instr (cpu.regs.forward index) memory (fetch >>= next) := by
  refine .bind (.mono (ensures_fetch nonneg) (fun _ core => core) (fun _ _ done => done) ?_)
    fun code => .given fun byte => rest code ⟨slot, byte⟩
  rintro failure m ⟨⟨beyond, rfl⟩, core⟩
  exact .intro core (.short (List.getElem?_eq_some_iff.1 slot).1 beyond before)

theorem HasOperand.before {index : Nat} {shape : Shape} {code : UInt8}
    (is : HasOperand cpu.regs memory instr index shape code) :
    cpu.regs.ip + (index + 1 : Nat) < memory.size :=
  (Memory.inside_of_load is.byte).2

theorem Meets.operand {index : Nat} {shape : Shape} {code : UInt8} {next : UInt8 → Action σ Unit}
    (is : HasOperand cpu.regs memory instr index shape code)
    (rest : ∀ value, Values cpu.regs memory instr index value →
      Meets env cpu memory instr (cpu.regs.forward instr.shapes.length) memory (next value)) :
    Meets env cpu memory instr (cpu.regs.forward instr.shapes.length) memory
      (readOperand shape code >>= next) := by
  have asks : ∀ m : Machine σ, Core { cpu with regs := cpu.regs.forward instr.shapes.length } memory m →
      readOperand shape code m = answer id (cpu.regs.operand? memory shape code) m := by
    intro m core
    rw [readOperand_eq, core.1, core.2, Registers.operand?_forward]
  exact .query asks (fun value found => rest value ⟨shape, code, is, found⟩)
    fun failure lacks => .operand is lacks

theorem Meets.named {index : Nat} {code : UInt8} {next : Register → Action σ Unit}
    (is : HasOperand cpu.regs memory instr index .register code)
    (rest : ∀ r, Names cpu.regs memory instr index r →
      Meets env cpu memory instr (cpu.regs.forward instr.shapes.length) memory (next r)) :
    Meets env cpu memory instr (cpu.regs.forward instr.shapes.length) memory
      (register code >>= next) := by
  refine .query (fun m _ => register_eq code m) (fun r found => rest r ⟨code, is, ?_⟩)
    fun failure lacks => .operand is ?_
  -- the byte names a register, or the trap is its operand's
  · cases named : Register.ofIndex? code.toNat with
    | some s =>
      rw [named] at found
      exact congrArg some (Except.ok.inj found)
    | none =>
      rw [named] at found
      cases found
  · rw [Registers.operand?, Registers.read?]
    cases named : Register.ofIndex? code.toNat with
    | some s =>
      rw [named] at lacks
      cases lacks
    | none =>
      rw [named] at lacks
      cases lacks
      rfl

/-! ## Stores -/

section Bystander

variable (bystander : env.Bystander)
include bystander

/-- An observer of a store is told of it while the byte is already there. -/
theorem ensures_notify {address : Int} {value : UInt8} {hook : Hook} {notice : Notice}
    (about : notice.IsAbout address value) :
    Ensures (Core cpu (memory.write address.toNat value)) (env.notify hook notice)
      (fun _ => Core cpu (memory.write address.toNat value))
      (fun failure m => env.Refuses memory address value failure ∧
        Core cpu (memory.write address.toNat value) m) := by
  intro m core
  -- a bystander leaves alone what instructions work on, also where it fails
  have kept := bystander.notify hook notice cpu _ m core
  cases ran : env.notify hook notice m with
  | ok done after =>
    rw [ran] at kept
    exact kept
  | error failure after =>
    rw [ran] at kept
    exact ⟨⟨hook, notice, m, after, about, core.2, ran⟩, kept⟩

/-- **A store** writes the byte, and fails only at an address outside memory or by an observer. -/
theorem ensures_store (address value : Int) :
    Ensures (Core cpu memory) (store env address value)
      (fun _ m => (0 ≤ address ∧ address < memory.size) ∧
        Core cpu (memory.write address.toNat (Bits.toByte value)) m)
      (fun failure m =>
        (∃ access, memory.load address = .error access ∧ failure = .outOfBounds access ∧
          Core cpu memory m) ∨
        ((0 ≤ address ∧ address < memory.size) ∧
          env.Refuses memory address (Bits.toByte value) failure ∧
          Core cpu (memory.write address.toNat (Bits.toByte value)) m)) := by
  refine .query (fun m core => by rw [load_eq, core.2]) (fun old found => ?_)
    fun access lacks m core => .inl ⟨access, lacks, rfl, core⟩
  · have inside := Memory.inside_of_load found
    -- from here on the byte is written, and only observers can fail
    refine .bind (Q := fun _ => Core cpu (memory.write address.toNat (Bits.toByte value)))
      (.modify fun m core => ⟨core.1, ?_⟩) fun _ => ?_
    · show m.memory.write _ _ = _
      rw [core.2]
    refine .mono (P := Core cpu (memory.write address.toNat (Bits.toByte value)))
      (Q := fun _ => Core cpu (memory.write address.toNat (Bits.toByte value)))
      (E := fun failure m => env.Refuses memory address (Bits.toByte value) failure ∧
        Core cpu (memory.write address.toNat (Bits.toByte value)) m)
      ?_ (fun _ core => core) (fun _ _ core => ⟨inside, core⟩)
      fun _ _ refused => .inr ⟨inside, refused⟩
    refine .get fun m core => .of_eq core (.bind (.forM fun hook =>
      ensures_notify bystander (.watch old)) fun _ => ?_)
    split
    · refine .get fun m core => .of_eq core (.forM fun listener => ?_)
      cases listener with
      | display => exact .modify fun _ core => core
      | hook hook => exact ensures_notify bystander .display
    · exact .pure fun _ core => core

theorem Meets.stored {address value : Int} {next : Unit → Action σ Unit}
    (stores : Stores cpu.regs memory instr address (Bits.toByte value))
    (rest : 0 ≤ address ∧ address < memory.size →
      Meets env cpu memory instr (cpu.regs.forward instr.shapes.length)
        (memory.write address.toNat (Bits.toByte value)) (next ())) :
    Meets env cpu memory instr (cpu.regs.forward instr.shapes.length) memory
      (store env address value >>= next) := by
  refine .bind (.mono (ensures_store bystander address value) (fun _ core => core)
    (fun _ _ done => done) ?_) fun _ => .given rest
  rintro failure m (⟨access, lacks, rfl, core⟩ | ⟨inside, refuses, core⟩)
  · exact .intro core (.outside stores lacks)
  · exact .intro core (.refused stores inside refuses)

theorem Meets.pushed {value : Int} {next : Unit → Action σ Unit}
    (pushes : Pushes cpu.regs memory instr (Bits.toByte value))
    (rest : HasRoom cpu.regs memory →
      Meets env cpu memory instr ((cpu.regs.moveStack (-1)).forward instr.shapes.length)
        (memory.write cpu.regs.sp.toNat (Bits.toByte value)) (next ())) :
    Meets env cpu memory instr (cpu.regs.forward instr.shapes.length) memory
      (push env value >>= next) := by
  rw [push, bind_assoc]
  refine .registers ?_
  rw [bind_assoc]
  refine .stored bystander (.push pushes) fun inside => ?_
  rw [bind_assoc]
  refine .change ?_
  rw [bind_assoc]
  refine .registers ?_
  -- the byte is stored and the pointer moved before the window is looked at
  show Meets env cpu memory instr ((cpu.regs.moveStack (-1)).forward instr.shapes.length)
    (memory.write cpu.regs.sp.toNat (Bits.toByte value))
    ((if cpu.regs.sp + -1 < stackLimit then throw (.trap .stackOverflow) else pure PUnit.unit) >>= next)
  split
  · next low =>
    refine .throw fun m core => .intro core (.overflow pushes inside ?_)
    omega
  · next high => exact rest ⟨inside, by omega⟩

end Bystander

theorem Meets.popped {next : UInt8 → Action σ Unit} (popping : pops instr = true)
    (rest : ∀ value, OnTop cpu.regs memory value →
      Meets env cpu memory instr ((cpu.regs.moveStack 1).forward instr.shapes.length) memory
        (next value)) :
    Meets env cpu memory instr (cpu.regs.forward instr.shapes.length) memory (pop >>= next) := by
  rw [pop, bind_assoc]
  refine .change ?_
  rw [bind_assoc]
  refine .registers ?_
  rw [bind_assoc]
  show Meets env cpu memory instr ((cpu.regs.moveStack 1).forward instr.shapes.length) memory
    (load (cpu.regs.sp + 1) >>= _)
  refine .query (fun m core => by rw [load_eq, core.2]) (fun value loaded => ?_)
    fun access lacks => .nothingOnTop popping lacks
  rw [bind_assoc]
  refine .registers ?_
  -- the byte above the window is read before the window is looked at
  show Meets env cpu memory instr ((cpu.regs.moveStack 1).forward instr.shapes.length) memory
    ((if stackTop < cpu.regs.sp + 1 then
      throw (.trap .stackUnderflow) >>= fun (_ : PUnit) => pure value else pure value) >>= next)
  split
  · next high => exact .throw fun m core => .intro core (.underflow popping (by omega))
  · next low => exact rest value ⟨loaded, by omega⟩

end Rest

/-! ## Ports -/

/-- The action fails only as devices and observers do. -/
def Raising (env : Env σ) (action : Action σ α) : Prop :=
  Ensures (fun _ => True) action (fun _ _ => True) fun failure _ => env.Raises failure

section Ports

variable {env : Env σ}

theorem Raising.pure (a : α) : Raising env (pure a : Action σ α) :=
  Ensures.pure fun _ _ => trivial

theorem Raising.own {failure : Failure} (own : ¬failure.IsInternal) :
    Raising env (throw failure : Action σ α) :=
  Ensures.throw fun _ _ => .keyboard own

theorem Raising.modify (f : Machine σ → Machine σ) : Raising env (modify f : Action σ Unit) :=
  Ensures.modify fun _ _ => trivial

theorem Raising.bind {first : Action σ α} {next : α → Action σ β} (start : Raising env first)
    (rest : ∀ a, Raising env (next a)) : Raising env (first >>= next) :=
  Ensures.bind start fun a m _ => rest a m trivial

theorem Raising.get : Raising env (get : Action σ (Machine σ)) :=
  fun _ _ => trivial

theorem Raising.forM {items : List β} {act : β → Action σ PUnit}
    (each : ∀ item, Raising env (act item)) : Raising env (items.forM act) :=
  Ensures.forM fun item => each item

theorem raising_notify (hook : Hook) (notice : Notice) :
    Raising env (env.notify hook notice) := by
  intro m _
  cases told : env.notify hook notice m with
  | ok done after => trivial
  | error failure after => exact .observer told

theorem raising_answer (hook : Hook) (port : Int) : Raising env (env.answer hook port) := by
  intro m _
  cases asked : env.answer hook port m with
  | ok value after => trivial
  | error failure after => exact .device asked

theorem raising_press (key : Key) : Raising env (press key : Action σ Bool) := by
  unfold press
  split
  · exact .own nofun
  · next code _ =>
    refine .bind .get fun m => ?_
    generalize m.devices.keyboard.press code = outcome
    refine .bind (.modify _) fun _ => ?_
    cases outcome.1 with
    | true => exact .bind (.pure _) fun _ => .pure _
    | false => exact .bind (.modify _) fun _ => .pure _

theorem raising_takeKey : Raising env (takeKey : Action σ UInt8) := by
  refine .bind .get fun m => ?_
  split
  · exact .own nofun
  · refine .bind (.modify _) fun _ => ?_
    split
    · exact .pure _
    · exact .own nofun

theorem raising_readKey : Raising env (readKey : Action σ UInt8) := by
  refine .bind .get fun m => ?_
  -- a key may be there already; or the operator presses one, aborts, or lets it wait
  cases m.devices.keyboard.pending with
  | true => exact raising_takeKey
  | false =>
    cases m.operator.feed with
    | cons key rest =>
      refine .bind (.modify _) fun _ => ?_
      exact .bind (.bind (raising_press key) fun _ => .pure _) fun _ => raising_takeKey
    | nil =>
      cases m.operator.patience with
      | abort => exact .bind (.modify _) fun _ => raising_takeKey
      | wait => exact raising_takeKey

theorem raising_updateLights (value : Int) : Raising env (updateLights env value) := by
  refine .bind .get fun m => .bind (.modify _) fun _ => ?_
  split
  · exact .bind .get fun now => .forM fun hook => .bind .get fun _ => raising_notify hook _
  · exact .pure _

/-- **Reading a port** fails as the keyboard or an attached device does. -/
theorem raising_readPort (port : Int) : Raising env (readPort env port) := by
  refine .bind .get fun m => ?_
  split
  · exact .pure _
  · exact raising_readKey
  · exact .pure _
  · exact .bind (raising_answer _ _) fun _ => .pure _

/-- **Writing a port** fails as an observer or an attached device does. -/
theorem raising_writePort (port value : Int) : Raising env (writePort env port value) := by
  refine .bind .get fun m => .bind ?_ fun _ => .bind .get fun now => .forM fun hook =>
    raising_notify hook _
  unfold deliver
  split
  · exact raising_updateLights _
  · exact .bind (.modify _) fun _ => .modify _
  · exact raising_notify _ _
  · exact .modify _

theorem Meets.asked {cpu : Processor} {memory : Memory} {instr : Instr} {action : Action σ α}
    {next : α → Action σ Unit} (is : instr = .output ∨ instr = .input) (quiet : Quiet action)
    (raising : Raising env action)
    (rest : ∀ a before after, action before = .ok a after →
      Meets env cpu memory instr (cpu.regs.forward instr.shapes.length) memory (next a)) :
    Meets env cpu memory instr (cpu.regs.forward instr.shapes.length) memory (action >>= next) := by
  refine .bind (Q := fun a m => (∃ before after, action before = .ok a after) ∧
    Core { cpu with regs := cpu.regs.forward instr.shapes.length } memory m) (fun m core => ?_)
    fun a => .given fun ⟨before, after, ran⟩ => rest a before after ran
  -- the request leaves the processor alone, whether it succeeds or fails
  have kept := quiet _ _ m core
  have raised := raising m trivial
  cases ran : action m with
  | ok a after =>
    rw [ran] at kept
    exact ⟨⟨m, after, ran⟩, kept⟩
  | error failure after =>
    rw [ran] at kept raised
    exact .intro kept (.port is raised)

end Ports

/-! ## Instructions -/

section Instructions

variable {env : Env σ} {cpu : Processor} {memory : Memory}
  (inside : 0 ≤ cpu.regs.ip ∧ cpu.regs.ip < memory.size)

theorem meets_halt : Meets env cpu memory .halt cpu.regs memory halt := by
  refine .bind (Q := fun _ => Core { cpu with mode := .halted } memory)
    (.modify fun m core => ⟨?_, core.2⟩) fun _ => ?_
  · show { m.cpu with mode := .halted } = _
    rw [core.1]
  refine .bind (ensures_modifyRegs { cpu with mode := .halted } cpu.regs fun regs => regs.forward 1)
    fun _ => ?_
  refine .get fun m core => .of_eq core (.modify fun now core => ?_)
  exact ⟨cpu.regs.past .halt, core.2.symm ▸ .halt, core.1⟩

include inside

theorem Meets.fetchedFirst {instr : Instr} {shape : Shape} {next : UInt8 → Action σ Unit}
    (slot : instr.shapes[0]? = some shape)
    (rest : ∀ code, HasOperand cpu.regs memory instr 0 shape code →
      Meets env cpu memory instr (cpu.regs.forward 1) memory (next code)) :
    Meets env cpu memory instr cpu.regs memory (fetch >>= next) := by
  have fetched : Meets env cpu memory instr (cpu.regs.forward 0) memory (fetch >>= next) :=
    .fetched inside.1 (by simpa using inside.2) slot rest
  rwa [Registers.forward_zero] at fetched

theorem Meets.fetchedSecond {instr : Instr} {first shape : Shape} {code : UInt8}
    {next : UInt8 → Action σ Unit} (is : HasOperand cpu.regs memory instr 0 first code)
    (slot : instr.shapes[1]? = some shape)
    (rest : ∀ code, HasOperand cpu.regs memory instr 1 shape code →
      Meets env cpu memory instr (cpu.regs.forward 2) memory (next code)) :
    Meets env cpu memory instr (cpu.regs.forward 1) memory (fetch >>= next) :=
  .fetched inside.1 is.before slot rest

/-- The left operand is a register, and the right one has a value. -/
theorem Meets.fetchedPair {instr : Instr} {right : Right} {next : UInt8 × UInt8 → Action σ Unit}
    (shapes : instr.shapes = [.register, right.shape])
    (rest : ∀ left value, HasOperand cpu.regs memory instr 0 .register left →
      Values cpu.regs memory instr 1 value →
      Meets env cpu memory instr (cpu.regs.forward instr.shapes.length) memory
        (next (left, value))) :
    Meets env cpu memory instr cpu.regs memory (fetchPair right >>= next) := by
  have count : instr.shapes.length = 2 := by rw [shapes]; rfl
  rw [fetchPair, bind_assoc]
  refine .fetchedFirst inside (by rw [shapes]; rfl) fun left isLeft => ?_
  rw [bind_assoc]
  refine .fetchedSecond inside isLeft (by rw [shapes]; rfl) fun code isCode => ?_
  rw [bind_assoc, ← count]
  exact .operand isCode fun value hasValue => rest left value isLeft hasValue

theorem meets_binary (op : Binary) (right : Right) :
    Meets env cpu memory (.binary op right) cpu.regs memory (binary op right) := by
  refine .fetchedPair inside rfl fun left value isLeft hasValue => ?_
  refine .named isLeft fun r names => .value ?_
  rw [Registers.get_forward]
  refine .query (fun m _ => orTrap_eq _ m) (fun outcome result => ?_) fun trap fails => ?_
  · exact .written (.flagged (.advanced nofun (.binary names hasValue result)))
  -- only a division can fail, and only by zero
  · obtain ⟨rfl, zero, rfl⟩ := Binary.eval?_error fails
    have isZero : value = 0 := by
      rw [← UInt8.toNat_inj]
      exact_mod_cast zero
    exact .divisor rfl (isZero ▸ hasValue)

theorem meets_compare (right : Right) :
    Meets env cpu memory (.compare right) cpu.regs memory (compare right) := by
  refine .fetchedPair inside rfl fun left value isLeft hasValue => ?_
  refine .named isLeft fun r names => .value ?_
  rw [Registers.get_forward]
  exact .flagged (.advanced nofun (.compare names hasValue))

theorem meets_shift (direction : Shift) (right : Right) :
    Meets env cpu memory (.shift direction right) cpu.regs memory (shift direction right) := by
  refine .fetchedPair inside rfl fun left count isLeft hasCount => ?_
  refine .named isLeft fun r names => .value ?_
  rw [Registers.get_forward]
  split
  · next outcome result =>
    exact .written (.flagged (.advanced nofun (.shift names hasCount result)))
  · next result => exact .advanced nofun (.shiftByZero names hasCount result)

theorem meets_unary (op : Unary) :
    Meets env cpu memory (.unary op) cpu.regs memory (unary op) := by
  refine .fetchedFirst inside rfl fun code isCode => ?_
  refine .named isCode fun r names => .value (.written ?_)
  rw [Registers.get_forward]
  -- a decrement keeps the carry, so it changes its flags in a way of its own
  split
  · next decrement =>
    subst decrement
    refine .change ?_
    show Meets env cpu memory (.unary .dec) ((cpu.regs.applyUnary .dec r).forward 1) memory advance
    exact .advanced nofun (.unary names)
  · next other =>
    refine .flagged (.advanced nofun ?_)
    rw [← Registers.withUnaryFlags_of_ne _ other]
    exact .unary names

theorem meets_jump (condition : Condition) (destination : Destination) :
    Meets env cpu memory (.jump condition destination) cpu.regs memory
      (jump condition destination) := by
  refine .fetchedFirst inside rfl fun code isCode => ?_
  refine .operand isCode fun target hasTarget => .registers ?_
  rw [Registers.holds_forward]
  split
  · next holds => exact .finished nofun (.jumpTaken hasTarget holds)
  · next passes => exact .advanced nofun (.jumpPassed hasTarget (Bool.not_eq_true _ ▸ passes))

theorem meets_popRegister : Meets env cpu memory .pop cpu.regs memory popRegister := by
  refine .fetchedFirst inside rfl fun code isCode => ?_
  refine .named isCode fun r names => .popped rfl fun value top => .written ?_
  rw [Bits.toByte_toNat]
  exact .advanced nofun (.pop names top)

omit inside in
theorem meets_popStatus : Meets env cpu memory .popFlags cpu.regs memory popStatus := by
  have rest : Meets env cpu memory .popFlags (cpu.regs.forward Instr.popFlags.shapes.length) memory
      popStatus := by
    refine .popped rfl fun value top => .change ?_
    show Meets env cpu memory .popFlags
      (Registers.forward { cpu.regs.moveStack 1 with sr := Status.ofByte value.toNat } 0) memory advance
    exact .advanced nofun (.popFlags top)
  rwa [show Instr.popFlags.shapes.length = 0 from rfl, Registers.forward_zero] at rest

omit inside in
theorem meets_ret : Meets env cpu memory .ret cpu.regs memory (do goto (← pop)) := by
  have rest : Meets env cpu memory .ret (cpu.regs.forward Instr.ret.shapes.length) memory
      (do goto (← pop)) :=
    .popped rfl fun value top => .finished nofun (.ret top)
  rwa [show Instr.ret.shapes.length = 0 from rfl, Registers.forward_zero] at rest

section Bystander

variable (bystander : env.Bystander)
include bystander

theorem meets_move (form : Move) :
    Meets env cpu memory (.move form) cpu.regs memory (move env form) := by
  refine .fetchedFirst inside rfl fun destination isDestination => ?_
  refine .fetchedSecond inside isDestination rfl fun source isSource => ?_
  refine .operand isSource fun value hasValue => ?_
  -- the destination is a register, or a place in memory
  obtain isRegister | ⟨address, place⟩ := form.destination_cases cpu.regs destination
  · rw [isRegister] at isDestination ⊢
    show Meets env cpu memory (.move form) _ memory
      ((register destination >>= fun r => writeRegister r value.toNat) >>= fun _ => advance)
    rw [bind_assoc]
    refine .named isDestination fun r names => .written ?_
    rw [Bits.toByte_toNat]
    exact .advanced nofun (.moveToRegister names hasValue)
  · have stores : Stores cpu.regs memory (.move form) address value :=
      .move ⟨_, destination, isDestination, place⟩ hasValue
    -- behind both bytes the operand is written by a store at that place
    have same : ∀ m : Machine σ, Core { cpu with regs := cpu.regs.forward 2 } memory m →
        (writeOperand env form.shapes.1 destination value >>= fun _ => advance) m =
          (store env address value.toNat >>= fun _ => advance) m := by
      intro m core
      have there : m.cpu.regs.address? form.shapes.1 destination = some address := by
        rw [core.1, Registers.address?_forward]
        exact place
      show EStateM.bind (writeOperand env form.shapes.1 destination value) _ m = _
      rw [EStateM.bind, writeOperand_eq there]
      rfl
    refine .congr same (Meets.stored bystander ?_ fun within => ?_)
    · rwa [Bits.toByte_toNat]
    · rw [Bits.toByte_toNat]
      exact .advanced nofun (.moveToMemory stores within)

theorem meets_call (destination : Destination) :
    Meets env cpu memory (.call destination) cpu.regs memory (call env destination) := by
  refine .fetchedFirst inside rfl fun code isCode => ?_
  refine .operand isCode fun target hasTarget => .registers ?_
  -- the operand is fetched by then, so one byte behind it is behind the instruction
  have behind : (cpu.regs.forward 1).ip + 1 = cpu.regs.ip + (Instr.call destination).size :=
    Int.add_assoc ..
  have pushes : Pushes cpu.regs memory (.call destination)
      (Bits.toByte ((cpu.regs.forward 1).ip + 1)) := by
    rw [behind]
    exact .returnAddress
  exact .pushed bystander pushes fun room => .finished nofun (.call hasTarget pushes room)

theorem meets_pushOperand (right : Right) :
    Meets env cpu memory (.push right) cpu.regs memory (pushOperand env right) := by
  refine .fetchedFirst inside rfl fun code isCode => ?_
  refine .operand isCode fun value hasValue => ?_
  have pushes : Pushes cpu.regs memory (.push right) (Bits.toByte value.toNat) := by
    rw [Bits.toByte_toNat]
    exact .operand hasValue
  exact .pushed bystander pushes fun room => .advanced nofun (.push pushes room)

omit inside in
theorem meets_pushFlags :
    Meets env cpu memory .pushFlags cpu.regs memory
      (do push env (← getRegs).sr; advance) := by
  refine .registers ?_
  have rest : Meets env cpu memory .pushFlags (cpu.regs.forward Instr.pushFlags.shapes.length) memory
      (push env cpu.regs.sr >>= fun _ => advance) :=
    .pushed bystander .status fun room => .advanced nofun (.pushFlags .status room)
  rwa [show Instr.pushFlags.shapes.length = 0 from rfl, Registers.forward_zero] at rest

theorem meets_output : Meets env cpu memory .output cpu.regs memory (output env) := by
  refine .fetchedFirst inside rfl fun port isPort => .registers ?_
  exact .asked (.inl rfl) (quiet_writePort bystander _ _) (raising_writePort _ _)
    fun _ before after written => .advanced nofun (.output isPort written)

theorem meets_input : Meets env cpu memory .input cpu.regs memory (input env) := by
  refine .fetchedFirst inside rfl fun port isPort => ?_
  refine .asked (.inr rfl) (quiet_readPort bystander _) (raising_readPort _)
    fun value before after read => .change ?_
  show Meets env cpu memory .input ((cpu.regs.set .al value).forward 1) memory advance
  exact .advanced nofun (.input isPort read)

/-- **Every instruction follows the rules**, whether it completes or fails. -/
theorem meets_execute (instr : Instr) :
    Meets env cpu memory instr cpu.regs memory (execute env instr) := by
  -- one rule for each instruction, after the definition of each
  cases instr with
  | halt => exact meets_halt
  | move form => exact meets_move inside bystander form
  | binary op right => exact meets_binary inside op right
  | unary op => exact meets_unary inside op
  | compare right => exact meets_compare inside right
  | jump condition destination => exact meets_jump inside condition destination
  | push right => exact meets_pushOperand inside bystander right
  | pop => exact meets_popRegister inside
  | pushFlags => exact meets_pushFlags bystander
  | popFlags => exact meets_popStatus
  | call destination => exact meets_call inside bystander destination
  | ret => exact meets_ret
  | shift direction right => exact meets_shift inside direction right
  | output => exact meets_output inside bystander
  | input => exact meets_input inside bystander

end Bystander

end Instructions

end Machine

end EightBit
