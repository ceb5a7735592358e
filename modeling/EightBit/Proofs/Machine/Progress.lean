import EightBit.Proofs.Machine.Atomicity
import EightBit.Proofs.Machine.Requests

/-!
# When a Step Completes

A step of a ready processor completes unless one of its conditions fails: there is no instruction, an
operand byte is missing, a number is that of no register, an address is not one of memory, a divisor is
zero, or the stack has no room or nothing to give. The fault of a step that does not complete is of the
kind of a condition that fails.

Observers have a say in this in one place only. A push stores its byte and tells the observers of it
before it looks at the stack pointer, so an observer that moves the pointer decides whether the push
completes. Other observers can do whatever they like, as long as they do not fail: a step with them and
the same step without them have the same outcome.

## Main Definitions

- `Hindered`: the conditions that fail, by the kind of their fault.
- `Agree`: two runs with the same outcome.
- `Env.Compliant`: observers that do not fail, and leave the stack pointer alone while a byte is stored.

## Main Statements

- `agree_step`: compliant observers do not decide the outcome of a step.
- `step_completes_iff`: a step completes just when nothing hinders it.
- `exists_hindered_push_completes`: an observer that moves the stack pointer can save a push.
-/

namespace EightBit

namespace Machine

variable {σ α β : Type}

/-! ## Conditions -/

/-- The instruction pushes a byte. -/
def pushes : Instr → Bool
  | .push _ | .pushFlags | .call _ => true
  | _ => false

/-- **A condition of the next step fails**, and this is the kind of its fault. -/
inductive Hindered (regs : Registers) (memory : Memory) : FaultKind → Prop
  | nowhere (outside : ¬(0 ≤ regs.ip ∧ regs.ip ≤ 255)) : Hindered regs memory .pointerOutOfBounds
  | unknown {opcode} (loaded : memory.load regs.ip = .ok opcode) (undefined : 84 < opcode.toNat) :
      Hindered regs memory .invalidOpcode
  | short {instr} {index : Nat} (fetches : Fetches regs memory instr)
      (within : index < instr.shapes.length) (beyond : 256 ≤ regs.ip + (index + 1 : Nat)) :
      Hindered regs memory .pointerOutOfBounds
  | register {instr index code} (fetches : Fetches regs memory instr)
      (operand : HasOperand regs memory instr index .register code) (undefined : 4 ≤ code.toNat) :
      Hindered regs memory .invalidRegister
  | address {instr index address} (fetches : Fetches regs memory instr)
      (operand : Denotes regs memory instr index address) (outside : ¬(0 ≤ address ∧ address ≤ 255)) :
      Hindered regs memory .addressOutOfBounds
  | divisor {right} (fetches : Fetches regs memory (.binary .div right))
      (zero : Values regs memory (.binary .div right) 1 0) : Hindered regs memory .divisionByZero
  | overflow {instr} (fetches : Fetches regs memory instr) (pushing : pushes instr = true)
      (full : ¬0x80 < regs.sp) : Hindered regs memory .stackOverflow
  | underflow {instr} (fetches : Fetches regs memory instr) (popping : pops instr = true)
      (empty : ¬regs.sp < 0xBF) : Hindered regs memory .stackUnderflow

section Operands

variable {regs now : Registers} {memory after : Memory} {instr : Instr} {index : Nat}

/-- The number of a register is below four. -/
theorem ofIndex?_eq_none_iff (code : UInt8) : Register.ofIndex? code.toNat = none ↔ 4 ≤ code.toNat := by
  rw [Register.ofIndex?, if_neg (by omega), List.getElem?_eq_none_iff]
  show 4 ≤ _ ↔ _
  omega

/-- An operand that is a register has its value. -/
theorem Names.value {r : Register} (names : Names regs memory instr index r) :
    Values regs memory instr index (regs.get r) := by
  obtain ⟨code, operand, named⟩ := names
  refine ⟨.register, code, operand, ?_⟩
  rw [Registers.operand?, Registers.read?, named]
  rfl

/-- An operand that is a place in memory has the byte there. -/
theorem operand?_of_address? {shape : Shape} {code : UInt8} {address : Int}
    (place : regs.address? shape code = some address) :
    regs.operand? memory shape code = (memory.load address).mapError .outOfBounds := by
  cases shape with
  | address => rw [← Option.some.inj place]; rfl
  | indirect => rw [← Option.some.inj place]; rfl
  | stackOffset => rw [← Option.some.inj place]; rfl
  | register => cases place
  | immediate => cases place
  | target => cases place
  | label => cases place
  | text => cases place

theorem Denotes.value {address : Int} (denotes : Denotes regs memory instr index address)
    (inside : 0 ≤ address ∧ address < memory.size) : ∃ value, Values regs memory instr index value := by
  obtain ⟨shape, code, operand, place⟩ := denotes
  obtain ⟨-, -, found⟩ | ⟨outside, -⟩ := memory.load_cases address
  · refine ⟨memory.bytes.getD address.toNat 0, shape, code, operand, ?_⟩
    rw [operand?_of_address? place, found]
    rfl
  · exact absurd inside outside

/-! ## Completed instructions -/

variable {env : Env σ}

/-- **Every operand of a completed instruction** has been fetched, and has a value. -/
theorem Executes.value (executes : Executes env regs memory instr now after)
    (within : index < instr.shapes.length) : ∃ value, Values regs memory instr index value := by
  -- by the number of operands, which index is meant
  have one : instr.shapes.length = 1 → index = 0 := by omega
  have two : instr.shapes.length = 2 → index = 0 ∨ index = 1 := by omega
  -- each rule reads its operands, so each of them has a value
  cases executes with
  | halt => cases within
  | moveToRegister destination source =>
    obtain rfl | rfl := two rfl
    · exact ⟨_, destination.value⟩
    · exact ⟨_, source⟩
  | moveToMemory stores inside =>
    cases stores with
    | move place source =>
      obtain rfl | rfl := two rfl
      · exact place.value inside
      · exact ⟨_, source⟩
    | push pushes => cases pushes
  | binary left operand result =>
    obtain rfl | rfl := two rfl
    · exact ⟨_, left.value⟩
    · exact ⟨_, operand⟩
  | compare left operand =>
    obtain rfl | rfl := two rfl
    · exact ⟨_, left.value⟩
    · exact ⟨_, operand⟩
  | shift left operand result =>
    obtain rfl | rfl := two rfl
    · exact ⟨_, left.value⟩
    · exact ⟨_, operand⟩
  | shiftByZero left operand result =>
    obtain rfl | rfl := two rfl
    · exact ⟨_, left.value⟩
    · exact ⟨_, operand⟩
  | unary operand => obtain rfl := one rfl; exact ⟨_, operand.value⟩
  | jumpTaken operand holds => obtain rfl := one rfl; exact ⟨_, operand⟩
  | jumpPassed operand holds => obtain rfl := one rfl; exact ⟨_, operand⟩
  | push pushes room =>
    obtain rfl := one rfl
    cases pushes with
    | operand pushed => exact ⟨_, pushed⟩
  | pushFlags pushes room => cases within
  | call operand pushes room => obtain rfl := one rfl; exact ⟨_, operand⟩
  | pop destination top => obtain rfl := one rfl; exact ⟨_, destination.value⟩
  | popFlags top => cases within
  | ret top => cases within
  | @output port _ _ operand written => obtain rfl := one rfl; exact ⟨port, _, _, operand, rfl⟩
  | @input port _ _ _ operand read => obtain rfl := one rfl; exact ⟨port, _, _, operand, rfl⟩

/-- **Nothing hinders** an instruction that completes. -/
theorem Executes.not_hindered (full : memory.Full) (fetches : Fetches regs memory instr)
    (executes : Executes env regs memory instr now after) {kind : FaultKind} :
    ¬Hindered regs memory kind := by
  -- an instruction that executes has none of the reasons to fail, one after the other
  have size : (memory.size : Int) = 256 := by rw [full.size]; rfl
  intro hindered
  cases hindered with
  | nowhere outside =>
    -- it was fetched, so the pointer is in memory and the opcode is defined
    obtain ⟨opcode, loaded, -⟩ := fetches
    have inside := Memory.inside_of_load loaded
    omega
  | @unknown opcode loaded undefined =>
    obtain ⟨found, there, decoded⟩ := fetches
    rw [← Except.ok.inj (loaded.symm.trans there)] at decoded
    have defined := Instr.isSome_decode? opcode.toNat
    rw [decoded] at defined
    have below := of_decide_eq_true defined.symm
    omega
  | short again within beyond =>
    obtain rfl := fetches.unique again
    -- its operands have values, so that they are in memory and mean something
    obtain ⟨value, shape, code, operand, -⟩ := executes.value within
    have before := (Memory.inside_of_load operand.byte).2
    omega
  | @register instr' index code again operand undefined =>
    obtain rfl := fetches.unique again
    obtain ⟨value, shape, byte, known, found⟩ :=
      executes.value (List.getElem?_eq_some_iff.1 operand.slot).1
    obtain ⟨rfl, rfl⟩ := operand.unique known
    rw [Registers.operand?, Registers.read?, (ofIndex?_eq_none_iff code).2 undefined] at found
    cases found
  | @address instr' index address again denotes outside =>
    obtain rfl := fetches.unique again
    obtain ⟨shape, code, operand, place⟩ := denotes
    obtain ⟨value, shape', byte, known, found⟩ :=
      executes.value (List.getElem?_eq_some_iff.1 operand.slot).1
    obtain ⟨rfl, rfl⟩ := operand.unique known
    rw [operand?_of_address? place] at found
    cases loaded : memory.load address with
    | ok value =>
      have inside := Memory.inside_of_load loaded
      omega
    | error access =>
      rw [loaded] at found
      cases found
  | divisor again zero =>
    obtain rfl := fetches.unique again
    cases executes with
    | binary left operand result =>
      obtain rfl := operand.unique zero
      cases result
  -- it has pushed or popped, so there was room or a byte
  | overflow again pushing full =>
    obtain rfl := fetches.unique again
    have above : stackLimit < regs.sp := by
      cases executes with
      | push pushes room => exact room.above
      | pushFlags pushes room => exact room.above
      | call operand pushes room => exact room.above
      | _ => cases pushing
    exact full above
  | underflow again popping empty =>
    obtain rfl := fetches.unique again
    have below : regs.sp < stackTop := by
      cases executes with
      | pop destination top => exact top.below
      | popFlags top => exact top.below
      | ret top => exact top.below
      | _ => cases popping
    exact empty below

/-! ## Stopped instructions -/

theorem Pushes.pushes {value : UInt8} (is : Pushes regs memory instr value) : pushes instr = true := by
  cases is <;> rfl

/-- An operand without a value is no register, or is outside memory. -/
theorem hindered_of_operand (full : memory.Full) (fetches : Fetches regs memory instr) {shape : Shape}
    {code : UInt8} {failure : Failure} (operand : HasOperand regs memory instr index shape code)
    (lacks : regs.operand? memory shape code = .error failure) :
    Hindered regs memory failure.faultKind := by
  have size : (memory.size : Int) = 256 := by rw [full.size]; rfl
  -- a place that is not in memory hinders the instruction, in whichever way it is written
  have outside : ∀ {address}, regs.address? shape code = some address →
      Hindered regs memory failure.faultKind := by
    intro address place
    rw [operand?_of_address? place] at lacks
    obtain ⟨-, -, found⟩ | ⟨outside, missing⟩ := memory.load_cases address
    · rw [found] at lacks
      cases lacks
    · rw [missing] at lacks
      obtain rfl := Except.error.inj lacks
      exact .address fetches ⟨shape, code, operand, place⟩ (by omega)
  -- only a register and a place can fail to have a value
  cases shape with
  | register =>
    rw [Registers.operand?, Registers.read?] at lacks
    cases named : Register.ofIndex? code.toNat with
    | some r =>
      rw [named] at lacks
      cases lacks
    | none =>
      rw [named] at lacks
      obtain rfl := Except.error.inj lacks
      exact .register fetches operand ((ofIndex?_eq_none_iff code).1 named)
  | address => exact outside rfl
  | indirect => exact outside rfl
  | stackOffset => exact outside rfl
  | immediate => cases lacks
  | target => cases lacks
  | label => cases lacks
  | text => cases lacks

/-- **What stops an instruction** is a condition that fails, unless an observer or a device does. -/
theorem Breaks.hindered (full : memory.Full) (window : InWindow regs)
    (fetches : Fetches regs memory instr) (ordinary : env.Ordinary) {failure : Failure}
    (internal : failure.IsInternal) (breaks : Breaks env regs memory instr failure now after) :
    Hindered regs memory failure.faultKind := by
  have size : (memory.size : Int) = 256 := by rw [full.size]; rfl
  have limits : (stackLimit : Int) = 0x80 ∧ (stackTop : Int) = 0xBF := by decide
  obtain ⟨low, high⟩ := window
  cases breaks with
  | short within beyond before => exact .short fetches within (by omega)
  | operand is lacks => exact hindered_of_operand full fetches is lacks
  | divisor is zero =>
    subst is
    exact .divisor fetches zero
  | @outside address value access stores lacks =>
    cases stores with
    | move place source =>
      obtain ⟨-, -, found⟩ | ⟨outside, -⟩ := memory.load_cases address
      · rw [found] at lacks
        cases lacks
      · exact .address fetches place (by omega)
    | push pushes =>
      -- the stack window is inside memory
      obtain ⟨-, -, found⟩ | ⟨outside, -⟩ := memory.load_cases regs.sp
      · rw [found] at lacks
        cases lacks
      · omega
  | refused stores inside refuses =>
    obtain ⟨hook, notice, before, late, -, -, told⟩ := refuses
    exact absurd internal (ordinary.notify _ _ _ _ _ told)
  | overflow pushes inside full => exact .overflow fetches pushes.pushes (by omega)
  | nothingOnTop popping lacks =>
    obtain ⟨-, -, found⟩ | ⟨outside, -⟩ := memory.load_cases (regs.sp + 1)
    · rw [found] at lacks
      cases lacks
    · omega
  | underflow popping empty => exact .underflow fetches popping (by omega)
  | port is raises => exact absurd internal (ordinary.raises raises)

end Operands

/-! ## Actions that succeed -/

/-- The action succeeds on every machine. -/
def Certain (action : Action σ α) : Prop :=
  Ensures (fun _ => True) action (fun _ _ => True) fun _ _ => False

/-- The action succeeds, and leaves the stack pointer where it is. -/
def Steady (action : Action σ α) : Prop :=
  ∀ sp, Ensures (fun m => m.cpu.regs.sp = sp) action (fun _ m => m.cpu.regs.sp = sp) fun _ _ => False

theorem Certain.exists_ok {action : Action σ α} (certain : Certain action) (m : Machine σ) :
    ∃ a after, action m = .ok a after := by
  have done := certain m trivial
  cases ran : action m with
  | ok a after => exact ⟨a, after, rfl⟩
  | error failure after =>
    rw [ran] at done
    exact done.elim

theorem Steady.exists_ok {action : Action σ α} (steady : Steady action) (m : Machine σ) :
    ∃ a after, action m = .ok a after ∧ after.cpu.regs.sp = m.cpu.regs.sp := by
  have done := steady m.cpu.regs.sp m rfl
  cases ran : action m with
  | ok a after =>
    rw [ran] at done
    exact ⟨a, after, rfl, done⟩
  | error failure after =>
    rw [ran] at done
    exact done.elim

theorem Certain.pure (a : α) : Certain (pure a : Action σ α) :=
  Ensures.pure fun _ _ => trivial

theorem Certain.modify (f : Machine σ → Machine σ) : Certain (modify f : Action σ Unit) :=
  Ensures.modify fun _ _ => trivial

theorem Certain.get : Certain (get : Action σ (Machine σ)) :=
  fun _ _ => trivial

theorem Certain.bind {first : Action σ α} {next : α → Action σ β} (start : Certain first)
    (rest : ∀ a, Certain (next a)) : Certain (first >>= next) :=
  Ensures.bind start fun a m _ => rest a m trivial

theorem Certain.forM {items : List β} {act : β → Action σ PUnit} (each : ∀ item, Certain (act item)) :
    Certain (items.forM act) :=
  Ensures.forM fun item => each item

end Machine

/-- **Observers and attached devices that do not fail.** While a byte is stored, they leave the stack
pointer where it is; apart from that, they can do anything to the machine. -/
structure Env.Compliant {σ : Type} (env : Env σ) : Prop where
  notify : ∀ hook notice, Machine.Certain (env.notify hook notice)
  answer : ∀ hook port, Machine.Certain (env.answer hook port)
  stack : ∀ hook notice address value, notice.IsAbout address value →
    Machine.Steady (env.notify hook notice)

namespace Machine

variable {σ α β : Type}

/-- Observers and attached devices that do nothing. -/
def silent : Env σ :=
  ⟨fun _ _ => pure (), fun _ _ => pure 0⟩

theorem bystander_silent : (silent : Env σ).Bystander :=
  ⟨fun _ _ => .pure _, fun _ _ => .pure _⟩

theorem compliant_silent : (silent : Env σ).Compliant :=
  ⟨fun _ _ => .pure _, fun _ _ => .pure _, fun _ _ _ _ _ _ => .pure fun _ same => same⟩

theorem ordinary_silent : (silent : Env σ).Ordinary := by
  refine ⟨fun _ _ m failure after told => ?_, fun _ _ m failure after asked => ?_⟩
  · have done : EStateM.Result.ok () m = .error failure after := told
    cases done
  · have done : EStateM.Result.ok (0 : Int) m = .error failure after := asked
    cases done

section Compliant

variable {env : Env σ} (compliant : env.Compliant)
include compliant

/-- Writing a port succeeds. -/
theorem certain_writePort (port value : Int) : Certain (writePort env port value) := by
  refine .bind .get fun m => .bind ?_ fun _ => .bind .get fun now => .forM fun hook =>
    compliant.notify hook _
  unfold deliver
  split
  · refine .bind .get fun m => .bind (.modify _) fun _ => ?_
    split
    · exact .bind .get fun now => .forM fun hook => .bind .get fun _ => compliant.notify hook _
    · exact .pure _
  · exact .bind (.modify _) fun _ => .modify _
  · exact compliant.notify _ _
  · exact .modify _

/-- A store to an address of memory succeeds, and leaves the stack pointer where it is. -/
theorem store_of_inside {address : Int} (value : Int) {old : UInt8} {m : Machine σ}
    (loaded : m.memory.load address = .ok old) :
    ∃ after, store env address value m = .ok () after ∧ after.cpu.regs.sp = m.cpu.regs.sp := by
  -- behind the byte nothing is done but to tell the observers, who leave the stack pointer alone
  have rest : Steady (do
      modify fun m => { m with memory := m.memory.write address.toNat (Bits.toByte value) }
      ((← get).observers.watching address).forM fun hook =>
        env.notify hook (.watch address old (Bits.toByte value))
      if displayStart ≤ address ∧ address ≤ displayEnd then
        tellListeners env address (Bits.toByte value)) := by
    intro sp
    refine .bind (Q := fun _ m => m.cpu.regs.sp = sp) (.modify fun _ same => same) fun _ => ?_
    refine .get fun m same => .of_eq same (.bind (.forM fun hook =>
      compliant.stack hook _ _ _ (.watch old) sp) fun _ => ?_)
    split
    · refine .get fun m same => .of_eq same (.forM fun listener => ?_)
      cases listener with
      | display => exact .modify fun _ same => same
      | hook hook => exact compliant.stack hook _ _ _ .display sp
    · exact .pure fun _ same => same
  -- so they do not fail, and the store succeeds
  obtain ⟨⟨⟩, after, ran, same⟩ := rest.exists_ok m
  refine ⟨after, ?_, same⟩
  change EStateM.bind (load address) _ m = _
  rw [EStateM.bind, load_eq, loaded]
  exact ran

end Compliant

theorem store_of_outside {env : Env σ} {address value : Int} {access : OutOfBounds} {m : Machine σ}
    (lacks : m.memory.load address = .error access) :
    store env address value m = .error (.outOfBounds access) m := by
  change EStateM.bind (load address) _ m = _
  rw [EStateM.bind, load_eq, lacks]
  rfl

/-! ## Runs with the same outcome -/

/-- Both runs have succeeded, or both have failed in the same way. -/
inductive Agree : EStateM.Result Failure (Machine σ) α → EStateM.Result Failure (Machine σ) α → Prop
  | ok {a b one other} : Agree (.ok a one) (.ok b other)
  | error {failure one other} : Agree (.error failure one) (.error failure other)

theorem Agree.refl (result : EStateM.Result Failure (Machine σ) α) : Agree result result := by
  cases result with
  | ok a after => exact .ok
  | error failure after => exact .error

theorem Agree.of_ok {a : α} {one : Machine σ} {result : EStateM.Result Failure (Machine σ) α}
    (agree : Agree (.ok a one) result) : ∃ b other, result = .ok b other := by
  cases agree
  exact ⟨_, _, rfl⟩

theorem Agree.of_error {failure : Failure} {one : Machine σ}
    {result : EStateM.Result Failure (Machine σ) α} (agree : Agree (.error failure one) result) :
    ∃ other, result = .error failure other := by
  cases agree
  exact ⟨_, rfl⟩

/-- After a common beginning, the rests decide. -/
theorem Agree.after {first : Action σ α} {next other : α → Action σ β} {m : Machine σ}
    (rest : ∀ a now, Agree (next a now) (other a now)) :
    Agree ((first >>= next) m) ((first >>= other) m) := by
  change Agree (EStateM.bind first next m) (EStateM.bind first other m)
  rw [EStateM.bind, EStateM.bind]
  cases first m with
  | ok a now => exact rest a now
  | error failure now => exact .error

/-- A rest that succeeds in any case decides nothing. -/
theorem Agree.before {first other : Action σ α} {next : α → Action σ β} {m : Machine σ}
    (start : Agree (first m) (other m)) (certain : ∀ a, Certain (next a)) :
    Agree ((first >>= next) m) ((other >>= next) m) := by
  change Agree (EStateM.bind first next m) (EStateM.bind other next m)
  rw [EStateM.bind, EStateM.bind]
  generalize first m = result at start ⊢
  generalize other m = result' at start ⊢
  cases start with
  | @ok a b one other =>
    obtain ⟨_, _, ran⟩ := (certain a).exists_ok one
    obtain ⟨_, _, ran'⟩ := (certain b).exists_ok other
    simp only [ran, ran']
    exact .ok
  | error => exact .error

/-- The end of a push depends on nothing but the stack pointer. -/
theorem agree_endPush {one other : Machine σ} (same : one.cpu.regs.sp = other.cpu.regs.sp) :
    Agree (endPush one) (endPush other) := by
  -- what is checked behind the store depends on the stack pointer alone
  have outcome : ∀ m : Machine σ, endPush m =
      if m.cpu.regs.sp - 1 < stackLimit then
        .error (.trap .stackOverflow)
          { m with cpu := { m.cpu with regs := { m.cpu.regs with sp := m.cpu.regs.sp - 1 } } }
      else .ok () { m with cpu := { m.cpu with regs := { m.cpu.regs with sp := m.cpu.regs.sp - 1 } } } := by
    intro m
    change (ite (m.cpu.regs.sp - 1 < stackLimit) _ _ : Action σ Unit) _ = _
    split <;> rfl
  rw [outcome, outcome, same]
  split
  · exact .error
  · exact .ok

/-- What becomes of a failure does not depend on the machine. -/
theorem agree_recover (ip : Int) (failure : Failure) (one other : Machine σ) :
    Agree (recover ip failure one) (recover ip failure other) := by
  cases failure <;> exact .error

theorem Agree.of_certain {first other : Action σ α} (certain : Certain first)
    (also : Certain other) (m : Machine σ) : Agree (first m) (other m) := by
  obtain ⟨a, after, ran⟩ := certain.exists_ok m
  obtain ⟨b, after', ran'⟩ := also.exists_ok m
  rw [ran, ran']
  exact .ok

section Compliant

variable {env : Env σ} (compliant : env.Compliant)
include compliant

theorem agree_store (address value : Int) (m : Machine σ) :
    Agree (store env address value m) (store silent address value m) := by
  cases loaded : m.memory.load address with
  | ok old =>
    obtain ⟨after, ran, -⟩ := store_of_inside compliant value loaded
    obtain ⟨after', ran', -⟩ := store_of_inside compliant_silent value loaded
    rw [ran, ran']
    exact .ok
  | error access =>
    rw [store_of_outside loaded, store_of_outside loaded]
    exact .error

/-- A push looks at a stack pointer that the observers of its store have left alone. -/
theorem agree_push (value : Int) (m : Machine σ) :
    Agree (push env value m) (push silent value m) := by
  rw [push_eq, push_eq]
  change Agree (EStateM.bind (store env m.cpu.regs.sp value) _ m)
    (EStateM.bind (store silent m.cpu.regs.sp value) _ m)
  rw [EStateM.bind, EStateM.bind]
  -- the store succeeds with both, or fails with both
  cases loaded : m.memory.load m.cpu.regs.sp with
  | ok old =>
    obtain ⟨one, ran, same⟩ := store_of_inside compliant value loaded
    obtain ⟨other, ran', same'⟩ := store_of_inside compliant_silent value loaded
    rw [ran, ran']
    exact agree_endPush (same.trans same'.symm)
  | error access =>
    rw [store_of_outside loaded, store_of_outside loaded]
    exact .error

/-- Devices are asked the same, whatever they answer. -/
theorem agree_readPort (port : Int) (m : Machine σ) :
    Agree (readPort env port m) (readPort silent port m) := by
  refine .after fun m now => ?_
  generalize m.bus.reader? port = reader
  match reader with
  | none => exact .refl _
  | some .keyboard => exact .refl _
  | some .heater => exact .refl _
  | some (.hook hook) =>
    exact .of_certain (.bind (compliant.answer _ _) fun _ => .pure _)
      (.bind (compliant_silent.answer _ _) fun _ => .pure _) now

/-- **An instruction has the same outcome** with compliant observers and without observers. -/
theorem agree_execute (instr : Instr) (m : Machine σ) :
    Agree (execute env instr m) (execute silent instr m) := by
  have advances : Certain (advance : Action σ Unit) := .modify _
  -- only what is stored and what is asked of ports can differ; the rest is the same action
  cases instr with
  | move form =>
    refine .after fun destination _ => .after fun source _ => .after fun value now =>
      .before ?_ fun _ => advances
    cases form.shapes.1 with
    | address => exact agree_store compliant _ _ now
    | indirect => exact .after fun regs now => agree_store compliant _ _ now
    | stackOffset => exact .after fun regs now => agree_store compliant _ _ now
    | _ => exact .refl _
  | push right =>
    exact .after fun code _ => .after fun value now => .before (agree_push compliant _ now)
      fun _ => advances
  | pushFlags => exact .after fun regs now => .before (agree_push compliant _ now) fun _ => advances
  | call destination =>
    exact .after fun code _ => .after fun target _ => .after fun regs now =>
      .before (agree_push compliant _ now) fun _ => .modify _
  | output =>
    exact .after fun port _ => .after fun regs now =>
      .before (.of_certain (certain_writePort compliant _ _) (certain_writePort compliant_silent _ _) now)
        fun _ => advances
  | input =>
    exact .after fun port now => .before (agree_readPort compliant _ now) fun value =>
      .bind (.modify _) fun _ => advances
  | _ => exact .refl _

/-- **A step has the same outcome** with compliant observers and without observers. -/
theorem agree_step (m : Machine σ) : Agree (step env m) (step silent m) := by
  cases mode : m.cpu.mode with
  | halted =>
    rw [step_of_halted mode, step_of_halted mode]
    exact .ok
  | faulted =>
    rw [step_eq_refault mode, step_eq_refault mode]
    exact .refl _
  | ready =>
    -- the work is the same up to its devices, and what follows it does not fail on one side only
    have agree : Agree (work env m.cpu.regs.ip m) (work silent m.cpu.regs.ip m) :=
      .after fun instr _ => .after fun _ now => agree_execute compliant instr now
    cases worked : work env m.cpu.regs.ip m with
    | ok done now =>
      rw [worked] at agree
      obtain ⟨done', now', worked'⟩ := agree.of_ok
      obtain ⟨after, counted, -⟩ := complete_ok m.cpu.regs.ip now
      obtain ⟨after', counted', -⟩ := complete_ok m.cpu.regs.ip now'
      rw [step_of_work_ok mode worked, step_of_work_ok mode worked', counted, counted']
      exact .ok
    | error cause stopped =>
      rw [worked] at agree
      obtain ⟨stopped', worked'⟩ := agree.of_error
      rw [step_of_work_error mode worked, step_of_work_error mode worked']
      exact agree_recover _ _ _ _

end Compliant

/-! ## Ports -/

/-- If the next instruction reads the keyboard, there is a key for it. -/
def KeyComes (m : Machine σ) : Prop :=
  ∀ port, Fetches m.cpu.regs m.memory .input →
    HasOperand m.cpu.regs m.memory .input 0 .immediate port →
    m.bus.reader? port.toNat = some .keyboard →
    ∀ now, Inward m now → ∃ code after, readKey now = .ok code after

theorem exists_of_bind_error {first : Action σ α} {next : α → Action σ β} {m after : Machine σ}
    {failure : Failure} (ran : (first >>= next) m = .error failure after) :
    (∃ stopped, first m = .error failure stopped) ∨
      ∃ a middle, first m = .ok a middle ∧ next a middle = .error failure after := by
  change EStateM.bind first next m = _ at ran
  rw [EStateM.bind] at ran
  cases started : first m with
  | ok a middle =>
    rw [started] at ran
    exact .inr ⟨a, middle, rfl, ran⟩
  | error cause middle =>
    rw [started] at ran
    obtain ⟨rfl, -⟩ := EStateM.Result.error.inj ran
    exact .inl ⟨middle, rfl⟩

theorem Certain.not_error {action : Action σ α} (certain : Certain action) {m after : Machine σ}
    {failure : Failure} : action m ≠ .error failure after := by
  obtain ⟨a, done, ran⟩ := certain.exists_ok m
  rw [ran]
  exact nofun

theorem internal_of_fetch {m after : Machine σ} {failure : Failure}
    (failed : fetch m = .error failure after) : failure.IsInternal := by
  change (ite (m.memory.size ≤ m.cpu.regs.ip + 1) _ _ : Action σ UInt8) _ = _ at failed
  split at failed
  · cases failed
    exact trivial
  · rw [load_eq] at failed
    generalize Memory.load _ _ = result at failed
    cases result with
    | ok value => cases failed
    | error access =>
      cases failed
      exact trivial

/-- A port can be read, if there is a key for it or it is not the keyboard's. -/
theorem exists_readPort {env : Env σ} (compliant : env.Compliant) {port : Int} {m : Machine σ}
    (key : m.bus.reader? port = some .keyboard → ∃ code after, readKey m = .ok code after) :
    ∃ value after, readPort env port m = .ok value after := by
  rw [readPort, get_bind]
  cases bound : m.bus.reader? port with
  | none => exact ⟨_, _, rfl⟩
  | some reader =>
    cases reader with
    | keyboard => exact key bound
    | heater => exact ⟨_, _, rfl⟩
    | hook hook =>
      have answers : Certain (do return Bits.toByte (← env.answer hook port) : Action σ UInt8) :=
        .bind (compliant.answer _ _) fun _ => .pure _
      exact answers.exists_ok m

/-- With a compliant environment, an output fails only in front of its port. -/
theorem internal_of_output {env : Env σ} (compliant : env.Compliant) {m after : Machine σ}
    {failure : Failure} (failed : execute env .output m = .error failure after) :
    failure.IsInternal := by
  obtain ⟨stopped, failed⟩ | ⟨port, now, -, failed⟩ := exists_of_bind_error failed
  · exact internal_of_fetch failed
  · have rest : Certain (do writePort env port.toNat (← getRegs).al.toNat; advance) :=
      .bind (.bind .get fun _ => .pure _) fun regs =>
        .bind (certain_writePort compliant _ _) fun _ => .modify _
    exact absurd failed rest.not_error

/-- With a key for it, so does an input. -/
theorem internal_of_input {m stopped : Machine σ} {failure : Failure}
    (fetches : Fetches m.cpu.regs m.memory .input) (key : KeyComes m)
    (failed : work silent m.cpu.regs.ip m = .error failure stopped) : failure.IsInternal := by
  rw [work_of_fetches fetches] at failed
  obtain ⟨stopped, failed⟩ | ⟨port, now, fetched, failed⟩ := exists_of_bind_error failed
  · exact internal_of_fetch failed
  -- the operand byte is there, and the port behind it answers
  obtain ⟨loaded, ahead⟩ := (Ahead.start _).fetch fetched
  have traced : Inward m { m with cpu := m.cpu.traced .input } := rfl
  have inward := traced.trans ahead.inward
  have operand : HasOperand m.cpu.regs m.memory .input 0 .immediate port := by
    refine ⟨rfl, ?_⟩
    rwa [Processor.regs_traced] at loaded
  have sameBus : now.bus = m.bus := by rw [inward]
  have comes := key port fetches operand
  rw [← sameBus] at comes
  obtain ⟨value, after, read⟩ := exists_readPort compliant_silent fun bound => comes bound now inward
  have receives : Certain (receive value : Action σ Unit) := .bind (.modify _) fun _ => .modify _
  obtain ⟨stopped, failed⟩ | ⟨value', after', read', failed⟩ := exists_of_bind_error failed
  · rw [read] at failed
    cases failed
  · rw [read] at read'
    obtain ⟨rfl, rfl⟩ := EStateM.Result.ok.inj read'
    exact absurd failed receives.not_error

/-- With a compliant environment, what stops an instruction lies in itself, unless it asks a port. -/
theorem Breaks.internal_or {env : Env σ} (compliant : env.Compliant) {regs now : Registers}
    {memory after : Memory} {instr : Instr} {failure : Failure}
    (breaks : Breaks env regs memory instr failure now after) :
    failure.IsInternal ∨ instr = .output ∨ instr = .input := by
  -- of the ways to fail, one is by observers and two by ports
  cases breaks with
  | operand is lacks =>
    obtain ⟨index, rfl⟩ | ⟨access, rfl⟩ := Registers.operand?_error lacks
    · exact .inl trivial
    · exact .inl trivial
  | refused stores inside refuses =>
    obtain ⟨hook, notice, before, late, -, -, told⟩ := refuses
    exact absurd told (compliant.notify hook notice).not_error
  | port is raises => exact .inr is
  | short within beyond before => exact .inl trivial
  | divisor is zero => exact .inl trivial
  | outside stores lacks => exact .inl trivial
  | overflow pushes inside full => exact .inl trivial
  | nothingOnTop popping lacks => exact .inl trivial
  | underflow popping empty => exact .inl trivial

/-! ## Steps -/

section Step

variable {m : Machine σ} (full : m.memory.Full) (ready : m.cpu.mode = .ready)

include full ready

/-- A step without observers that completes was not hindered. -/
theorem not_hindered_of_silent {after : Machine σ} (ran : step silent m = .ok () after)
    {kind : FaultKind} : ¬Hindered m.cpu.regs m.memory kind := by
  obtain ⟨instr, regs, fetches, executes, -⟩ := step_completes bystander_silent ready ran
  exact executes.not_hindered full fetches

variable (window : InWindow m.cpu.regs) (key : KeyComes m)
include window key

omit ready in
/-- The work of a step without observers fails because the step is hindered. -/
theorem hindered_of_work {cause : Failure} {stopped : Machine σ}
    (failed : work silent m.cpu.regs.ip m = .error cause stopped) :
    cause.IsInternal ∧ Hindered m.cpu.regs m.memory cause.faultKind := by
  -- what the silent machine comes to is enough
  have size : (m.memory.size : Int) = 256 := by rw [full.size]; rfl
  have stops : Stops (silent : Env σ) m.cpu m.memory cause stopped.cpu stopped.memory := by
    have ends := ensures_work bystander_silent m.cpu m.memory m ⟨rfl, rfl⟩
    rw [← work, failed] at ends
    exact ends
  generalize stopped.cpu = processor at stops
  generalize stopped.memory = now at stops
  -- each way to stop has its own reason among those that hinder
  cases stops with
  | nowhere outside => exact ⟨trivial, .nowhere (by omega)⟩
  | @unknown opcode loaded undefined =>
    have missing := Instr.isSome_decode? opcode.toNat
    rw [undefined] at missing
    have above := of_decide_eq_false missing.symm
    exact ⟨trivial, .unknown loaded (by omega)⟩
  | broken fetches breaks =>
    -- with no device to fail, the failure is one of the processor
    have internal : cause.IsInternal := by
      obtain internal | rfl | rfl := breaks.internal_or compliant_silent
      · exact internal
      · rw [work_of_fetches fetches] at failed
        exact internal_of_output compliant_silent failed
      · exact internal_of_input fetches key failed
    exact ⟨internal, breaks.hindered full window fetches ordinary_silent internal⟩

/-- The fault of a step without observers is of the kind of a condition that fails. -/
theorem hindered_of_silent {failure : Failure} {after : Machine σ}
    (failed : step silent m = .error failure after) :
    ∃ fault, failure = .fault fault ∧ Hindered m.cpu.regs m.memory fault.kind := by
  cases worked : work silent m.cpu.regs.ip m with
  -- a step whose work has succeeded does not fail afterwards
  | ok done now =>
    obtain ⟨counted, completed, -⟩ := complete_ok m.cpu.regs.ip now
    rw [step_of_work_ok ready worked, completed] at failed
    cases failed
  | error cause stopped =>
    obtain ⟨internal, hindered⟩ := hindered_of_work full window key worked
    rw [step_of_work_error ready worked] at failed
    -- only traps and accesses are internal, and both are latched as faults
    cases cause with
    | trap t =>
      obtain ⟨rfl, -⟩ := EStateM.Result.error.inj failed
      exact ⟨_, rfl, hindered⟩
    | outOfBounds access =>
      obtain ⟨rfl, -⟩ := EStateM.Result.error.inj failed
      exact ⟨_, rfl, hindered⟩
    | _ => exact absurd internal id

/-- **When a step completes.** With compliant observers and devices, the step of a ready processor
completes just when none of its conditions fails; otherwise it ends in a fault of the kind of one that
does, which is not that of a device. -/
theorem step_completes_iff {env : Env σ} (compliant : env.Compliant) :
    ((∃ after, step env m = .ok () after) ↔ ∀ kind, ¬Hindered m.cpu.regs m.memory kind) ∧
      ∀ failure after, step env m = .error failure after →
        ∃ fault, failure = .fault fault ∧ Hindered m.cpu.regs m.memory fault.kind ∧
          fault.kind ≠ .deviceError := by
  -- the environment may be anything that complies: its steps end as the silent ones do
  have agree := agree_step compliant m
  have fails : ∀ failure after, step env m = .error failure after →
      ∃ fault, failure = .fault fault ∧ Hindered m.cpu.regs m.memory fault.kind := by
    intro failure after failed
    rw [failed] at agree
    obtain ⟨other, alike⟩ := agree.of_error
    exact hindered_of_silent full ready window key alike
  refine ⟨⟨fun ⟨after, ran⟩ kind => ?_, fun clear => ?_⟩, fun failure after failed => ?_⟩
  · rw [ran] at agree
    obtain ⟨⟨⟩, other, alike⟩ := agree.of_ok
    exact not_hindered_of_silent full ready alike
  · cases ran : step env m with
    | ok done after => exact ⟨after, rfl⟩
    | error failure after =>
      obtain ⟨fault, -, hindered⟩ := fails failure after ran
      exact absurd hindered (clear _)
  · obtain ⟨fault, same, hindered⟩ := fails failure after failed
    refine ⟨fault, same, hindered, fun device => ?_⟩
    -- no reason that hinders is the fault of a device
    rw [device] at hindered
    cases hindered

end Step

/-- The first instruction reads the keyboard, where a key was pressed. -/
def typing : Machine Unit :=
  { memory := beginning [Instr.input.opcode, keyboardPort]
    devices := { keyboard := ⟨some (.key 65)⟩ }
    notes := () }

/-- A step that reads the keyboard and is not hindered. -/
theorem step_completes_iff_of_input :
    (silent : Env Unit).Compliant ∧ typing.memory.Full ∧ typing.cpu.mode = .ready ∧
      InWindow typing.cpu.regs ∧ KeyComes typing ∧
      (∃ after, step silent typing = .ok () after) ∧
      ∀ kind, ¬Hindered typing.cpu.regs typing.memory kind := by
  have full : typing.memory.Full := full_beginning (by decide)
  have window : InWindow typing.cpu.regs := ⟨by decide, by decide⟩
  have key : KeyComes typing := by
    intro port fetches operand bound now inward
    rw [inward]
    exact ⟨_, _, rfl⟩
  obtain ⟨after, ran, -⟩ := exists_of_leadsTo silent typing (fun _ => true) (by decide +kernel)
  exact ⟨compliant_silent, full, rfl, window, key, ⟨after, ran⟩,
    (step_completes_iff full rfl window key compliant_silent).1.1 ⟨after, ran⟩⟩

/-! ## Observers that move the stack pointer -/

/-- Every observer resets the processor. -/
def restarting : Env Unit :=
  ⟨fun _ _ => resetProcessor, fun _ _ => pure 0⟩

/-- The first instruction pushes a seven to the last slot of the stack, which is watched. -/
def pushingLast : Machine Unit :=
  { cpu := { regs := { sp := 0x80 } }
    memory := beginning [(Instr.push .immediate).opcode, 7]
    observers := { watchpoints := [(0x80, 0)] }
    notes := () }

/-- **A hindered push can complete.** Its observer does not fail, but it resets the processor, and with it
the stack pointer that the push looks at. -/
theorem exists_hindered_push_completes :
    ∃ after, (∀ hook notice, Certain (restarting.notify hook notice)) ∧
      (∀ hook port, Certain (restarting.answer hook port)) ∧ pushingLast.memory.Full ∧
      pushingLast.cpu.mode = .ready ∧ InWindow pushingLast.cpu.regs ∧ KeyComes pushingLast ∧
      Hindered pushingLast.cpu.regs pushingLast.memory .stackOverflow ∧
      step restarting pushingLast = .ok () after := by
  have fetches : Fetches pushingLast.cpu.regs pushingLast.memory (.push .immediate) := by
    decide +kernel
  have key : KeyComes pushingLast := fun port input => nomatch fetches.unique input
  obtain ⟨after, ran, -⟩ := exists_of_leadsTo restarting pushingLast (fun _ => true)
    (by decide +kernel)
  exact ⟨after, fun _ _ => .modify _, fun _ _ => .pure _, full_beginning (by decide), rfl,
    ⟨by decide, by decide⟩, key, .overflow fetches rfl (by decide), ran⟩

end Machine

end EightBit
