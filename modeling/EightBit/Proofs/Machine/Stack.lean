import EightBit.Proofs.Machine.Step

/-!
# The Stack over Steps

What a byte on the stack is good for: it stays in its slot as long as the stack pointer is below it
and no move goes there, and a pop takes it out again. A return address is such a byte, which has room
for the addresses of memory only: the address behind its last byte, where an instruction ends that
reaches the end of memory, is not among them.

## Main Definitions

- `Sink`, `Pops`: where an instruction puts the byte that it pops.
- `RunsBelow`: a run that leaves a stack slot alone.

## Main Statements

- `step_pops`: when a pop completes, and what it leaves.
- `returns_iff`: when a return goes back behind the call.
- `Executes.load_eq`: an instruction changes no byte but the one it stores.
- `RunsBelow.load_eq`: a run below a slot does not change it.
- `pushed_stays`: what was pushed is popped again.
-/

namespace EightBit.Machine

variable {σ : Type} {env : Env σ}

/-! ## Pops -/

/-- Where a popped byte goes. -/
inductive Sink
  | register (r : Register)
  | status
  | pointer
  deriving DecidableEq, Repr

/-- The byte is there. -/
def Sink.Has (sink : Sink) (value : UInt8) (regs : Registers) : Prop :=
  match sink with
  | .register r => regs.get r = value
  | .status => regs.sr = Status.ofByte value.toNat
  | .pointer => regs.ip = value.toNat

/-- The instruction pops a byte into this place. -/
inductive Pops (regs : Registers) (memory : Memory) : Instr → Sink → Prop
  | register {r} (destination : Names regs memory .pop 0 r) : Pops regs memory .pop (.register r)
  | status : Pops regs memory .popFlags .status
  | pointer : Pops regs memory .ret .pointer

section Pop

variable {regs now : Registers} {memory after : Memory} {instr : Instr} {sink : Sink} {value : UInt8}

theorem OnTop.unique {other : UInt8} (top : OnTop regs memory value)
    (again : OnTop regs memory other) : value = other :=
  Except.ok.inj (top.loaded.symm.trans again.loaded)

/-- A completed pop has taken the byte on top of the stack. -/
theorem Executes.popped (pops : Pops regs memory instr sink)
    (executes : Executes env regs memory instr now after) :
    ∃ value, OnTop regs memory value ∧ sink.Has value now ∧ now.sp = regs.sp + 1 := by
  -- each of the three instructions pops in one rule, and the sink says where to
  cases pops with
  | register destination =>
    cases executes with
    | pop named top =>
      obtain rfl := destination.unique named
      exact ⟨_, top, by simp [Sink.Has], by simp⟩
  | status =>
    cases executes with
    | popFlags top => exact ⟨_, top, by simp [Sink.Has], by simp⟩
  | pointer =>
    cases executes with
    | ret top => exact ⟨_, top, by simp [Sink.Has], by simp⟩

/-- A pop stores nothing. -/
theorem Pops.not_stores (pops : Pops regs memory instr sink) {address : Int} :
    ¬Stores regs memory instr address value := by
  intro stores
  cases pops <;> cases stores with
  | push pushes => cases pushes

/-- The operand of a pop, if there is one, can be read. -/
theorem Pops.operand (pops : Pops regs memory instr sink) {index : Nat}
    (within : index < instr.shapes.length) :
    ∃ code r, HasOperand regs memory instr index .register code ∧
      Register.ofIndex? code.toNat = some r := by
  cases pops with
  | register destination =>
    obtain rfl : index = 0 := by simpa [Instr.shapes] using within
    obtain ⟨code, is, named⟩ := destination
    exact ⟨code, _, is, named⟩
  | status => simp [Instr.shapes] at within
  | pointer => simp [Instr.shapes] at within

/-- With a byte on top of the stack, nothing stops a pop. -/
theorem Pops.not_breaks (pops : Pops regs memory instr sink) (top : OnTop regs memory value)
    {failure : Failure} : ¬Breaks env regs memory instr failure now after := by
  intro breaks
  -- of the ways to fail, those that are about stores, ports and divisions do not concern it
  cases breaks with
  | short within beyond before =>
    obtain ⟨code, r, is, -⟩ := pops.operand within
    have inside := Memory.inside_of_load is.byte
    omega
  | operand is lacks =>
    obtain ⟨within, -⟩ := List.getElem?_eq_some_iff.1 is.slot
    obtain ⟨code, r, known, named⟩ := pops.operand within
    obtain ⟨rfl, rfl⟩ := is.unique known
    rw [Registers.operand?, Registers.read?, named] at lacks
    cases lacks
  | divisor is zero => cases is; cases pops
  | outside stores lacks => exact pops.not_stores stores
  | refused stores inside refuses => exact pops.not_stores stores
  | overflow pushes inside full => exact pops.not_stores (.push pushes)
  -- there is a byte on top, so that it is neither missing nor below the top
  | nothingOnTop popping lacks =>
    rw [top.loaded] at lacks
    cases lacks
  | underflow popping empty =>
    have below := top.below
    omega
  | port is raises => obtain rfl | rfl := is <;> cases pops

end Pop

section Step

variable (bystander : env.Bystander) {m : Machine σ} {instr : Instr}
include bystander

/-- A step completes if nothing stops its instruction. -/
theorem exists_step (ready : m.cpu.mode = .ready) (fetches : Fetches m.cpu.regs m.memory instr)
    (unbroken : ∀ failure now after, ¬Breaks env m.cpu.regs m.memory instr failure now after) :
    ∃ after, step env m = .ok () after := by
  cases ran : step env m with
  | ok done after => exact ⟨after, rfl⟩
  | error failure after =>
    obtain ⟨cause, stopped, stops, -⟩ := step_fails bystander ready ran
    obtain ⟨regs, breaks, -⟩ := stops.breaks fetches
    exact absurd breaks (unbroken _ _ _)

/-- **A pop completes** when there is a byte on top of the stack, and takes it. -/
theorem step_pops (ready : m.cpu.mode = .ready) (fetches : Fetches m.cpu.regs m.memory instr)
    {sink : Sink} (pops : Pops m.cpu.regs m.memory instr sink) {value : UInt8}
    (top : OnTop m.cpu.regs m.memory value) :
    ∃ after, step env m = .ok () after ∧ sink.Has value after.cpu.regs ∧
      after.cpu.regs.sp = m.cpu.regs.sp + 1 := by
  obtain ⟨after, ran⟩ := exists_step bystander ready fetches fun _ _ _ => pops.not_breaks top
  obtain ⟨other, again, has, moved⟩ := (step_executes bystander ready fetches ran).popped pops
  obtain rfl := top.unique again
  exact ⟨after, ran, has, moved⟩

end Step

/-! ## Pushes -/

section Push

variable {regs now : Registers} {memory after : Memory} {instr : Instr} {value : UInt8}

theorem Pushes.unique {other : UInt8} (pushes : Pushes regs memory instr value)
    (again : Pushes regs memory instr other) : value = other := by
  cases pushes with
  | operand pushed =>
    cases again with
    | operand pushed' => exact pushed.unique pushed'
  | status => cases again; rfl
  | returnAddress => cases again; rfl

/-- A completed push has stored its byte where the stack pointer was. -/
theorem Executes.pushed (pushes : Pushes regs memory instr value)
    (executes : Executes env regs memory instr now after) :
    HasRoom regs memory ∧ now.sp = regs.sp - 1 ∧ after = memory.write regs.sp.toNat value := by
  -- each of the three values is pushed by one instruction, and in one rule
  cases pushes with
  | operand pushed =>
    cases executes with
    | push pushes room =>
      obtain rfl := pushes.unique (.operand pushed)
      exact ⟨room, rfl, rfl⟩
  | status =>
    cases executes with
    | pushFlags pushes room =>
      obtain rfl := pushes.unique .status
      exact ⟨room, rfl, rfl⟩
  | returnAddress =>
    cases executes with
    | call operand pushes room =>
      obtain rfl := pushes.unique .returnAddress
      exact ⟨room, rfl, rfl⟩

/-- **An instruction changes no byte** but the one that it stores. -/
theorem Executes.load_eq (executes : Executes env regs memory instr now after) {address : Int}
    (away : ∀ place value, Stores regs memory instr place value → place ≠ address) :
    after.load address = memory.load address := by
  have written : ∀ {place value}, Stores regs memory instr place value → 0 ≤ place →
      (memory.write place.toNat value).load address = memory.load address :=
    fun stores nonneg => Memory.load_write_of_ne nonneg (Ne.symm (away _ _ stores)) _
  -- four kinds of instructions store, each of them at one place
  cases executes with
  | moveToMemory stores inside => exact written stores inside.1
  | push pushes room => exact written (.push pushes) room.inside.1
  | pushFlags pushes room => exact written (.push pushes) room.inside.1
  | call operand pushes room => exact written (.push pushes) room.inside.1
  | _ => rfl

/-- A completed push has left its byte on top of the stack. -/
theorem step_pushes (bystander : env.Bystander) {m pushed : Machine σ} (full : m.memory.Full)
    (ready : m.cpu.mode = .ready) (fetches : Fetches m.cpu.regs m.memory instr)
    (pushes : Pushes m.cpu.regs m.memory instr value) (ran : step env m = .ok () pushed) :
    pushed.cpu.regs.sp = m.cpu.regs.sp - 1 ∧ pushed.memory.load m.cpu.regs.sp = .ok value := by
  obtain ⟨room, moved, stored⟩ := (step_executes bystander ready fetches ran).pushed pushes
  rw [stored]
  exact ⟨moved, Memory.load_write_self full room.inside value⟩

end Push

/-! ## Return addresses -/

/-- A call keeps the flags. -/
theorem Executes.sr_of_call {regs now : Registers} {memory after : Memory}
    {destination : Destination} (executes : Executes env regs memory (.call destination) now after) :
    now.sr = regs.sr := by
  cases executes
  rfl

section Call

variable (bystander : env.Bystander) {m called : Machine σ} (full : m.memory.Full)
  (ready : m.cpu.mode = .ready) {destination : Destination}
  (fetches : Fetches m.cpu.regs m.memory (.call destination)) (ran : step env m = .ok () called)

include bystander ready fetches ran

/-- After a call the processor goes on, unless the fault flag was raised before. -/
theorem mode_of_call :
    called.cpu.mode = if Status.fault m.cpu.regs.sr then .faulted else .ready := by
  have kept := (step_executes bystander ready fetches ran).sr_of_call
  rw [mode_of_completed bystander ready fetches nofun ran, kept]

include full

/-- A call leaves the address behind it on top of the stack, its low byte at least. -/
theorem step_calls :
    called.cpu.regs.sp = m.cpu.regs.sp - 1 ∧
      ∃ top : UInt8, called.memory.load (called.cpu.regs.sp + 1) = .ok top ∧
        (top.toNat : Int) = (m.cpu.regs.ip + 2) % 256 := by
  obtain ⟨moved, stored⟩ := step_pushes bystander full ready fetches .returnAddress ran
  refine ⟨moved, _, ?_, Bits.toNat_toByte (m.cpu.regs.ip + (Instr.call destination).size)⟩
  rw [moved, Int.sub_add_cancel, stored]

/-- **Returning from a call.** When a call is followed by a return, the return goes back behind the call
and leaves the stack pointer where it was before, just when there is an address behind the call, the
stack was inside its window and the fault flag was not raised. -/
theorem returns_iff (ret : Fetches called.cpu.regs called.memory .ret) :
    (∃ after, step env called = .ok () after ∧ after.cpu.regs.ip = m.cpu.regs.ip + 2 ∧
        after.cpu.regs.sp = m.cpu.regs.sp) ↔
      m.cpu.regs.ip + 2 < memorySize ∧ m.cpu.regs.sp ≤ stackTop ∧
        Status.fault m.cpu.regs.sr = false := by
  obtain ⟨moved, top, loaded, address⟩ := step_calls bystander full ready fetches ran
  have mode := mode_of_call bystander ready fetches ran
  have start : 0 ≤ m.cpu.regs.ip := by
    obtain ⟨opcode, there, -⟩ := fetches
    exact (Memory.inside_of_load there).1
  have size : (memorySize : Int) = 256 := rfl
  constructor
  · rintro ⟨after, again, place, -⟩
    -- a return that completes was one of a ready processor
    have unflagged : Status.fault m.cpu.regs.sr = false := by
      rw [Bool.eq_false_iff]
      intro flagged
      rw [if_pos flagged] at mode
      obtain now | ⟨now, -⟩ := mode_of_step again <;> rw [mode] at now <;> cases now
    rw [unflagged] at mode
    obtain ⟨value, onTop, taken, -⟩ := (step_executes bystander mode ret again).popped .pointer
    obtain rfl := onTop.unique ⟨loaded, onTop.below⟩
    have below := onTop.below
    have fits : m.cpu.regs.ip + 2 = (m.cpu.regs.ip + 2) % 256 := by rw [← address, ← taken, place]
    exact ⟨by omega, by omega, unflagged⟩
  · rintro ⟨next, inWindow, unflagged⟩
    rw [unflagged] at mode
    obtain ⟨after, again, taken, back⟩ := step_pops bystander mode ret .pointer
      ⟨loaded, by omega⟩
    have fits : (m.cpu.regs.ip + 2) % 256 = m.cpu.regs.ip + 2 := by omega
    exact ⟨after, again, by rw [taken, address, fits], by omega⟩

end Call

/-- A call at an address, whose target is a return. -/
def callAt (address : Nat) : Machine Unit :=
  { cpu := { regs := { ip := address } }
    memory := (((Memory.zeros memorySize).write address (UInt8.ofNat (Instr.call .direct).opcode)).write
      (address + 1) 16).write 16 (UInt8.ofNat Instr.ret.opcode)
    notes := () }

/-- A call at the start of memory. -/
theorem returns_iff_at_start :
    ∃ called : Machine Unit, (callAt 0).memory.Full ∧ (callAt 0).cpu.mode = .ready ∧
      Fetches (callAt 0).cpu.regs (callAt 0).memory (.call .direct) ∧
      step alone (callAt 0) = .ok () called ∧ Fetches called.cpu.regs called.memory .ret ∧
      ∃ after, step alone called = .ok () after ∧ after.cpu.regs.ip = 2 ∧
        after.cpu.regs.sp = stackTop := by
  have full : (callAt 0).memory.Full := ⟨by decide +kernel, by decide +kernel⟩
  have fetches : Fetches (callAt 0).cpu.regs (callAt 0).memory (.call .direct) := by decide +kernel
  obtain ⟨called, ran, checked⟩ := exists_of_leadsTo alone (callAt 0)
    (fun called => decide (Fetches called.cpu.regs called.memory .ret)) (by decide +kernel)
  have ret := of_decide_eq_true checked
  exact ⟨called, full, rfl, fetches, ran, ret,
    (returns_iff bystander_alone full rfl fetches ran ret).2 (by decide)⟩

/-- **A call at the end of memory** does not return behind itself: there is no byte for that address, and
the return goes to the start of memory. -/
theorem exists_return_elsewhere :
    ∃ called after : Machine Unit, (callAt 0xFE).memory.Full ∧ (callAt 0xFE).cpu.mode = .ready ∧
      Fetches (callAt 0xFE).cpu.regs (callAt 0xFE).memory (.call .direct) ∧
      step alone (callAt 0xFE) = .ok () called ∧ Fetches called.cpu.regs called.memory .ret ∧
      step alone called = .ok () after ∧ after.cpu.regs.ip = 0 ∧
      after.cpu.regs.ip ≠ (callAt 0xFE).cpu.regs.ip + 2 := by
  obtain ⟨called, ran, checked⟩ := exists_of_leadsTo alone (callAt 0xFE)
    (fun called => decide (Fetches called.cpu.regs called.memory .ret) &&
      leadsTo alone called fun after => decide (after.cpu.regs.ip = 0)) (by decide +kernel)
  obtain ⟨ret, checked⟩ := Bool.and_eq_true_iff.1 checked
  obtain ⟨after, again, checked⟩ := exists_of_leadsTo _ _ _ checked
  have start := of_decide_eq_true checked
  exact ⟨called, after, ⟨by decide +kernel, by decide +kernel⟩, rfl, by decide +kernel, ran,
    of_decide_eq_true ret, again, start, by rw [start]; decide⟩

/-! ## Slots -/

/-- The next step is no move to this address. -/
def MovesElsewhere (m : Machine σ) (address : Int) : Prop :=
  m.cpu.mode = .ready → ∀ form, Fetches m.cpu.regs m.memory (.move form) →
    ¬Denotes m.cpu.regs m.memory (.move form) 0 address

theorem MovesElsewhere.of_fetches {m : Machine σ} {address : Int} {instr : Instr}
    (fetches : Fetches m.cpu.regs m.memory instr) (other : ∀ form, instr ≠ .move form) :
    MovesElsewhere m address :=
  fun _ form move => absurd (fetches.unique move) (other form)

/-- **A run that leaves a stack slot alone**: its steps do not fail, after each of them the stack pointer
is below the slot, and no move goes there. -/
inductive RunsBelow (env : Env σ) (slot : Int) (start : Machine σ) : Machine σ → Prop
  | start : RunsBelow env slot start start
  | step {now next : Machine σ} (earlier : RunsBelow env slot start now)
      (away : MovesElsewhere now slot) (ran : step env now = .ok () next)
      (below : next.cpu.regs.sp < slot) :
      RunsBelow env slot start next

/-- Below a stack slot, only a move can store there. -/
theorem Stores.ne_of_below {regs : Registers} {memory : Memory} {instr : Instr} {slot : Int}
    (below : regs.sp < slot) (away : ∀ form, instr = .move form → ¬Denotes regs memory instr 0 slot)
    {place : Int} {value : UInt8} (stores : Stores regs memory instr place value) : place ≠ slot := by
  rintro rfl
  cases stores with
  | move denotes source => exact away _ rfl denotes
  | push pushes => exact absurd below (Int.lt_irrefl _)

section Slot

variable (bystander : env.Bystander) {slot : Int}
include bystander

/-- One step below a stack slot does not change it. -/
theorem step_load_eq {m after : Machine σ} (below : m.cpu.regs.sp < slot)
    (away : MovesElsewhere m slot) (ran : step env m = .ok () after) :
    after.memory.load slot = m.memory.load slot := by
  obtain ready | ⟨-, rfl⟩ := mode_of_step ran
  · obtain ⟨instr, regs, fetches, executes, -⟩ := step_completes bystander ready ran
    refine executes.load_eq fun place value stores => stores.ne_of_below below ?_
    rintro form rfl
    exact away ready form fetches
  · rfl

/-- **A whole run below a stack slot** does not change it. -/
theorem RunsBelow.load_eq {start last : Machine σ} (run : RunsBelow env slot start last)
    (below : start.cpu.regs.sp < slot) :
    last.cpu.regs.sp < slot ∧ last.memory.load slot = start.memory.load slot := by
  induction run with
  | start => exact ⟨below, rfl⟩
  | step earlier away ran under ih =>
    obtain ⟨before, same⟩ := ih
    exact ⟨under, (step_load_eq bystander before away ran).trans same⟩

/-- **What was pushed stays**, and is popped again. A run that leaves its slot alone keeps it, and the
pop that comes back to it takes it, if the slot is in the stack window. -/
theorem pushed_stays {before start last : Machine σ} (full : before.memory.Full)
    (ready : before.cpu.mode = .ready) {instr : Instr} {value : UInt8}
    (fetches : Fetches before.cpu.regs before.memory instr)
    (pushes : Pushes before.cpu.regs before.memory instr value)
    (ran : step env before = .ok () start)
    (run : RunsBelow env before.cpu.regs.sp start last) :
    start.cpu.regs.sp = before.cpu.regs.sp - 1 ∧
      last.memory.load before.cpu.regs.sp = .ok value ∧
      ∀ instr sink, last.cpu.mode = .ready → last.cpu.regs.sp = before.cpu.regs.sp - 1 →
        before.cpu.regs.sp ≤ stackTop → Fetches last.cpu.regs last.memory instr →
        Pops last.cpu.regs last.memory instr sink →
        ∃ after, step env last = .ok () after ∧ sink.Has value after.cpu.regs ∧
          after.cpu.regs.sp = before.cpu.regs.sp := by
  obtain ⟨moved, stored⟩ := step_pushes bystander full ready fetches pushes ran
  obtain ⟨-, same⟩ := run.load_eq bystander (by omega)
  -- nothing in between has stored into the slot, so the pushed byte is still there
  have kept := same.trans stored
  refine ⟨moved, kept, fun instr sink ready place top fetches pops => ?_⟩
  have onTop : OnTop last.cpu.regs last.memory value := by
    refine ⟨?_, by omega⟩
    rw [place, Int.sub_add_cancel]
    exact kept
  obtain ⟨after, again, taken, back⟩ := step_pops bystander ready fetches pops onTop
  exact ⟨after, again, taken, by omega⟩

end Slot

/-- A machine with a stack pointer, and with code that begins with the push of a seven. -/
def pushingSeven (sp : Int) (rest : List Nat) : Machine Unit :=
  { cpu := { regs := { sp } }
    memory := beginning ((Instr.push .immediate).opcode :: 7 :: rest)
    notes := () }

/-- The byte under another one: the run between its push and its pop is a push and a pop. -/
theorem pushed_stays_under_another :
    ∃ before start last : Machine Unit,
      before = pushingSeven 0xBF
          [(Instr.push .immediate).opcode, 8, Instr.pop.opcode, 1, Instr.pop.opcode, 0] ∧
        before.memory.Full ∧ before.cpu.mode = .ready ∧
        Fetches before.cpu.regs before.memory (.push .immediate) ∧
        Pushes before.cpu.regs before.memory (.push .immediate) 7 ∧
        step alone before = .ok () start ∧ RunsBelow alone before.cpu.regs.sp start last ∧
        last.memory.load 0xBF = .ok 7 ∧
        ∃ after, step alone last = .ok () after ∧ after.cpu.regs.al = 7 ∧ after.cpu.regs.sp = 0xBF := by
  let before := pushingSeven 0xBF
    [(Instr.push .immediate).opcode, 8, Instr.pop.opcode, 1, Instr.pop.opcode, 0]
  have full : before.memory.Full := full_beginning (by decide)
  have fetches : Fetches before.cpu.regs before.memory (.push .immediate) := by decide +kernel
  have pushes : Pushes before.cpu.regs before.memory (.push .immediate) 7 :=
    .operand ⟨.immediate, 7, by decide +kernel, rfl⟩
  -- the program is followed step by step, and every state is checked where it is reached
  obtain ⟨start, first, checked⟩ := exists_of_leadsTo alone before
    (fun start => decide (Fetches start.cpu.regs start.memory (.push .immediate)) &&
      leadsTo alone start fun middle =>
        (decide (middle.cpu.regs.sp < 0xBF) && decide (Fetches middle.cpu.regs middle.memory .pop)) &&
        leadsTo alone middle fun last =>
          (decide (last.cpu.regs.sp = 0xBE) && decide (last.cpu.mode = .ready)) &&
          (decide (Fetches last.cpu.regs last.memory .pop) &&
            decide (HasOperand last.cpu.regs last.memory .pop 0 .register 0)))
    (by decide +kernel)
  obtain ⟨push, checked⟩ := Bool.and_eq_true_iff.1 checked
  obtain ⟨middle, second, checked⟩ := exists_of_leadsTo _ _ _ checked
  obtain ⟨inner, checked⟩ := Bool.and_eq_true_iff.1 checked
  obtain ⟨last, third, checked⟩ := exists_of_leadsTo _ _ _ checked
  simp only [Bool.and_eq_true, decide_eq_true_eq] at push inner checked
  obtain ⟨⟨place, ready⟩, pop, operand⟩ := checked
  -- the run in between pushes once and pops once, below the first byte
  have run : RunsBelow alone 0xBF start last := by
    refine .step (.step .start ?_ second inner.1) ?_ third (by omega)
    · exact .of_fetches push nofun
    · exact .of_fetches inner.2 nofun
  obtain ⟨-, kept, popped⟩ := pushed_stays bystander_alone full rfl fetches pushes first run
  exact ⟨before, start, last, rfl, full, rfl, fetches, pushes, first, run, kept,
    popped .pop (.register .al) ready place (by decide) pop (.register ⟨0, operand, rfl⟩)⟩

/-- **Above the stack window** a byte can be pushed, but not popped. -/
theorem exists_pushed_not_popped :
    ∃ before start fault after, before = pushingSeven 0xF0 [Instr.pop.opcode, 0] ∧
        before.memory.Full ∧ before.cpu.mode = .ready ∧
        Fetches before.cpu.regs before.memory (.push .immediate) ∧
        Pushes before.cpu.regs before.memory (.push .immediate) 7 ∧
        step alone before = .ok () start ∧ RunsBelow alone before.cpu.regs.sp start start ∧
        start.cpu.mode = .ready ∧ start.cpu.regs.sp = before.cpu.regs.sp - 1 ∧
        Fetches start.cpu.regs start.memory .pop ∧
        Pops start.cpu.regs start.memory .pop (.register .al) ∧
        step alone start = .error (.fault fault) after ∧ fault.kind = .stackUnderflow := by
  let before := pushingSeven 0xF0 [Instr.pop.opcode, 0]
  have pushes : Pushes before.cpu.regs before.memory (.push .immediate) 7 :=
    .operand ⟨.immediate, 7, by decide +kernel, rfl⟩
  -- the pointer is above the window, so the byte is stored, but it is not given back
  obtain ⟨start, first, checked⟩ := exists_of_leadsTo alone before
    (fun start => (decide (start.cpu.mode = .ready) && decide (start.cpu.regs.sp = 0xEF)) &&
      (decide (Fetches start.cpu.regs start.memory .pop) &&
        decide (HasOperand start.cpu.regs start.memory .pop 0 .register 0)) &&
      faultsWith alone start fun fault _ => fault.kind == .stackUnderflow)
    (by decide +kernel)
  obtain ⟨state, checked⟩ := Bool.and_eq_true_iff.1 checked
  obtain ⟨fault, after, failed, kind⟩ := exists_of_faultsWith _ _ _ checked
  simp only [Bool.and_eq_true, decide_eq_true_eq] at state
  obtain ⟨⟨ready, place⟩, pop, operand⟩ := state
  exact ⟨before, start, fault, after, rfl, full_beginning (by decide), rfl, by decide +kernel, pushes,
    first, .start, ready, place, pop, .register ⟨0, operand, rfl⟩, failed, eq_of_beq kind⟩

end EightBit.Machine
