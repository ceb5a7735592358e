import EightBit.Proofs.Machine.Display

/-!
# The Stack as a Bounded List

Pushing and popping from a new register file is what a list of at most 63 bytes does, the byte pushed
last in front. Both ends of the window are looked at after the access: the push for which there is no room
has stored its byte already, and the pop from the empty stack has read the byte above the window. Neither
leaves the window.

The stack in memory is compared with the list call by call, up to and including the first call that fails.

## Main Definitions

- `StackCall.onBytes`, `StackCall.expected`: the bounded list, and what it answers to a sequence of calls.
- `StackCall.observed`: what a machine answers to the same calls.
- `Machine.HoldsStack`: the machine has these bytes on its stack.

## Main Statements

- `HoldsStack.push`, `HoldsStack.pull`: what one call comes to.
- `observed_agrees`: every sequence of calls is answered as by the bounded list.
-/

namespace EightBit

/-! ## The bounded list -/

/-- A call of the stack from outside. -/
inductive StackCall
  | push (value : Int)
  | pull
  deriving DecidableEq, Repr

namespace StackCall

/-- The number of bytes that there is room for. -/
def capacity : Nat := 63

/-- What a call does to a list of bytes, the one pushed last in front. A push keeps the low byte of its value
and answers nothing, and a pull answers the byte that it takes. -/
def onBytes (bytes : List UInt8) : StackCall → Except Trap (Option UInt8 × List UInt8)
  | .push value =>
    if bytes.length < capacity then .ok (none, UInt8.ofNat (value % 256).toNat :: bytes)
    else .error .stackOverflow
  | .pull =>
    match bytes with
    | [] => .error .stackUnderflow
    | top :: rest => .ok (some top, rest)

/-- The answers of the list, each with the list after the call, up to and including the first trap. -/
def expected : List StackCall → List UInt8 → List (Except Trap (Option UInt8) × List UInt8)
  | [], _ => []
  | call :: rest, bytes =>
    match call.onBytes bytes with
    | .ok (answer, after) => (.ok answer, after) :: expected rest after
    | .error trap => [(.error trap, bytes)]

variable {σ : Type}

/-- What a call does to a machine. -/
def perform (env : Env σ) : StackCall → Action σ (Option UInt8)
  | .push value => do
    Machine.push env value
    return none
  | .pull => do return some (← Machine.pop)

/-- The answers of a machine, each with the machine after the call, up to and including the first
failure. -/
def observed (env : Env σ) :
    List StackCall → Machine σ → List (Except Failure (Option UInt8) × Machine σ)
  | [], _ => []
  | call :: rest, m =>
    match call.perform env m with
    | .ok answer after => (.ok answer, after) :: observed env rest after
    | .error failure after => [(.error failure, after)]

end StackCall

/-- **Observers of stores only look on**: they succeed, and leave processor and memory alone. Apart from that,
they may do anything to the machine. -/
def Env.LooksOn {σ : Type} (env : Env σ) : Prop :=
  ∀ hook address old new cpu memory,
    Machine.Ensures (Machine.Core cpu memory) (env.notify hook (.watch address old new))
      (fun _ => Machine.Core cpu memory) fun _ _ => False

namespace Machine

variable {σ : Type}

/-! ## The stack in memory -/

/-- Outside of the stack window, the memories have the same bytes. -/
def SameOutside (memory now : Memory) : Prop :=
  ∀ address : Int, ¬(stackLimit ≤ address ∧ address ≤ stackTop) →
    now.load address = memory.load address

/-- The bytes are on the stack, from the top of the window down in the order in which they were pushed, and
the stack pointer is below them. -/
structure OnStack (bytes : List UInt8) (m : Machine σ) : Prop where
  pointer : m.cpu.regs.sp = stackTop - bytes.length
  slots : ∀ (index : Nat) (byte : UInt8), bytes.reverse[index]? = some byte →
    m.memory.load (stackTop - index) = .ok byte

/-- The machine has the bytes on its stack, and outside of the stack window still the given memory. -/
structure HoldsStack (memory : Memory) (bytes : List UInt8) (m : Machine σ) : Prop
    extends OnStack bytes m where
  room : bytes.length ≤ StackCall.capacity
  full : m.memory.Full
  outside : SameOutside memory m.memory

/-- **The answers agree**: a byte or a trap of the list is that of the machine, the list is on the stack after
every call that succeeds, and no call changes memory outside of the stack window. -/
structure Agrees (memory : Memory) (seen : Except Failure (Option UInt8) × Machine σ)
    (said : Except Trap (Option UInt8) × List UInt8) : Prop where
  answer : seen.1 = said.1.mapError .trap
  stack : ∀ answer, said.1 = .ok answer → OnStack said.2 seen.2
  outside : SameOutside memory seen.2.memory

theorem SameOutside.write {memory now : Memory} (same : SameOutside memory now) {place : Int}
    (inWindow : stackLimit ≤ place ∧ place ≤ stackTop) (value : UInt8) :
    SameOutside memory (now.write place.toNat value) := by
  intro address outside
  have apart : address ≠ place := by
    rintro rfl
    exact outside inWindow
  rw [Memory.load_write_of_ne (by omega) apart, same address outside]

/-- The slot below the bytes gets the next one, and theirs stay as they are. -/
theorem OnStack.write {bytes : List UInt8} {m now : Machine σ} (holds : OnStack bytes m)
    (full : m.memory.Full) (room : bytes.length ≤ StackCall.capacity) (value : UInt8)
    (pointer : now.cpu.regs.sp = m.cpu.regs.sp - 1)
    (written : now.memory = m.memory.write m.cpu.regs.sp.toNat value) :
    OnStack (value :: bytes) now where
  pointer := by
    rw [pointer, holds.pointer, List.length_cons]
    omega
  slots index byte found := by
    have limits : (stackTop : Int) = 191 ∧ StackCall.capacity = 63 := ⟨rfl, rfl⟩
    have here := holds.pointer
    rw [written]
    rw [List.reverse_cons, List.getElem?_append, List.length_reverse] at found
    split at found
    · next old =>
      rw [Memory.load_write_of_ne (by omega) (by omega), holds.slots index byte found]
    · next new =>
      -- the only slot behind the old ones is the new one
      rw [List.getElem?_singleton] at found
      split at found
      · next only =>
        cases found
        have place : (stackTop : Int) - index = m.cpu.regs.sp := by omega
        have size : m.memory.size = 256 := full.size
        rw [place, Memory.load_write_self full (by omega)]
      · cases found

/-! ## Stores -/

section LooksOn

variable {env : Env σ} (looksOn : env.LooksOn)
include looksOn

/-- A store below the display is seen by observers of its address only, so it changes the byte and nothing
else of processor and memory. -/
theorem store_of_looksOn {address : Int} (value : Int) {m : Machine σ} (full : m.memory.Full)
    (inside : 0 ≤ address ∧ address < displayStart) :
    ∃ after, store env address value m = .ok () after ∧ after.cpu = m.cpu ∧
      after.memory = m.memory.write address.toNat (Bits.toByte value) := by
  have size : m.memory.size = 256 := full.size
  have limits : (displayStart : Int) = 192 := rfl
  obtain ⟨-, -, loaded⟩ | ⟨outside, -⟩ := m.memory.load_cases address
  -- what watchpoints do keeps processor and memory, and below the display nobody else is told
  · generalize m.memory.bytes.getD address.toNat 0 = old at loaded
    have loads : load address m = .ok old m := by rw [load_eq, loaded]; rfl
    have told : Ensures (Core m.cpu (m.memory.write address.toNat (Bits.toByte value)))
        ((m.observers.watching address).forM fun hook =>
          env.notify hook (.watch address old (Bits.toByte value)))
        (fun _ => Core m.cpu (m.memory.write address.toNat (Bits.toByte value))) fun _ _ => False :=
      .forM fun hook => looksOn hook address old (Bits.toByte value) m.cpu _
    have watched := told { m with memory := m.memory.write address.toNat (Bits.toByte value) } ⟨rfl, rfl⟩
    rw [store, bind_of_ok loads]
    change ∃ after, ((m.observers.watching address).forM
        (fun hook => env.notify hook (.watch address old (Bits.toByte value))) >>= fun _ =>
      if displayStart ≤ address ∧ address ≤ displayEnd then
        tellListeners env address (Bits.toByte value)
      else pure ()) { m with memory := m.memory.write address.toNat (Bits.toByte value) } = _ ∧ _
    -- the stores of the stack end where the watchpoints have been told
    split at watched
    · next done after ran =>
      refine ⟨after, ?_, watched.1, watched.2⟩
      rw [bind_of_ok ran, if_neg (by omega)]
      rfl
    · exact watched.elim
  · omega

/-! ## Calls -/

variable {memory : Memory} {bytes : List UInt8} {m : Machine σ} (holds : HoldsStack memory bytes m)
include holds

/-- **A push has room for its byte**, or it fails when it has stored it. -/
theorem HoldsStack.push (value : Int) :
    ∃ after, SameOutside memory after.memory ∧
      if bytes.length < StackCall.capacity then
        Machine.push env value m = .ok () after ∧
          HoldsStack memory (Bits.toByte value :: bytes) after
      else Machine.push env value m = .error (.trap .stackOverflow) after := by
  -- where the stack ends, and where the display begins
  have limits : (stackLimit : Int) = 128 ∧ (stackTop : Int) = 191 ∧ (displayStart : Int) = 192 ∧
    StackCall.capacity = 63 := ⟨rfl, rfl, rfl, rfl⟩
  have here := holds.pointer
  have room := holds.room
  have inside : 0 ≤ m.cpu.regs.sp ∧ m.cpu.regs.sp < displayStart := by omega
  obtain ⟨stored, ran, cpu, written⟩ := store_of_looksOn looksOn value holds.full inside
  let after : Machine σ :=
    -- the byte is stored below the bytes that are there, and the pointer goes down by one
    { stored with cpu := { stored.cpu with regs := { stored.cpu.regs with sp := stored.cpu.regs.sp - 1 } } }
  have outside : SameOutside memory after.memory := by
    show SameOutside memory stored.memory
    rw [written]
    exact holds.outside.write (by omega) _
  have pointer : after.cpu.regs.sp = m.cpu.regs.sp - 1 := by
    show stored.cpu.regs.sp - 1 = _
    rw [cpu]
  refine ⟨after, outside, ?_⟩
  rw [push_eq, bind_of_ok ran]
  change if _ then (ite (after.cpu.regs.sp < stackLimit) _ _ : Action σ Unit) after = _ ∧ _
    else (ite (after.cpu.regs.sp < stackLimit) _ _ : Action σ Unit) after = _
  -- there was room for one byte, or the pointer is below its limit now
  split
  · rw [if_neg (by omega)]
    refine ⟨rfl, holds.toOnStack.write holds.full room _ pointer written, ?_, ?_, outside⟩
    · rw [List.length_cons]
      omega
    · show stored.memory.Full
      rw [written]
      exact holds.full.write _ _
  · rw [if_pos (by omega)]
    rfl

end LooksOn

/-- The stack pointer is one address further up. -/
def raised (m : Machine σ) : Machine σ :=
  { m with cpu := { m.cpu with regs := { m.cpu.regs with sp := m.cpu.regs.sp + 1 } } }

/-- A pop reads the byte above the stack pointer before it looks at the window. -/
theorem pop_of_load {m : Machine σ} {value : UInt8}
    (loaded : m.memory.load (m.cpu.regs.sp + 1) = .ok value) :
    pop m = if stackTop < m.cpu.regs.sp + 1 then .error (.trap .stackUnderflow) (raised m)
      else .ok value (raised m) := by
  have loads : load (m.cpu.regs.sp + 1) (raised m) = .ok value (raised m) := by
    rw [load_eq]
    show answer _ (m.memory.load (m.cpu.regs.sp + 1)) (raised m) = _
    rw [loaded]
    rfl
  rw [pop]
  change (load (m.cpu.regs.sp + 1) >>= _) (raised m) = _
  rw [bind_of_ok loads]
  change (ite (stackTop < m.cpu.regs.sp + 1) _ _ : Action σ UInt8) (raised m) = _
  split <;> rfl

/-- **A pull takes the byte pushed last**, or it fails because there is none. -/
theorem HoldsStack.pull {memory : Memory} {bytes : List UInt8} {m : Machine σ}
    (holds : HoldsStack memory bytes m) :
    ∃ after, SameOutside memory after.memory ∧
      match bytes with
      | [] => pop m = .error (.trap .stackUnderflow) after
      | top :: rest => pop m = .ok top after ∧ HoldsStack memory rest after := by
  have limits : (stackTop : Int) = 191 ∧ StackCall.capacity = 63 := ⟨rfl, rfl⟩
  have here := holds.pointer
  have room := holds.room
  refine ⟨raised m, holds.outside, ?_⟩
  cases bytes with
  | nil =>
    have size : m.memory.size = 256 := holds.full.size
    rw [List.length_nil] at here
    -- the byte above the window is one of the display, so reading it does not fail
    obtain ⟨-, -, loaded⟩ | ⟨outside, -⟩ := m.memory.load_cases (m.cpu.regs.sp + 1)
    · show pop m = _
      rw [pop_of_load loaded, if_pos (by omega)]
    · omega
  | cons top rest =>
    rw [List.length_cons] at here room
    have slot : (stackTop : Int) - rest.length = m.cpu.regs.sp + 1 := by omega
    have loaded := holds.slots rest.length top (by simp)
    rw [slot] at loaded
    show pop m = _ ∧ _
    rw [pop_of_load loaded, if_neg (by omega)]
    refine ⟨rfl, ⟨?_, fun index byte found => ?_⟩, by omega, holds.full, holds.outside⟩
    · show m.cpu.regs.sp + 1 = stackTop - rest.length
      omega
    · refine holds.slots index byte ?_
      have inside : index < rest.reverse.length := (List.getElem?_eq_some_iff.1 found).1
      rw [List.reverse_cons, List.getElem?_append_left inside]
      exact found

/-! ## Sequences of calls -/

/-- A new register file has the empty stack. -/
theorem holdsStack_of_new {m : Machine σ} (new : m.cpu.regs = {}) (full : m.memory.Full) :
    HoldsStack m.memory [] m where
  pointer := by
    rw [new]
    rfl
  slots _ _ found := by cases found
  room := Nat.zero_le _
  full := full
  outside _ _ := rfl

/-- **One call**: the machine does what the list does, and has the list on its stack again. -/
theorem HoldsStack.perform {env : Env σ} (looksOn : env.LooksOn) {memory : Memory}
    {bytes : List UInt8} {m : Machine σ} (holds : HoldsStack memory bytes m) (call : StackCall) :
    ∃ after, SameOutside memory after.memory ∧
      match call.onBytes bytes with
      | .ok (answer, now) => call.perform env m = .ok answer after ∧ HoldsStack memory now after
      | .error trap => call.perform env m = .error (.trap trap) after := by
  -- each call succeeds or traps as the list of bytes says
  cases call with
  | push value =>
    obtain ⟨after, outside, pushed⟩ := holds.push looksOn value
    refine ⟨after, outside, ?_⟩
    rw [StackCall.onBytes, StackCall.perform]
    split at pushed
    · next room =>
      rw [if_pos room, bind_of_ok pushed.1]
      exact ⟨rfl, pushed.2⟩
    · next none =>
      rw [if_neg none, bind_of_error pushed]
  | pull =>
    obtain ⟨after, outside, pulled⟩ := holds.pull
    refine ⟨after, outside, ?_⟩
    rw [StackCall.onBytes.eq_def, StackCall.perform]
    cases bytes with
    | nil => exact bind_of_error pulled
    | cons top rest => exact ⟨bind_of_ok pulled.1, pulled.2⟩

/-- From a machine that holds the list, every sequence of calls is answered as by the list. -/
theorem HoldsStack.agrees {env : Env σ} (looksOn : env.LooksOn) {memory : Memory}
    (calls : List StackCall) {bytes : List UInt8} {m : Machine σ}
    (holds : HoldsStack memory bytes m) :
    List.Forall₂ (Agrees memory) (StackCall.observed env calls m)
      (StackCall.expected calls bytes) := by
  -- machine and list vary: each call starts where the one before left them
  induction calls generalizing bytes m with
  | nil => exact .nil
  | cons call rest ih =>
    obtain ⟨after, outside, done⟩ := holds.perform looksOn call
    rw [StackCall.observed, StackCall.expected]
    split at done
    · next answer now list =>
      obtain ⟨ran, later⟩ := done
      rw [ran]
      simp only
      refine .cons ⟨rfl, fun _ _ => later.toOnStack, outside⟩ (ih later)
    · next trap list =>
      rw [done]
      simp only
      exact .cons ⟨rfl, nofun, outside⟩ .nil

/-- **The stack is a bounded list.** Started with new registers, every sequence of pushes and pulls is
answered like by a list of at most 63 bytes, up to and including the first trap. After every call that
succeeds the bytes of the list are on the stack and the stack pointer is below them, and memory outside of
the stack window never changes. -/
theorem observed_agrees {env : Env σ} (looksOn : env.LooksOn) {m : Machine σ}
    (new : m.cpu.regs = {}) (full : m.memory.Full) (calls : List StackCall) :
    List.Forall₂ (Agrees m.memory) (StackCall.observed env calls m) (StackCall.expected calls []) :=
  (holdsStack_of_new new full).agrees looksOn calls

/-- A new machine with observers at both ends of the stack window. -/
def watchedStack : Machine Nat :=
  { observers := { watchpoints := [(stackTop, 1), (stackLimit, 2)] }, notes := 0 }

/-- Two pushes, one of them of a negative value, and one pull too many. -/
def pullingTooMuch : List StackCall :=
  [.push 300, .push (-1), .pull, .pull, .pull, .push 7]

theorem observed_agrees_of_underflow :
    counting.LooksOn ∧ watchedStack.cpu.regs = {} ∧ watchedStack.memory.Full ∧
      (StackCall.expected pullingTooMuch []).map Prod.fst =
        [.ok none, .ok none, .ok (some 255), .ok (some 44), .error .stackUnderflow] ∧
      List.Forall₂ (Agrees watchedStack.memory) (StackCall.observed counting pullingTooMuch watchedStack)
        (StackCall.expected pullingTooMuch []) := by
  have looksOn : counting.LooksOn := fun _ _ _ _ _ _ => .modify fun _ core => core
  have full : watchedStack.memory.Full := Memory.full_fresh
  exact ⟨looksOn, rfl, full, rfl, observed_agrees looksOn rfl full pullingTooMuch⟩

/-- There is room for 63 bytes. -/
example : (StackCall.expected (.replicate 70 (.push 1)) []).map Prod.fst =
    .replicate 63 (.ok none) ++ [.error .stackOverflow] := by
  decide +kernel

end Machine

end EightBit
