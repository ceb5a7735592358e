import EightBit.Proofs.Machine.Display
import EightBit.Proofs.Machine.Loading

/-!
# A Reset Restores a New Machine

A reset puts every part of the machine back by itself: the processor, the program region, the display region
byte by byte, the three devices, and the reason of the last run. Put together, this is a new machine, whatever
was done to the old one before. Only the control panel remembers more: breakpoints, step mode and tokens, and
the program. The bytes of the program are gone, but its lines are still known, so a reset machine can name a
line where a new one cannot.

## Main Definitions

- `AsNew`: memory, processor, display, devices and last reason are those of another machine.
- `Use`: what can be done to a simulation, its ports, devices and control panel included.

## Main Statements

- `Memory.foldl_fill`: a memory that was cleared and painted is a new one.
- `exists_reset`: what a reset does to a machine.
- `Enduring.use`: whatever is done keeps what endures.
- `reset_restores`: a reset after any use.
-/

namespace EightBit

/-! ## Painting the display region -/

namespace Memory

theorem size_foldl_write {value : UInt8} (addresses : List Nat) (memory : Memory) :
    (addresses.foldl (fun now address => now.write address value) memory).size = memory.size := by
  induction addresses generalizing memory with
  | nil => rfl
  | cons address rest ih => exact ih (memory.write address value)

theorem getElem?_foldl_write {value : UInt8} (addresses : List Nat) (memory : Memory) (index : Nat) :
    (addresses.foldl (fun now address => now.write address value) memory).bytes[index]? =
      if index ∈ addresses ∧ index < memory.bytes.size then some value else memory.bytes[index]? := by
  induction addresses generalizing memory with
  | nil => simp
  | cons address rest ih =>
    have size : (memory.write address value).bytes.size = memory.bytes.size := by simp [write]
    rw [List.foldl_cons, ih, size]
    by_cases here : address = index
    · subst here
      by_cases inside : address < memory.bytes.size
      · simp [write, inside]
      · simp [write, inside]
    · simp [write, Array.getElem?_setIfInBounds_ne here, Ne.symm here]

/-- Memories that agree outside of the painted addresses agree when these are painted. -/
theorem foldl_write_congr {value : UInt8} {addresses : List Nat} {memory other : Memory}
    (size : memory.size = other.size) (bytes : memory.bytes.size = other.bytes.size)
    (same : ∀ index, index ∉ addresses → memory.bytes[index]? = other.bytes[index]?) :
    addresses.foldl (fun now address => now.write address value) memory =
      addresses.foldl (fun now address => now.write address value) other := by
  rw [mk.injEq]
  refine ⟨?_, Array.ext_getElem? fun index => ?_⟩
  · rw [size_foldl_write, size_foldl_write, size]
  · rw [getElem?_foldl_write, getElem?_foldl_write, bytes]
    by_cases painted : index ∈ addresses
    · by_cases inside : index < other.bytes.size
      · rw [if_pos ⟨painted, inside⟩, if_pos ⟨painted, inside⟩]
      · rw [if_neg fun both => inside both.2, if_neg fun both => inside both.2,
          Array.getElem?_eq_none (Nat.le_of_not_lt inside),
          Array.getElem?_eq_none (bytes ▸ Nat.le_of_not_lt inside)]
    · rw [if_neg fun both => painted both.1, if_neg fun both => painted both.1, same index painted]

/-- The display addresses of a memory that has all of them. -/
theorem mem_displayAddresses {memory : Memory} (size : memory.size = memorySize) {address : Nat} :
    address ∈ memory.displayAddresses ↔ programLimit ≤ address ∧ address < memorySize := by
  rw [displayAddresses, List.mem_range'_1, size]
  simp only [displayStart, displayEnd, programLimit, memorySize]
  omega

/-- **A memory that was cleared and painted is a new one**, whatever was in it. -/
theorem foldl_fill {memory : Memory} (full : memory.Full) :
    (memory.fill []).displayAddresses.foldl (fun now address => now.write address displayFill)
      (memory.fill []) = fresh memorySize := by
  have cleared : (memory.fill []).Full := full.fill (Nat.zero_le _)
  have new : (zeros memorySize).Full := ⟨rfl, Array.size_replicate⟩
  -- both memories have the same display, and it is painted over in both
  have addresses : (zeros memorySize).displayAddresses = (memory.fill []).displayAddresses := by
    rw [displayAddresses, displayAddresses, cleared.size, new.size]
  rw [fresh, addresses]
  refine foldl_write_congr (cleared.size.trans new.size.symm) (cleared.bytes.trans new.bytes.symm)
    -- outside of the display, the one has been cleared and the other is new, so both hold zeros
    fun index outside => ?_
  rw [mem_displayAddresses cleared.size] at outside
  rw [getElem?_fill (Nat.zero_le _) full, zeros, Array.getElem?_replicate]
  split
  · next below =>
    rw [if_pos (Nat.lt_trans below (by decide))]
    rfl
  · next above =>
    have beyond : memorySize ≤ index := by omega
    rw [if_neg (Nat.not_lt.2 beyond), Array.getElem?_eq_none (full.bytes ▸ beyond)]

end Memory

namespace Machine

variable {σ α : Type}

/-! ## What a reset does -/

section Painting

variable {env : Env σ} (faithful : env.Faithful)
include faithful

/-- **Telling the listeners** changes nothing but the display and what observers remember. -/
theorem exists_tellListeners (address : Nat) (value : UInt8) (m : Machine σ) :
    ∃ display notes, tellListeners env address value m = .ok () { m with display, notes } := by
  have tells (listeners : List Listener) (now : Machine σ) : ∃ display notes,
      listeners.forM (tell env address value) now = .ok () { now with display, notes } := by
    -- the listeners are told one after the other, and each of them only records
    induction listeners generalizing now with
    | nil => exact ⟨_, _, rfl⟩
    | cons listener rest ih =>
      obtain ⟨display, notes, told⟩ : ∃ display notes,
          tell env address value listener now = .ok () { now with display, notes } := by
        cases listener with
        | display => exact ⟨_, _, rfl⟩
        | hook hook =>
          obtain ⟨write, acts⟩ := faithful.records hook (.display address value) address value .display
          exact ⟨_, _, acts now⟩
      obtain ⟨display', notes', others⟩ := ih { now with display, notes }
      exact ⟨display', notes', (bind_of_ok told).trans others⟩
  exact tells m.observers.listeners m

/-- **Painting the display region** changes no more than that besides memory. -/
theorem exists_fillDisplay (m : Machine σ) :
    ∃ display notes, fillDisplay env m = .ok () { m with
      memory := m.memory.displayAddresses.foldl (fun now address => now.write address displayFill) m.memory
      display, notes } := by
  -- the addresses are painted one after the other, and each is told of
  have paints (addresses : List Nat) (now : Machine σ) : ∃ display notes,
      (addresses.forM fun (address : Nat) => do
        modify fun m => { m with memory := m.memory.write address displayFill }
        tellListeners env address displayFill : Action σ PUnit) now = .ok () { now with
          memory := addresses.foldl (fun now address => now.write address displayFill) now.memory
          display, notes } := by
    induction addresses generalizing now with
    | nil => exact ⟨_, _, rfl⟩
    | cons address rest ih =>
      obtain ⟨display, notes, told⟩ := exists_tellListeners faithful address displayFill
        { now with memory := now.memory.write address displayFill }
      obtain ⟨display', notes', others⟩ :=
        ih { now with memory := now.memory.write address displayFill, display, notes }
      exact ⟨display', notes', (bind_of_ok told).trans others⟩
  rw [fillDisplay, get_bind]
  exact paints _ m

/-- **A reset of a machine without a run** never fails. -/
theorem exists_reset {m : Machine σ} (full : m.memory.Full) (idle : m.control.running = false) :
    ∃ display notes, reset env m = .ok () { m with
      cpu := m.cpu.reset
      memory := Memory.fresh memorySize
      devices := {}
      control := { m.control with lastReason := none }
      display, notes } := by
  -- memory is cleared first, and the display is painted over what is left
  let cleared : Machine σ := { m with cpu := m.cpu.reset, memory := m.memory.fill [] }
  obtain ⟨display, notes, paints⟩ := exists_fillDisplay faithful cleared
  have painted : cleared.memory.displayAddresses.foldl
      (fun now address => now.write address displayFill) cleared.memory = Memory.fresh memorySize :=
    Memory.foldl_fill full
  rw [painted] at paints
  have resets : resetProcessor m = .ok () { m with cpu := m.cpu.reset } := rfl
  have clears : (modify fun m => { m with memory := m.memory.fill [] } : Action σ Unit)
      { m with cpu := m.cpu.reset } = .ok () cleared := rfl
  rw [reset, bind_of_ok (requestStop_of_idle idle), bind_of_ok resets, resetMemory, bind_assoc,
    bind_of_ok clears, bind_of_ok paints]
  exact ⟨display, notes, rfl⟩

end Painting

/-- **A machine is as new as another one**: what programs, devices and the last run have left in it is the
same. -/
structure AsNew (new m : Machine σ) : Prop where
  memory : m.memory = new.memory
  regs : m.cpu.regs = new.cpu.regs
  mode : m.cpu.mode = new.cpu.mode
  lastFault : m.cpu.lastFault = new.cpu.lastFault
  instructions : m.cpu.instructions = new.cpu.instructions
  trace : m.cpu.trace = new.cpu.trace
  cells : m.display.cells = new.display.cells
  rows : m.display.rows = new.display.rows
  devices : m.devices = new.devices
  lastReason : m.control.lastReason = new.control.lastReason

/-- **A reset machine is as new**, if its display was in step with memory. Its control panel is what it was but
for the reason of the last run. -/
theorem Mirrored.reset {env : Env σ} (faithful : env.Faithful) {m : Machine σ} (mirrored : Mirrored m)
    (idle : m.control.running = false) (notes : σ) :
    ∃ after, reset env m = .ok () after ∧ AsNew (simulator notes) after ∧
      after.control = { m.control with lastReason := none } := by
  obtain ⟨display, remembered, resets⟩ := exists_reset faithful mirrored.full idle
  have kept := (enduring_mirrored faithful).reset.ensures m mirrored
  rw [resets] at kept
  have cells : display.cells = (Memory.fresh memorySize).displayed := kept.cells
  rw [Memory.displayed_fresh] at cells
  refine ⟨_, resets, ?_, rfl⟩
  exact
    { memory := rfl
      regs := rfl
      mode := rfl
      lastFault := rfl
      instructions := rfl
      trace := rfl
      cells := cells
      rows := by
        -- the rows are read off the cells
        show (List.range displayRows).map display.row = _
        have row (number : Nat) : display.row number = (simulator notes).display.row number := by
          rw [Display.row, Display.row, cells]
          rfl
        rw [funext row]
        rfl
      devices := rfl
      lastReason := rfl }

end Machine

/-! ## Use -/

/-- What can be done to a simulation from outside, its ports, devices and control panel included. -/
inductive Use
  | operate (operation : Operation)
  | start (patience : Nat) (limit : Option Nat)
  | settle (patience : Nat)
  | stop (patience : Nat)
  | readPort (port : Int)
  | writePort (port value : Int)
  | press (key : Key)
  /-- Something is done to the devices by hand. -/
  | handle (change : Devices → Devices)
  /-- Registers or mode are set by hand, or a trace is asked for. -/
  | adjust (change : Processor → Processor)
  /-- Something is set on the control panel. -/
  | dial (change : Control → Control)
  /-- Keys are laid ready, or the operator is told what to do. -/
  | instruct (change : Operator → Operator)
  /-- Attaches an observer to a port. -/
  | tap (port : Int) (hook : Hook)
  /-- Attaches an observer to the lights. -/
  | tapLights (hook : Hook)

namespace Use

variable {σ : Type}

/-- What is done. -/
def perform (env : Env σ) : Use → Action σ Unit
  | .operate operation => operation.perform env
  | .start patience limit => discard (Machine.start env patience limit)
  | .settle patience => Machine.settle env patience
  | .stop patience => Machine.stop env patience
  | .readPort port => discard (Machine.readPort env port)
  | .writePort port value => Machine.writePort env port value
  | .press key => discard (Machine.press key)
  | .handle change => Machine.modifyDevices change
  | .adjust change => modify fun m => { m with cpu := change m.cpu }
  | .dial change => Machine.modifyControl change
  | .instruct change => modify fun m => { m with operator := change m.operator }
  | .tap port hook => modify fun m =>
    { m with observers := { m.observers with writeTaps := m.observers.writeTaps ++ [(port, hook)] } }
  | .tapLights hook => modify fun m =>
    { m with observers := { m.observers with lampTaps := m.observers.lampTaps ++ [hook] } }

/-- The machine that is left behind, whether it succeeds or fails. -/
def after (env : Env σ) (m : Machine σ) (use : Use) : Machine σ :=
  match use.perform env m with
  | .ok _ after => after
  | .error _ after => after

end Use

namespace Machine

variable {σ : Type} {env : Env σ}

/-- **Whatever is done keeps what endures**, whether it succeeds or fails. -/
theorem Enduring.use {P : Machine σ → Prop} (enduring : Enduring P env) (use : Use) :
    Keeps P (use.perform env) := by
  have steps := enduring.step
  -- one rule for each use, whichever it is
  cases use with
  | operate operation => exact enduring.operation operation
  | start patience limit => exact (enduring.start steps patience limit).discard
  | settle patience => exact enduring.settle steps patience
  | stop patience => exact enduring.stop steps patience
  | readPort port => exact (enduring.toCentral.readPort enduring.answer port).discard
  | writePort port value => exact enduring.writePort enduring.notify enduring.answer enduring.store port value
  | press key => exact (enduring.toCentral.press key).discard
  | handle change => exact enduring.toCentral.modifyDevices change
  | adjust change => exact enduring.modifyProcessor change
  | dial change => exact enduring.modifyControl change
  | instruct change => exact .modify fun m holds => enduring.keeps m _ _ (change m.operator) _ _ holds
  | tap port hook => exact .modify fun m holds => enduring.attach m _ (List.Subset.refl _) holds
  | tapLights hook => exact .modify fun m holds => enduring.attach m _ (List.Subset.refl _) holds

section Use

variable (faithful : env.Faithful)
include faithful

theorem Mirrored.after_use {m : Machine σ} (mirrored : Mirrored m) (use : Use) :
    Mirrored (use.after env m) := by
  have kept := ((enduring_mirrored faithful).use use).ensures m mirrored
  rw [Use.after]
  cases ran : use.perform env m with
  | ok _ after =>
    rw [ran] at kept
    exact kept
  | error _ after =>
    rw [ran] at kept
    exact kept

theorem Mirrored.foldl_use {m : Machine σ} (mirrored : Mirrored m) (uses : List Use) :
    Mirrored (uses.foldl (Use.after env) m) := by
  induction uses generalizing m with
  | nil => exact mirrored
  | cons use rest ih => exact ih (mirrored.after_use faithful use)

/-- **A reset restores a new machine**, whatever was done to it since it was new, one thing after the other and
whether it succeeded or failed, as long as no run is going on. The program is an exception: its lines are still
known, so a line is named after the reset, if a program is loaded and one of its lines has written the first
byte. -/
theorem reset_restores {notes : σ} {uses : List Use} {m : Machine σ}
    (used : m = uses.foldl (Use.after env) (simulator notes)) (idle : m.control.running = false) :
    ∃ after, reset env m = .ok () after ∧ AsNew (simulator notes) after ∧
      after.control = { m.control with lastReason := none } ∧
      after.currentLine? = m.control.program.bind (·.lineFor? 0) ∧
      (after.currentLine? = (simulator notes).currentLine? ↔
        ∀ program, m.control.program = some program → program.lineFor? 0 = none) := by
  have unused : Unused (simulator notes) := ⟨rfl, rfl, List.mem_singleton_self _⟩
  have mirrored : Mirrored m := used ▸ unused.mirrored.foldl_use faithful uses
  obtain ⟨after, resets, asNew, control⟩ := mirrored.reset faithful idle notes
  have line : after.currentLine? = m.control.program.bind (·.lineFor? 0) := by
    rw [currentLine?, control, asNew.regs]
    rfl
  refine ⟨after, resets, asNew, control, line, ?_⟩
  rw [line]
  exact Option.bind_eq_none_iff

end Use

/-- A program switches the lights, and a letter, a key and the heater are left behind in some state. -/
def handled : List Use :=
  [.operate (.assemble none "OUT 2\nHLT".toList), .operate (.run 0 (some 9)),
    .press (.code 65), .handle fun devices => { devices with heater := devices.heater.tick },
    .operate (.store 0xC1 200), .writePort 3 128]

theorem reset_restores_handled :
    ∃ m after, counting.Faithful ∧ m = handled.foldl (Use.after counting) (simulator 0) ∧
      m.control.running = false ∧ reset counting m = .ok () after ∧ AsNew (simulator 0) after ∧
      after.control = { m.control with lastReason := none } ∧
      after.currentLine? = m.control.program.bind (·.lineFor? 0) ∧
      (after.currentLine? = (simulator 0).currentLine? ↔
        ∀ program, m.control.program = some program → program.lineFor? 0 = none) := by
  have idle : (handled.foldl (Use.after counting) (simulator 0)).control.running = false := by
    decide +kernel
  obtain ⟨after, restored⟩ := reset_restores faithful_counting rfl idle
  exact ⟨_, after, faithful_counting, rfl, idle, restored⟩

/-- A program of one line was loaded, and nothing else was done. -/
def loadedOnly : Machine Unit :=
  [Use.operate (.assemble none "HLT".toList)].foldl (Use.after alone) (simulator ())

/-- The line that is known after a reset, if the reset succeeds. -/
def lineAfterReset? (m : Machine Unit) : Option (Option Nat) :=
  match reset alone m with
  | .ok _ after => some after.currentLine?
  | .error _ _ => none

/-- **A line is known after a reset**, when none is known of a new machine. -/
theorem exists_line_after_reset :
    ∃ after, loadedOnly.control.running = false ∧ reset alone loadedOnly = .ok () after ∧
      after.currentLine? = some 1 ∧ (simulator ()).currentLine? = none := by
  have idle : loadedOnly.control.running = false := by decide +kernel
  have known : lineAfterReset? loadedOnly = some (some 1) := by decide +kernel
  rw [lineAfterReset?] at known
  cases resets : reset alone loadedOnly with
  | ok done after =>
    rw [resets] at known
    exact ⟨after, idle, rfl, Option.some.inj known, rfl⟩
  | error failure after =>
    rw [resets] at known
    cases known

end Machine

end EightBit
