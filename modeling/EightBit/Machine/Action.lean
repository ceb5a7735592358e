import EightBit.Machine.State

/-!
# Actions and Environments

An action changes a machine and may end early with a failure; what it did before it failed stays
done. Actions that tell observers of something take the environment as an argument: it says what
every observer does when it is told, and that may be any action on the whole machine.

## Main Definitions

- `Action`: a computation on a machine.
- `Notice`: what an observer is told.
- `Env`: the behaviour of all observers and of all devices attached from outside.
- `load`, `store`, `push`, `pop`: memory and stack.
- `readPort`, `writePort`: ports.
-/

namespace EightBit

/-- A computation on a machine that may fail. -/
abbrev Action (σ α : Type) := EStateM Failure (Machine σ) α

/-- What an observer is told. -/
inductive Notice
  /-- A store to a watched address, with the byte before and after it. -/
  | watch (address : Int) (old new : UInt8)
  /-- A store into the display region. -/
  | display (address : Int) (value : UInt8)
  /-- A value was written to a port. -/
  | out (port : Int) (value : UInt8)
  /-- A value is for the device attached to a port. -/
  | write (port : Int) (value : UInt8)
  /-- The lights have changed. -/
  | lights (old new : UInt8)
  deriving DecidableEq, Repr

/-- What observers and attached devices do. -/
structure Env (σ : Type) where
  /-- What an observer does when it is told something. -/
  notify : Hook → Notice → Action σ Unit
  /-- What an attached device answers when its port is read. -/
  answer : Hook → Int → Action σ Int

namespace Machine

/-- Writes a record into the journal. -/
def record (level : Journal.Level) (part : Journal.Part) (text : String) : Action σ Unit :=
  modify fun m => { m with journal := ⟨level, part, text⟩ :: m.journal }

/-- Ends early with a refusal. -/
def refuse (refusal : Refusal) : Action σ α :=
  throw (.refused refusal)

/-- Ends early if the result is a trap. -/
def orTrap (result : Except Trap α) : Action σ α :=
  match result with
  | .ok a => pure a
  | .error trap => throw (.trap trap)

/-- Changes the registers. -/
def modifyRegs (f : Registers → Registers) : Action σ Unit :=
  modify fun m => { m with cpu := { m.cpu with regs := f m.cpu.regs } }

/-- The registers. -/
def getRegs : Action σ Registers := do
  return (← get).cpu.regs

/-- Changes the devices. -/
def modifyDevices (f : Devices → Devices) : Action σ Unit :=
  modify fun m => { m with devices := f m.devices }

/-- Changes the control panel. -/
def modifyControl (f : Control → Control) : Action σ Unit :=
  modify fun m => { m with control := f m.control }

/-! ## Memory

Stores are watched: first the observers of the address are told, then the listeners of the display
region. Loading a program replaces the program region without telling anybody. -/

/-- Reads a byte. -/
def load (address : Int) : Action σ UInt8 := do
  match (← get).memory.load address with
  | .ok value => return value
  | .error access => throw (.outOfBounds access)

/-- Tells a listener of a byte in the display region. -/
def tell (env : Env σ) (address : Int) (value : UInt8) : Listener → Action σ Unit
  | .display => modify fun m => { m with display := m.display.update address value.toNat }
  | .hook hook => env.notify hook (.display address value)

/-- Tells all listeners of a byte in the display region. -/
def tellListeners (env : Env σ) (address : Int) (value : UInt8) : Action σ Unit := do
  (← get).observers.listeners.forM (tell env address value)

/-- Writes the low byte of a value, and tells whoever watches. -/
def store (env : Env σ) (address value : Int) : Action σ Unit := do
  -- reading the old byte also checks the address
  let old ← load address
  let new := Bits.toByte value
  modify fun m => { m with memory := m.memory.write address.toNat new }
  ((← get).observers.watching address).forM fun hook => env.notify hook (.watch address old new)
  if displayStart ≤ address ∧ address ≤ displayEnd then
    tellListeners env address new

/-- Paints the display region with spaces. -/
def fillDisplay (env : Env σ) : Action σ Unit := do
  (← get).memory.displayAddresses.forM fun (address : Nat) => do
    modify fun m => { m with memory := m.memory.write address displayFill }
    tellListeners env address displayFill

/-- Replaces the program region by code that fits into it. -/
def loadProgram (code : List UInt8) : Action σ Unit := do
  if programLimit < code.length then refuse (.programTooLarge code.length)
  modify fun m => { m with memory := m.memory.fill code }
  record .debug .memory ("Loaded " ++ toString code.length ++ " bytes of machine code")

/-- Clears the program region and paints the display. -/
def resetMemory (env : Env σ) : Action σ Unit := do
  modify fun m => { m with memory := m.memory.fill [] }
  fillDisplay env

/-! ## Stack -/

/-- Pushes the low byte of a value: it is stored, and only then the stack pointer is checked. -/
def push (env : Env σ) (value : Int) : Action σ Unit := do
  store env (← getRegs).sp value
  -- an observer of the store may have moved the stack pointer
  modifyRegs fun regs => { regs with sp := regs.sp - 1 }
  if (← getRegs).sp < stackLimit then throw (.trap .stackOverflow)

/-- Pops a byte: it is read, and only then the stack pointer is checked. -/
def pop : Action σ UInt8 := do
  modifyRegs fun regs => { regs with sp := regs.sp + 1 }
  let value ← load (← getRegs).sp
  if stackTop < (← getRegs).sp then throw (.trap .stackUnderflow)
  return value

/-! ## Keyboard

The keyboard asks the operator for a key when none is pending. -/

/-- Presses a key: whether the latch took it. -/
def press (key : Key) : Action σ Bool := do
  match key.resolve with
  | .error refusal => refuse refusal
  | .ok code =>
    let (taken, keyboard) := (← get).devices.keyboard.press code
    modifyDevices fun devices => { devices with keyboard }
    if !taken then
      record .debug .keyboard
        ("Key " ++ String.ofList (Numeral.hexAddress code.toNat) ++ " dropped, buffer full")
    return taken

/-- Puts the abort marker into the latch. -/
def abortKeyboard : Action σ Unit :=
  modifyDevices fun devices => { devices with keyboard := devices.keyboard.abort }

/-- Aborts reads while a key is pressed in each of the first rounds: the number of rounds it took.
A key that the keyboard does not have is refused in the first round, when the latch is cleared. -/
def abortWhilePressing (key : Key) (times : Nat) : Action σ Nat := do
  match if times = 0 then .ok [] else (List.replicate times ·) <$> key.resolve with
  | .ok intruders =>
    let (rounds, keyboard) := (← get).devices.keyboard.abortAgainst intruders
    modifyDevices fun devices => { devices with keyboard }
    return rounds
  | .error refusal =>
    modifyDevices fun devices => { devices with keyboard := devices.keyboard.clear }
    refuse refusal

/-- Empties the latch. -/
def clearKeyboard : Action σ Unit :=
  modifyDevices fun devices => { devices with keyboard := devices.keyboard.clear }

/-- Takes a key out of the latch; it can be found empty, or with the abort marker in it. -/
def takeKey : Action σ UInt8 := do
  match (← get).devices.keyboard.take? with
  | none => throw .waiting
  | some (item, keyboard) =>
    modifyDevices fun devices => { devices with keyboard }
    match item with
    | .key code => return code
    | .abort => throw .aborted

/-- Reads the keyboard. If nothing is pending, the operator presses the next key or, having none
left, aborts the read or lets it wait. -/
def readKey : Action σ UInt8 := do
  let m ← get
  if !m.devices.keyboard.pending then
    match m.operator.feed with
    | key :: rest =>
      modify fun m => { m with operator := { m.operator with feed := rest } }
      discard (press key)
    | [] => if m.operator.patience = .abort then abortKeyboard
  takeKey

/-! ## Lights

The lights tell their observers of every change. -/

/-- Tells an observer that the lights have changed; it is told the state they have by then. -/
def tellLights (env : Env σ) (old : UInt8) (hook : Hook) : Action σ Unit := do
  env.notify hook (.lights old (← get).devices.lights.state)

/-- Sets the lights to the low byte of a value. Observers are told if that is a change. -/
def updateLights (env : Env σ) (value : Int) : Action σ Unit := do
  let old := (← get).devices.lights.state
  modifyDevices fun devices => { devices with lights := ⟨Bits.toByte value⟩ }
  if old ≠ Bits.toByte value then
    (← get).observers.lampTaps.forM (tellLights env old)

/-! ## Heater -/

/-- Switches the burner. -/
def setBurner (on : Bool) : Action σ Unit := do
  modifyDevices fun devices => { devices with heater := devices.heater.setBurner on }
  record .debug .heater ("Burner " ++ if on then "on" else "off")

/-! ## Ports -/

/-- Reads a port; a port that nothing answers for reads as zero. -/
def readPort (env : Env σ) (port : Int) : Action σ UInt8 := do
  let m ← get
  match m.bus.reader? port with
  | none => return 0
  | some .keyboard => readKey
  | some .heater => return m.devices.heater.status
  | some (.hook hook) => return Bits.toByte (← env.answer hook port)

/-- Hands a byte to what takes it at a port. -/
def deliver (env : Env σ) (port : Int) (value : UInt8) : Option Writer → Action σ Unit
  | some .lights => updateLights env value.toNat
  | some .heater => setBurner (Bits.bit 7 value.toNat)
  | some (.hook hook) => env.notify hook (.write port value)
  | none =>
    record .debug .ports
      ("OUT to unbound port " ++ String.ofList (Numeral.hexAddress port) ++ " ignored")

/-- Writes the low byte of a value to a port. The observers of the port are told at the end. -/
def writePort (env : Env σ) (port value : Int) : Action σ Unit := do
  let byte := Bits.toByte value
  deliver env port byte ((← get).bus.writer? port)
  ((← get).observers.tapping port).forM fun hook => env.notify hook (.out port byte)

end Machine

end EightBit
