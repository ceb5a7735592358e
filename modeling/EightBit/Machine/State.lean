import EightBit.Assembly.Program
import EightBit.Device
import EightBit.Journal
import EightBit.Memory
import EightBit.Registers

/-!
# The State of a Machine

A machine is a processor with its memory, its port bus and its devices, together with the control
panel that runs it, the operator who sits at it, and the observers that were attached to it.

## Observers

An observer is known to the machine by a number only. What it does is up to an environment; the
machine has a field of a type `σ` of the environment's choice, in which observers keep what they
remember.

## Main Definitions

- `Processor`, `Devices`, `Observers`, `Operator`, `Control`: the parts.
- `Machine`: the whole.
- `Registers.report`: the registers and flags as one line.
-/

namespace EightBit

/-! ## Processor -/

/-- Whether the processor goes on, has met a halt, or has latched a fault. -/
inductive Mode
  | ready
  | halted
  | faulted
  deriving DecidableEq, Repr

/-- The name of a mode. -/
def Mode.name : Mode → String
  | .ready => "Ready"
  | .halted => "Halted"
  | .faulted => "Faulted"

/-- Every mode. -/
def Mode.all : List Mode :=
  [.ready, .halted, .faulted]

/-- What a trace keeps of an instruction: where it is, what it is, and the registers before it. -/
structure TraceEntry where
  ip : Int
  instr : Instr
  regs : Registers
  deriving DecidableEq, Repr

/-- A line of a trace. -/
def TraceEntry.line (entry : TraceEntry) : List Char :=
  let mnemonic := entry.instr.mnemonic.toList
  Numeral.hexByte entry.ip ++ ": ".toList ++ mnemonic ++
    List.replicate (5 - mnemonic.length) ' ' ++ ' ' :: entry.regs.summary

/-- The processor. -/
structure Processor where
  regs : Registers := {}
  mode : Mode := .ready
  /-- The fault that was latched last. -/
  lastFault : Option Fault := none
  /-- The number of instructions completed. -/
  instructions : Nat := 0
  /-- Whether a trace is kept. -/
  tracing : Bool := false
  trace : Array TraceEntry := #[]
  deriving DecidableEq, Repr

/-- The processor after a reset. Whether it keeps a trace stays as it is. -/
def Processor.reset (cpu : Processor) : Processor :=
  { tracing := cpu.tracing }

/-- Goes on after a halt. -/
def Processor.resume (cpu : Processor) : Processor :=
  if cpu.mode = .halted then { cpu with mode := .ready } else cpu

/-- Registers and flags as one line. -/
def Processor.report (cpu : Processor) : List Char :=
  let flag (name : Char) (on : Bool) := [' ', name, '=', if on then '1' else '0']
  let sr := cpu.regs.sr
  cpu.regs.showValues ++ "  SR=".toList ++ Numeral.binary5 sr ++ [' '] ++
    flag 'Z' (Status.zero sr) ++ flag 'C' (Status.carry sr) ++ flag 'O' (Status.overflow sr) ++
    flag 'S' (Status.sign sr) ++ flag 'F' (cpu.mode = .faulted)

/-! ## Devices, observers, operator -/

/-- The three devices on ports. -/
structure Devices where
  keyboard : Keyboard := {}
  lights : Lights := {}
  heater : Heater := {}
  deriving DecidableEq, Repr

/-- What is told of stores into the display region. -/
inductive Listener
  /-- The machine's own display. -/
  | display
  /-- An observer. -/
  | hook (hook : Hook)
  deriving DecidableEq, Repr

/-- The observers of a machine, each list in order of registration. -/
structure Observers where
  /-- Told of every store to an address. -/
  watchpoints : List (Int × Hook) := []
  /-- Told of every store into the display region. -/
  listeners : List Listener := []
  /-- Told of every value written to a port, after the device has taken it. -/
  writeTaps : List (Int × Hook) := []
  /-- Told when the lights change. -/
  lampTaps : List Hook := []
  deriving DecidableEq, Repr

namespace Observers

/-- The observers of an address. -/
def watching (observers : Observers) (address : Int) : List Hook :=
  (observers.watchpoints.filter (·.1 == address)).map Prod.snd

/-- The observers of a port. -/
def tapping (observers : Observers) (port : Int) : List Hook :=
  (observers.writeTaps.filter (·.1 == port)).map Prod.snd

end Observers

/-- What the operator does when the keyboard is read, nothing is pending and no key is left. -/
inductive Patience
  /-- Aborts the read. -/
  | abort
  /-- Lets it wait. -/
  | wait
  deriving DecidableEq, Repr

/-- What the operator does when step mode has no token. -/
inductive StepPolicy
  | stop
  | resume
  | step
  /-- Lets the loop wait. -/
  | wait
  deriving DecidableEq, Repr

/-- The person at the keyboard and at the control panel. -/
structure Operator where
  /-- The keys to be pressed, each one when a read finds nothing pending. -/
  feed : List Key := []
  patience : Patience := .abort
  policy : StepPolicy := .stop
  deriving DecidableEq, Repr

/-! ## Control panel -/

/-- Why a run ended. -/
inductive StopReason
  | halt
  | fault
  | stopped
  | timeout
  | breakpoint
  | aborted
  deriving DecidableEq, Repr

/-- The name of a reason. -/
def StopReason.name : StopReason → String
  | .halt => "HALT"
  | .fault => "FAULT"
  | .stopped => "STOPPED"
  | .timeout => "TIMEOUT"
  | .breakpoint => "BREAK"
  | .aborted => "ABORTED"

/-- What a run waits for. -/
inductive Wait
  /-- A key, for the input instruction at an address. -/
  | key (ip : Int)
  /-- A step token. -/
  | token
  deriving DecidableEq, Repr

/-- A run that waits: its limit on instructions, those it has done, and what it waits for. -/
structure Suspension where
  limit : Option Nat
  steps : Nat
  wait : Wait
  /-- Whether the run was started to go on by itself, so that its end can be waited for. -/
  detached : Bool
  deriving DecidableEq, Repr

/-- The control panel. -/
structure Control where
  /-- The program that was assembled and loaded last, unless plain code was loaded after it. -/
  program : Option Program := none
  lastReason : Option StopReason := none
  stepMode : Bool := false
  breakpoints : List Int := []
  stopRequested : Bool := false
  /-- The step tokens that were granted and not used. -/
  tokens : Nat := 0
  running : Bool := false
  /-- The run that waits, if one does. -/
  suspension : Option Suspension := none
  deriving DecidableEq, Repr

/-! ## Machine -/

/-- A machine whose observers remember a value of type `σ`. -/
structure Machine (σ : Type) where
  cpu : Processor := {}
  memory : Memory := Memory.fresh memorySize
  bus : Bus := Bus.standard
  devices : Devices := {}
  display : Display := {}
  observers : Observers := {}
  operator : Operator := {}
  control : Control := {}
  /-- The records written so far, the newest first. -/
  journal : List Journal.Record := []
  /-- What the observers remember. -/
  notes : σ

namespace Machine

/-- The source line of the instruction at the instruction pointer, if it is known. -/
def currentLine? (m : Machine σ) : Option Nat :=
  m.control.program.bind fun program => program.lineFor? m.cpu.regs.ip

/-- A machine with its display attached, as a simulation has it. -/
def simulator (notes : σ) : Machine σ :=
  { observers := { listeners := [.display] }
    display := { updates := displayRows * displayColumns }
    notes }

end Machine

end EightBit
