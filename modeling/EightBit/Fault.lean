import EightBit.Assembly.Problem
import EightBit.Numeral
import EightBit.Text.Quoted
import EightBit.Text.Utf8

/-!
# Traps, Refusals and Faults

An action of the machine can end early for several reasons, which are kept apart because they are
treated apart.

- A *trap* is found by an instruction itself: it cannot complete.
- An access outside memory is found by memory.
- A *refusal* comes from a device, an observer or a control that does not do what it is asked.
- A keyboard read can be aborted, and it can wait for a key that has not come yet.
- A *fault* is what the processor makes of the first three while it executes an instruction. It is
  latched until the next reset.

## Main Definitions

- `Trap`, `Refusal`, `Fault`: the causes, each with its wording.
- `Failure`: how an action ends early.
-/

namespace EightBit

/-- The kinds of faults. -/
inductive FaultKind
  | invalidOpcode
  | divisionByZero
  | stackOverflow
  | stackUnderflow
  | pointerOutOfBounds
  | addressOutOfBounds
  | invalidRegister
  | faultFlag
  | deviceError
  deriving DecidableEq, Repr

/-- The name of a kind. -/
def FaultKind.name : FaultKind → String
  | .invalidOpcode => "InvalidOpcode"
  | .divisionByZero => "DivisionByZero"
  | .stackOverflow => "StackOverflow"
  | .stackUnderflow => "StackUnderflow"
  | .pointerOutOfBounds => "InstructionPointerOutOfBounds"
  | .addressOutOfBounds => "AddressOutOfBounds"
  | .invalidRegister => "InvalidRegister"
  | .faultFlag => "FaultFlag"
  | .deviceError => "DeviceError"

/-! ## Traps -/

/-- Why an instruction cannot complete. -/
inductive Trap
  /-- The byte is no opcode. -/
  | invalidOpcode (opcode : Nat)
  /-- The divisor is zero. -/
  | divisionByZero
  /-- A push left the stack window. -/
  | stackOverflow
  /-- A pop left the stack window. -/
  | stackUnderflow
  /-- The instruction pointer is at no address. -/
  | pointerOutOfBounds (pointer : Int)
  /-- The number is that of no general register. -/
  | invalidRegister (index : Int)
  deriving DecidableEq, Repr

/-- The kind of fault that a trap becomes. -/
def Trap.kind : Trap → FaultKind
  | .invalidOpcode _ => .invalidOpcode
  | .divisionByZero => .divisionByZero
  | .stackOverflow => .stackOverflow
  | .stackUnderflow => .stackUnderflow
  | .pointerOutOfBounds _ => .pointerOutOfBounds
  | .invalidRegister _ => .invalidRegister

/-- The wording of a trap. -/
def Trap.message : Trap → String
  | .invalidOpcode opcode => "Invalid opcode " ++ toString opcode
  | .divisionByZero => "Division by zero"
  | .stackOverflow => "Stack overflow"
  | .stackUnderflow => "Stack underflow"
  | .pointerOutOfBounds pointer =>
    "Instruction pointer out of bounds: " ++ String.ofList (Numeral.decimal pointer)
  | .invalidRegister index =>
    "Invalid register index " ++ String.ofList (Numeral.decimal index)

/-! ## Accesses outside memory -/

/-- An address that memory does not have. -/
structure OutOfBounds where
  address : Int
  size : Nat
  deriving DecidableEq, Repr

/-- The wording names the address and the last valid one. -/
def OutOfBounds.message (e : OutOfBounds) : String :=
  "Address out of bounds: " ++ String.ofList (Numeral.decimal e.address) ++ " (valid 0.." ++
    String.ofList (Numeral.decimal ((e.size : Int) - 1)) ++ ")"

/-! ## Refusals -/

/-- Why a device, an observer or a control does not do what it is asked. -/
inductive Refusal
  /-- The text is the name of no key. -/
  | unknownKey (name : List Char)
  /-- The keyboard has no key with that code. -/
  | unsupportedKey (code : Int)
  /-- The code does not fit below the display. -/
  | programTooLarge (size : Nat)
  /-- There is no port with that number. -/
  | portOutOfRange (port : Int)
  /-- A memory has no negative size. -/
  | negativeSize
  /-- The size of a memory does not fit into 64 bits. -/
  | wideSize
  /-- A shift has no negative count. -/
  | negativeShift
  /-- The text is no integer literal of the base. -/
  | invalidLiteral (base : Nat) (text : List Char)
  /-- The simulation is running already. -/
  | alreadyRunning
  /-- The source does not assemble. -/
  | unassembled (error : AssemblyError)
  /-- An integer has too many digits. -/
  | excess (excess : Excess)
  /-- The file is not UTF-8. -/
  | undecodable (error : Text.Utf8Error)
  /-- Anything else, by the name of its kind and its wording. -/
  | other (name text : String)
  deriving DecidableEq, Repr

/-- The name of the kind of a refusal. -/
def Refusal.name : Refusal → String
  | .wideSize => "OverflowError"
  | .alreadyRunning => "RuntimeError"
  | .unassembled _ => "AssemblyError"
  | .undecodable _ => "UnicodeDecodeError"
  | .other name _ => name
  | _ => "ValueError"

/-- The wording of a refusal. A literal is shown in quotes, of which at most two hundred characters
are printed. -/
def Refusal.message : Refusal → String
  | .unknownKey name => "Unknown key: " ++ String.ofList (Text.quoted name)
  | .unsupportedKey code =>
    "Key code not supported: " ++ String.ofList (Numeral.hexAddress code)
  | .programTooLarge size => "Program too large: " ++ toString size ++ " bytes (max 192)"
  | .portOutOfRange port => "Port out of range: " ++ String.ofList (Numeral.decimal port)
  | .negativeSize => "negative count"
  | .wideSize => "cannot fit 'int' into an index-sized integer"
  | .negativeShift => "negative shift count"
  | .invalidLiteral base text =>
    "invalid literal for int() with base " ++ toString base ++ ": " ++
      String.ofList ((Text.quoted text).take 200)
  | .alreadyRunning => "Simulator is already running"
  | .unassembled error => error.message
  | .excess e => e.message
  | .undecodable error => error.message
  | .other _ text => text

/-- The refusal of a source that is rejected. -/
def Refusal.ofRejection : Rejection AssemblyError → Refusal
  | .wrong error => .unassembled error
  | .excess e => .excess e

/-! ## Faults -/

/-- What made the processor stop. -/
inductive FaultReason
  /-- The instruction trapped. -/
  | trap (trap : Trap)
  /-- The instruction touched an address outside memory. -/
  | outOfBounds (access : OutOfBounds)
  /-- A device or an observer failed, with the name of the kind of failure and its wording. -/
  | device (name text : String)
  /-- A status byte with the fault flag was restored. -/
  | flagRestored
  /-- The processor was put into the faulted state from outside. -/
  | alreadyFaulted
  deriving DecidableEq, Repr

/-- A latched fault, with the address of the instruction that caused it. -/
structure Fault where
  reason : FaultReason
  ip : Int
  deriving DecidableEq, Repr

namespace Fault

/-- The kind of a fault. -/
def kind (fault : Fault) : FaultKind :=
  match fault.reason with
  | .trap trap => trap.kind
  | .outOfBounds _ => .addressOutOfBounds
  | .device _ _ => .deviceError
  | .flagRestored | .alreadyFaulted => .faultFlag

/-- The wording of a fault's reason. -/
def text (fault : Fault) : String :=
  match fault.reason with
  | .trap trap => trap.message
  | .outOfBounds access => access.message
  | .device name text => name ++ ": " ++ text
  | .flagRestored => "Fault flag set"
  | .alreadyFaulted => "CPU is faulted"

/-- The wording of a fault: its kind, its reason and its place. -/
def message (fault : Fault) : String :=
  fault.kind.name ++ ": " ++ fault.text ++ " at IP=" ++
    String.ofList (Numeral.hexAddress fault.ip)

/-- The name of the kind of failure that the fault was made from, if there was one. -/
def cause? (fault : Fault) : Option String :=
  match fault.reason with
  | .trap _ => some "Trap"
  | .outOfBounds _ => some "MemoryBoundsError"
  | .device name _ => some name
  | .flagRestored | .alreadyFaulted => none

end Fault

/-! ## Failures -/

/-- How an action ends early. -/
inductive Failure
  | trap (trap : Trap)
  | outOfBounds (access : OutOfBounds)
  | refused (refusal : Refusal)
  /-- A keyboard read was abandoned. -/
  | aborted
  /-- A keyboard read waits for a key. -/
  | waiting
  | fault (fault : Fault)
  deriving DecidableEq, Repr

/-- The name of the kind of a failure. -/
def Failure.name : Failure → String
  | .trap _ => "Trap"
  | .outOfBounds _ => "MemoryBoundsError"
  | .refused refusal => refusal.name
  | .aborted => "InputAborted"
  | .waiting => "Waiting"
  | .fault _ => "CPUFault"

/-- The wording of a failure. -/
def Failure.message : Failure → String
  | .trap t => t.message
  | .outOfBounds access => access.message
  | .refused refusal => refusal.message
  | .aborted => "Keyboard read aborted"
  | .waiting => "Waiting for a key"
  | .fault f => f.message

end EightBit
