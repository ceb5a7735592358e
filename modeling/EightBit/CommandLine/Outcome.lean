import EightBit.Assembly.Listing
import EightBit.CommandLine.Files
import EightBit.CommandLine.Invocation
import EightBit.Disassembly
import EightBit.Machine.Run

/-!
# Outcomes

What a command leads to: an exit status, what it prints, and its journal. The status is 0 after
success or a halt, 1 if a line of a source is wrong, and 2 if anything else goes wrong, which for a
run means that it ends in any other way than by a halt.

## Main Definitions

- `Outcome`: the result of a command.
- `Command.perform`: carries out a command, with the files of the caller.
- `answer`: carries out a command line.
-/

namespace EightBit.CommandLine

/-- The result of a command. -/
structure Outcome where
  status : Nat
  /-- What is printed. -/
  out : List Char := []
  /-- What is printed beside it, as a message. -/
  err : List Char := []
  /-- The records of the work, the oldest first. -/
  journal : List Journal.Record := []
  deriving DecidableEq, Repr

/-- Lines of text, each of them ended. -/
def printed (lines : List (List Char)) : List Char :=
  lines.flatMap fun line => line ++ ['\n']

/-! ## Trouble -/

/-- Why a command cannot be carried out. -/
inductive Trouble
  | file (error : FileError)
  | refused (refusal : Refusal)
  deriving DecidableEq, Repr

/-- The outcome of a command that cannot be carried out. -/
def Trouble.outcome : Trouble → Outcome
  | .refused (.unassembled error) =>
    { status := 1
      err := printed
        [("Assembler error (" ++ error.kind.name ++ "): " ++ error.message).toList] }
  | .refused refusal => { status := 2, err := printed [("Error: " ++ refusal.message).toList] }
  | .file error => { status := 2, err := printed [("Error: " ++ error.message).toList] }

/-! ## Assembling -/

/-- The bytes of some code as one line. -/
def codeLine (code : List UInt8) : List Char :=
  [' '].intercalate (code.map fun b => Numeral.hexByte b.toNat)

/-- What assembling prints. -/
def assembleReport (settings : AssembleSettings) (layout : Layout) : List Char :=
  if settings.listing then printed [layout.listing]
  else if settings.output.isEmpty then printed [codeLine (Program.ofLayout layout).code]
  else []

/-- The note that some code was written to a file. -/
def writtenNote (input output : List Char) (code : List UInt8) : List Char :=
  printed [input ++ (": " ++ toString code.length ++ " bytes -> ").toList ++ output]

/-! ## Running -/

/-- The environment of a machine without observers. -/
def unobserved : Env Unit where
  notify _ _ := pure ()
  answer _ _ := pure 0

/-- The characters up to the first that the keyboard has no key for. -/
def typedKeys (text : List Char) : List Key :=
  (text.map fun c => Key.text [c]).takeWhile fun key => key.resolve.isOk

/-- Assembles a source and runs it. A run that waits for a key when no more are typed is stopped. -/
def runSource (settings : RunSettings) (source : List Char) : Action Unit StopReason := do
  discard (Machine.assemble (some digitLimit) source)
  modify fun m =>
    { m with
      cpu := { m.cpu with tracing := settings.trace }
      operator := { m.operator with feed := typedKeys settings.keys, patience := .wait } }
  let limit := settings.maxSteps.toNat
  match ← Machine.start unobserved limit (some limit) with
  | .done reason => return reason
  | _ =>
    -- nobody is left to press the key that the run waits for
    Machine.stop unobserved limit
    return .stopped

/-- The line about a latched fault, if there is one. -/
def faultLines (m : Machine σ) : List (List Char) :=
  match m.cpu.lastFault with
  | none => []
  | some fault =>
    let line := m.currentLine?.elim "None" toString
    [("Fault:   " ++ fault.message ++ " (line " ++ line ++ ")").toList]

/-- What is printed after a run. -/
def runReport (settings : RunSettings) (reason : StopReason) (m : Machine σ) : List Char :=
  let trace :=
    if settings.trace then [Text.joinLines (m.cpu.trace.toList.map TraceEntry.line)] else []
  let rows := m.display.rows.map fun row => "  |".toList ++ row ++ ['|']
  let dump := if settings.dump then [m.memory.hexdump 0 memorySize] else []
  printed (trace ++ [("Stopped: " ++ reason.name).toList] ++ faultLines m ++ [m.cpu.report] ++
    ["Lights:  ".toList ++ m.devices.lights.render, "Display:".toList] ++ rows ++ dump)

/-! ## Dismissals -/

/-- The outcome of a command line that asks for no work. -/
def Dismissal.outcome (dismissal : Dismissal) : Outcome :=
  match dismissal.ending with
  | .help => { status := 0, out := (help dismissal.command).toList }
  | .version => { status := 0, out := printed [("msim " ++ version).toList] }
  | .misuse cause =>
    let program := dismissal.command.elim "msim" fun name => "msim " ++ name.text
    { status := 2
      err := (usage dismissal.command).toList ++
        printed [(program ++ ": error: " ++ cause.message).toList] }

/-! ## Work with files -/

section Files

variable {m : Type → Type} [Monad m]

/-- Reads a file. -/
def readBytes (files : FileAccess m) (name : List Char) : ExceptT Trouble m (List UInt8) := do
  match ← files.read name with
  | .ok bytes => return bytes
  | .error error => throw (.file error)

/-- Writes a file. -/
def writeBytes (files : FileAccess m) (name : List Char) (bytes : List UInt8) :
    ExceptT Trouble m Unit := do
  match ← files.write name bytes with
  | .ok () => return
  | .error error => throw (.file error)

/-- Reads the text of a source file. -/
def readText (files : FileAccess m) (name : List Char) : ExceptT Trouble m (List Char) := do
  match Machine.sourceText (← readBytes files name) with
  | .ok text => return text
  | .error refusal => throw (.refused refusal)

/-- Assembles a file. -/
def performAssemble (files : FileAccess m) (input : List Char) (settings : AssembleSettings) :
    ExceptT Trouble m Outcome := do
  match Layout.ofSource (some digitLimit) (← readText files input) with
  | .error stopped => throw (.refused (.ofRejection stopped.report))
  | .ok layout =>
    let program := Program.ofLayout layout
    let journal := [Machine.assembledRecord program]
    let out := assembleReport settings layout
    if settings.output.isEmpty then return { status := 0, out, journal }
    else
      writeBytes files settings.output program.code
      let err := writtenNote input settings.output program.code
      return { status := 0, out, err, journal }

/-- Disassembles a file. -/
def performDisassemble (files : FileAccess m) (input : List Char)
    (settings : DisassembleSettings) : ExceptT Trouble m Outcome := do
  let code ← readBytes files input
  match Literal.integerArgument (some digitLimit) settings.start with
  | .ok start => return { status := 0, out := printed [Disassembly.report start code] }
  | .error refusal => throw (.refused refusal)

/-- Assembles a file and runs it. -/
def performRun (files : FileAccess m) (input : List Char) (settings : RunSettings) :
    ExceptT Trouble m Outcome := do
  let source ← readText files input
  match (runSource settings source).run (Machine.simulator ()) with
  | .ok reason machine =>
    return {
      status := if reason = .halt then 0 else 2
      out := runReport settings reason machine
      journal := machine.journal.reverse }
  | .error (.refused refusal) _ => throw (.refused refusal)
  | .error failure _ => throw (.refused (.other failure.name failure.message))

/-- Carries out a command. -/
def Command.perform (files : FileAccess m) (command : Command) : m Outcome := do
  let work := match command with
    | .assemble input settings => performAssemble files input settings
    | .run input settings => performRun files input settings
    | .disassemble input settings => performDisassemble files input settings
  match ← work.run with
  | .ok outcome => return outcome
  | .error trouble => return trouble.outcome

/-- Carries out a command line. -/
def answer (files : FileAccess m) (words : List (List Char)) : m Outcome :=
  match Invocation.ofWords words with
  | .error dismissal => return dismissal.outcome
  | .ok invocation => invocation.command.perform files

end Files

end EightBit.CommandLine
