import EightBit.CommandLine.Word
import EightBit.Journal
import EightBit.Numeral.Literal
import EightBit.Parameters

/-!
# Invocations

What a command line asks for: one of the three commands with its settings, and where the journal
of the work goes. A command line can also end early, with a request for help or for the version,
or because it is misused.

## Real time

The option `--delay` is a time to sleep between instructions, and `--heater` lets the thermometer
run by the clock. Runs take no time here: both options are accepted, a delay has to be a number,
and neither changes what a run does.

## Main Definitions

- `Command`: a command with its settings.
- `Invocation`: a command, and where its journal goes.
- `Invocation.ofWords`: the invocation that a command line asks for.
- `usage`, `explanation`: the texts that explain the command line, as a whole and for each command.
-/

namespace EightBit.CommandLine

/-! ## Commands -/

/-- The settings of assembling. -/
structure AssembleSettings where
  /-- The file to write; an empty name stands for none. -/
  output : List Char := []
  listing : Bool := false
  deriving DecidableEq, Repr

/-- The settings of running. -/
structure RunSettings where
  maxSteps : Int := defaultMaxSteps
  /-- The characters typed on the keyboard. -/
  keys : List Char := []
  dump : Bool := false
  trace : Bool := false
  deriving DecidableEq, Repr

/-- The settings of disassembling. -/
structure DisassembleSettings where
  /-- The address of the first byte, as it was given. -/
  start : List Char := ['0']
  deriving DecidableEq, Repr

/-- A command on a file, with its settings. -/
inductive Command
  | assemble (input : List Char) (settings : AssembleSettings)
  | run (input : List Char) (settings : RunSettings)
  | disassemble (input : List Char) (settings : DisassembleSettings)
  deriving DecidableEq, Repr

/-- The names of the commands. -/
inductive CommandName
  | asm
  | run
  | dis
  deriving DecidableEq, Repr

/-- Every command name. -/
def CommandName.all : List CommandName :=
  [.asm, .run, .dis]

/-- A command name as it is written. -/
def CommandName.text : CommandName → String
  | .asm => "asm"
  | .run => "run"
  | .dis => "dis"

/-- The command of a name. -/
def CommandName.ofText? (text : List Char) : Option CommandName :=
  all.find? fun name => name.text.toList == text

/-- What concerns every command: from which level on the journal is shown, and the directory of the
file that all of it is written to. -/
structure JournalSettings where
  level : Int := 30
  directory : Option (List Char) := none
  deriving DecidableEq, Repr

/-- The journal that the settings ask for. Its file has a fixed name in the directory. -/
def JournalSettings.setup (settings : JournalSettings) : Journal.Setup where
  consoleLevel := settings.level
  file := settings.directory.map fun name => String.ofList name ++ "/microsim.log"

/-- A command, and where its journal goes. -/
structure Invocation where
  journal : JournalSettings
  command : Command
  deriving DecidableEq, Repr

/-! ## Tables of options -/

/-- The option that asks for help. -/
def helpOption : OptionEntry α :=
  ⟨"help", some 'h', .flag fun _ => .error .help⟩

/-- An option that switches something on. -/
def switch (name : String) (apply : α → α) : OptionEntry α :=
  ⟨name, none, .flag fun settings => .ok (apply settings)⟩

/-- An option whose value is a text. -/
def textOption (name : String) (letter : Option Char) (apply : List Char → α → α) :
    OptionEntry α :=
  ⟨name, letter, .value fun text settings => .ok (apply text settings)⟩

/-- An option whose value has to be read. -/
def readOption (name : String) (read : List Char → Option β) (apply : β → α → α) :
    OptionEntry α :=
  ⟨name, none, .value fun text settings =>
    match read text with
    | some value => .ok (apply value settings)
    | none => .error (.misuse (.invalidValue name text))⟩

/-- The levels that a journal can be shown from. -/
def journalLevel? (text : List Char) : Option Int :=
  ([("DEBUG", 10), ("INFO", 20), ("WARNING", 30), ("ERROR", 40)] : List (String × Int)).lookup
    (String.ofList text)

/-- A number of steps, which is decimal and does not have too many digits. -/
def stepCount? (text : List Char) : Option Int :=
  (Literal.read (some digitLimit) 10 text).toOption.join

/-- The options in front of the command. -/
def globalOptions : List (OptionEntry JournalSettings) :=
  [helpOption,
    ⟨"version", none, .flag fun _ => .error .version⟩,
    readOption "log-level" journalLevel? fun level s => { s with level },
    textOption "log-dir" none fun name s => { s with directory := some name }]

/-- The options of assembling. -/
def assembleOptions : List (OptionEntry AssembleSettings) :=
  [helpOption,
    textOption "output" (some 'o') fun output s => { s with output },
    switch "listing" fun s => { s with listing := true }]

/-- The options of running. -/
def runOptions : List (OptionEntry RunSettings) :=
  [helpOption,
    readOption "max-steps" stepCount? fun maxSteps s => { s with maxSteps },
    readOption "delay" (fun text => if Literal.isReal text then some () else none) fun _ s => s,
    textOption "keys" none fun keys s => { s with keys },
    switch "heater" id,
    switch "dump" fun s => { s with dump := true },
    switch "trace" fun s => { s with trace := true }]

/-- The options of disassembling. -/
def disassembleOptions : List (OptionEntry DisassembleSettings) :=
  [helpOption, textOption "start" none fun start s => { s with start }]

/-! ## Reading a command line -/

/-- The ways for a command line to end early, with the command whose part of it ended. -/
structure Dismissal where
  command : Option CommandName
  ending : Ending
  deriving DecidableEq, Repr

/-- The input and the settings of a command, and the words that have no place. -/
def readCommand (table : List (OptionEntry α)) (settings : α) (words : List (List Char)) :
    Except Ending (List Char × α × List (List Char)) := do
  let g ← gatherAll table settings words
  match g.operands with
  | [] => throw (.misuse (.missingOperand "input"))
  | input :: others => return (input, g.settings, others ++ g.strays)

/-- Reads what follows the name of a command. -/
def Command.ofWords (name : CommandName) (words : List (List Char)) :
    Except Ending (Command × List (List Char)) := do
  match name with
  | .asm =>
    let (input, settings, strays) ← readCommand assembleOptions {} words
    return (.assemble input settings, strays)
  | .run =>
    let (input, settings, strays) ← readCommand runOptions {} words
    return (.run input settings, strays)
  | .dis =>
    let (input, settings, strays) ← readCommand disassembleOptions {} words
    return (.disassemble input settings, strays)

/-- Checks that every word has its place. -/
def allPlaced (strays : List (List Char)) : Except Ending Unit :=
  if strays.isEmpty then .ok () else .error (.misuse (.unrecognized strays))

/-- The name of a command at the front of the operands, and the words that follow it. -/
def splitCommand : List (List Char) → Except Ending (CommandName × List (List Char))
  | [] => .error (.misuse (.missingOperand "command"))
  | text :: rest =>
    match CommandName.ofText? text with
    | some name => .ok (name, rest)
    | none => .error (.misuse (.unknownCommand text))

/-- What a command line asks for. -/
def Invocation.ofWords (words : List (List Char)) : Except Dismissal Invocation := do
  let g ← (gatherFront globalOptions {} words).mapError (Dismissal.mk none)
  let (name, rest) ← (splitCommand g.operands).mapError (Dismissal.mk none)
  let (command, strays) ← (Command.ofWords name rest).mapError (Dismissal.mk (some name))
  (allPlaced (g.strays ++ strays)).mapError (Dismissal.mk none)
  return ⟨g.settings, command⟩

/-! ## Help -/

/-- The shape of a command line. -/
def usage : Option CommandName → String
  | none =>
    "usage: msim [-h] [--version] [--log-level \x7bDEBUG,INFO,WARNING,ERROR\x7d]\n" ++
    "            [--log-dir LOG_DIR]\n" ++
    "            \x7basm,run,dis\x7d ...\n"
  | some .asm => "usage: msim asm [-h] [-o OUTPUT] [--listing] input\n"
  | some .run =>
    "usage: msim run [-h] [--max-steps MAX_STEPS] [--delay DELAY] [--keys KEYS]\n" ++
    "                [--heater] [--dump] [--trace]\n" ++
    "                input\n"
  | some .dis => "usage: msim dis [-h] [--start START] input\n"

/-- What the parts of a command line mean. -/
def explanation : Option CommandName → String
  | none =>
    "MicroSim 8-bit assembler and emulator\n\n" ++
    "positional arguments:\n" ++
    "  \x7basm,run,dis\x7d\n" ++
    "    asm                 Assemble a source file\n" ++
    "    run                 Assemble and execute a source file\n" ++
    "    dis                 Disassemble raw machine code\n\n" ++
    "options:\n" ++
    "  -h, --help            show this help message and exit\n" ++
    "  --version             show program's version number and exit\n" ++
    "  --log-level \x7bDEBUG,INFO,WARNING,ERROR\x7d\n" ++
    "                        Console log level (default: WARNING)\n" ++
    "  --log-dir LOG_DIR     Also write a DEBUG log file into this directory\n"
  | some .asm =>
    "positional arguments:\n" ++
    "  input                 Assembly source file\n\n" ++
    "options:\n" ++
    "  -h, --help            show this help message and exit\n" ++
    "  -o OUTPUT, --output OUTPUT\n" ++
    "                        Write raw machine code here\n" ++
    "  --listing             Print an address / bytes / source listing\n"
  | some .run =>
    "positional arguments:\n" ++
    "  input                 Assembly source file\n\n" ++
    "options:\n" ++
    "  -h, --help            show this help message and exit\n" ++
    "  --max-steps MAX_STEPS\n" ++
    "                        Instruction limit (default 100000)\n" ++
    "  --delay DELAY         Seconds to sleep between instructions\n" ++
    "  --keys KEYS           Characters typed on the keyboard (port 1)\n" ++
    "  --heater              Run the heater thermometer in real time\n" ++
    "  --dump                Print a memory hex dump\n" ++
    "  --trace               Print an instruction trace\n"
  | some .dis =>
    "positional arguments:\n" ++
    "  input          Binary file\n\n" ++
    "options:\n" ++
    "  -h, --help     show this help message and exit\n" ++
    "  --start START  Address of the first byte\n"

/-- The full help. -/
def help (command : Option CommandName) : String :=
  usage command ++ "\n" ++ explanation command

end EightBit.CommandLine
