import EightBit.Numeral

/-!
# Journal

The parts of the machine report what they do to a journal. A record has a level, the name of the
part that wrote it, and a text. What becomes of the journal is up to the outer program: it may
show the records from some level on, and write all of them to a file.

## Main Definitions

- `Level`, `Record`: a record of the journal.
- `Setup`: where records go, and the records that setting it up leaves.
- `Setup.shown`: the records that the console shows.
-/

namespace EightBit.Journal

/-- The levels of records. -/
inductive Level
  | debug
  | info
  | warning
  deriving DecidableEq, Repr

/-- The name of a level. -/
def Level.name : Level → String
  | .debug => "DEBUG"
  | .info => "INFO"
  | .warning => "WARNING"

/-- The number of a level; graver levels have larger ones. -/
def Level.number : Level → Int
  | .debug => 10
  | .info => 20
  | .warning => 30

/-- The name of a numeric level, or its number if it has no name. -/
def levelName (number : Int) : String :=
  match ([(0, "NOTSET"), (10, "DEBUG"), (20, "INFO"), (30, "WARNING"), (40, "ERROR"),
      (50, "CRITICAL")] : List (Int × String)).lookup number with
  | some name => name
  | none => "Level " ++ String.ofList (Numeral.decimal number)

/-- The parts that write records. -/
inductive Part
  | package
  | assembler
  | simulator
  | processor
  | memory
  | keyboard
  | heater
  | ports
  deriving DecidableEq, Repr

/-- The name of a part in the journal. -/
def Part.name : Part → String
  | .package => "microsim"
  | .assembler => "microsim.assembler"
  | .simulator => "microsim.sim"
  | .processor => "microsim.cpu.core"
  | .memory => "microsim.mem.memory"
  | .keyboard => "microsim.periph.keyboard"
  | .heater => "microsim.periph.heater"
  | .ports => "microsim.periph.ports"

/-- A record. -/
structure Record where
  level : Level
  part : Part
  text : String
  deriving DecidableEq, Repr

/-- A record as a line of a journal file: the level, the part and the text. -/
def Record.line (record : Record) : List Char :=
  let level := record.level.name
  level.toList ++ List.replicate (7 - level.length) ' ' ++ " | ".toList ++
    record.part.name.toList ++ " | ".toList ++ record.text.toList

/-! ## Setting up -/

/-- The level from which on everything is recorded. -/
def everything : Int := 10

/-- Where records go: those of the console level and above to the console, all of them to a file
if there is one. -/
structure Setup where
  consoleLevel : Int := 30
  file : Option String := none
  deriving DecidableEq, Repr

/-- Something that records go to. -/
inductive Outlet
  | console
  | file
  deriving DecidableEq, Repr

/-- The outlets of a journal with the level from which on each takes records. -/
def Setup.outlets (setup : Setup) : List (Outlet × Int) :=
  let console := (Outlet.console, setup.consoleLevel)
  if setup.file.isSome then [(.file, everything), console] else [console]

/-- The records that setting up the journal leaves in it. -/
def Setup.records (setup : Setup) : List Record :=
  let file := match setup.file with
    | some name => [⟨.info, .package, "Log file: " ++ name⟩]
    | none => []
  file ++ [⟨.debug, .package, "Console level: " ++ levelName setup.consoleLevel⟩]

/-- The records that the console shows. -/
def Setup.shown (setup : Setup) (records : List Record) : List Record :=
  records.filter fun record => setup.consoleLevel ≤ record.level.number

end EightBit.Journal
