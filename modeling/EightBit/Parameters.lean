/-!
# Parameters of the Machine

The memory map, the stack window, the port numbers, the scales of the devices, and the limits on
numbers and runs.

| addresses | use |
|---|---|
| `0x00`-`0xBF` | program, data and stack |
| `0x80`-`0xBF` | stack window, growing downwards |
| `0xC0`-`0xFF` | display, four rows of sixteen characters |
-/

namespace EightBit

/-! ## Memory -/

/-- The number of addresses. -/
def memorySize : Nat := 256

/-- The first address that code may not take. -/
def programLimit : Nat := 0xC0

/-- The first address of the display. -/
def displayStart : Nat := 0xC0

/-- The last address of the display. -/
def displayEnd : Nat := 0xFF

/-- What the display holds at first. -/
def displayFill : UInt8 := 0x20

/-- The rows of the display. -/
def displayRows : Nat := 4

/-- The characters of a display row. -/
def displayColumns : Nat := 16

/-! ## Stack -/

/-- The stack pointer of an empty stack. -/
def stackTop : Nat := 0xBF

/-- The lowest stack pointer. -/
def stackLimit : Nat := 0x80

/-! ## Ports -/

/-- Reading this port takes a key from the keyboard. -/
def keyboardPort : Nat := 1

/-- Writing this port sets the traffic lights. -/
def lightsPort : Nat := 2

/-- Reading this port gives the heater's status, writing it switches the burner. -/
def heaterPort : Nat := 3

/-! ## Devices -/

/-- All six lamps are lit at first. -/
def lightsPowerOn : UInt8 := 0b11111100

/-- The cold end of the thermometer's scale; warmer levels are smaller. -/
def coldLevel : Int := 130

/-- The hot end of the scale. -/
def hotLevel : Int := 15

/-- The level of the mark at 15 degrees. -/
def mark15 : Int := 105

/-- The level of the mark at 20 degrees. -/
def mark20 : Int := 81

/-- How far the level has to pass a mark before its bit switches. -/
def hysteresis : Int := 3

/-- Seconds between two ticks of a thermometer that runs by itself. -/
def tickSeconds : String := "0.2"

/-! ## Numbers -/

/-- The most decimal digits of an integer that is read from a text or written into one. -/
def digitLimit : Nat := 4300

/-! ## Runs -/

/-- The limit on instructions of a run for which none is given. -/
def defaultMaxSteps : Nat := 100000

/-- Seconds to sleep between instructions if nothing else is asked for. -/
def defaultDelay : String := "0.0"

/-- The version of the program. -/
def version : String := "1.0.0"

end EightBit
