import EightBit.Bits
import EightBit.Fault
import EightBit.Parameters
import EightBit.Text.Basic

/-!
# Devices

What can be attached to the machine, each device as a value with its operations: the bus that knows which
device answers at which port, the keyboard, the traffic lights, the heater, and the display.

## Main Definitions

- `Bus`: the readers and writers of the ports.
- `Key`, `Keyboard`: keys as they are asked for, and the latch for one of them, with its indivisible
  operations `put?`, `take?` and `clear`.
- `Keyboard.abortAgainst`: an abort while keys are being pressed in between.
- `Lights`: the latch of the traffic lights.
- `Heater`: burner, thermometer and marks, with one `tick` after the other.
- `Display`: four rows of sixteen characters.
-/

namespace EightBit

/-! ## Bus

A port may have a reader and a writer; either can be one of the built-in devices or something attached from
outside, known by a number. -/

/-- The number under which something was attached from outside. -/
abbrev Hook := Nat

/-- What answers when a port is read. -/
inductive Reader
  | keyboard
  | heater
  | hook (hook : Hook)
  deriving DecidableEq, Repr

/-- What takes a value that is written to a port. -/
inductive Writer
  | lights
  | heater
  | hook (hook : Hook)
  deriving DecidableEq, Repr

/-- The bindings of the ports, the newest first. -/
structure Bus where
  readers : List (Int × Reader) := []
  writers : List (Int × Writer) := []
  deriving DecidableEq, Repr

namespace Bus

/-- The bus with the standard devices. -/
def standard : Bus where
  readers := [(heaterPort, .heater), (keyboardPort, .keyboard)]
  writers := [(heaterPort, .heater), (lightsPort, .lights)]

/-- What answers when the port is read. -/
def reader? (bus : Bus) (port : Int) : Option Reader :=
  bus.readers.lookup port

/-- What takes a value written to the port. -/
def writer? (bus : Bus) (port : Int) : Option Writer :=
  bus.writers.lookup port

/-- There are 256 ports. -/
def isPort (port : Int) : Bool :=
  0 ≤ port && port ≤ 0xFF

/-- The ports with a reader or a writer, in order. -/
def boundPorts (bus : Bus) : List Nat :=
  (List.range 256).filter fun port =>
    (bus.reader? port).isSome || (bus.writer? port).isSome

end Bus

/-! ## Keyboard

A latch for one key. A key that is pressed while another one waits in the latch is dropped. An abort marker
can take the place of a key: whoever takes it out abandons the read. -/

/-- A key as it is asked for. -/
inductive Key
  /-- By its code. -/
  | code (code : Int)
  /-- By its name, or by the character it types. -/
  | text (text : List Char)
  deriving DecidableEq, Repr

namespace Key

/-- The keys with names, with the codes they produce. -/
def named : List (String × Nat) :=
  [("enter", 0x0D), ("backspace", 0x08), ("tab", 0x09), ("escape", 0x1B)]

/-- The ASCII partner in lower case, if there is one; the Kelvin sign counts as a K. -/
def lowerChar (c : Char) : Char :=
  if c = '\u212a' then 'k' else c.toLower

/-- The keyboard produces printable ASCII and the codes of the named keys. -/
def isValid (code : Int) : Bool :=
  (32 ≤ code && code ≤ 126) || code == 13 || code == 8 || code == 9 || code == 27

/-- The code that a key is asked for by, whether the keyboard has it or not. -/
def requested : Key → Except Refusal Int
  | .code n => .ok n
  | .text name =>
    match named.lookup (String.ofList (name.map lowerChar)) with
    | some n => .ok n
    | none =>
      match name with
      | [c] => .ok c.toNat
      | _ => .error (.unknownKey name)

/-- The code of a key that the keyboard has. -/
def resolve (key : Key) : Except Refusal UInt8 := do
  let code ← key.requested
  if isValid code then return Bits.toByte code else throw (.unsupportedKey code)

end Key

/-! ## The latch -/

/-- What the latch can hold. -/
inductive Latched
  | key (code : UInt8)
  | abort
  deriving DecidableEq, Repr

/-- The keyboard: what its latch holds. -/
structure Keyboard where
  slot : Option Latched := none
  deriving DecidableEq, Repr

namespace Keyboard

/-- Something waits in the latch. -/
def pending (keyboard : Keyboard) : Bool :=
  keyboard.slot.isSome

/-- Puts something into the latch, if it is empty. -/
def put? (keyboard : Keyboard) (item : Latched) : Option Keyboard :=
  match keyboard.slot with
  | none => some ⟨some item⟩
  | some _ => none

/-- Takes out what the latch holds, if it holds anything. -/
def take? (keyboard : Keyboard) : Option (Latched × Keyboard) :=
  keyboard.slot.map fun item => (item, ⟨none⟩)

/-- Drops what the latch holds. -/
def clear (_keyboard : Keyboard) : Keyboard :=
  ⟨none⟩

/-- Offers a key: whether it was taken, and the keyboard afterwards. -/
def press (keyboard : Keyboard) (code : UInt8) : Bool × Keyboard :=
  match keyboard.put? (.key code) with
  | some after => (true, after)
  | none => (false, keyboard)

/-- Leaves the abort marker in the latch. In every round the latch is cleared and then offered the
marker; the keys of `intruders` are pressed one in each round, in between the two. The number of
rounds is returned as well. -/
def abortAgainst (intruders : List UInt8) (keyboard : Keyboard) : Nat × Keyboard :=
  match intruders with
  | [] => (1, ⟨some .abort⟩)
  | code :: rest =>
    let disturbed := (keyboard.clear.press code).2
    match disturbed.put? .abort with
    | some after => (1, after)
    | none =>
      let (rounds, after) := abortAgainst rest disturbed
      (rounds + 1, after)

/-- Leaves the abort marker in the latch, nothing else being pressed. -/
def abort (keyboard : Keyboard) : Keyboard :=
  (keyboard.abortAgainst []).2

end Keyboard

/-! ## Traffic lights

Two signals of three lamps, driven by a latch of one byte. Its two lowest bits have no lamp.

| bit | 7 | 6 | 5 | 4 | 3 | 2 |
|---|---|---|---|---|---|---|
| lamp | left red | left orange | left green | right red | right orange | right green | -/

/-- The latch of the traffic lights. -/
structure Lights where
  state : UInt8 := lightsPowerOn
  deriving DecidableEq, Repr

namespace Lights

/-- The lamps with their bits. -/
def lamps : List (String × UInt8) :=
  [("left_red", 0x80), ("left_orange", 0x40), ("left_green", 0x20), ("right_red", 0x10),
    ("right_orange", 0x08), ("right_green", 0x04)]

/-- The lamp with that bit is lit. -/
def isLit (lights : Lights) (mask : UInt8) : Bool :=
  lights.state &&& mask != 0

/-- Every lamp with whether it is lit. -/
def view (lights : Lights) : List (String × Bool) :=
  lamps.map fun lamp => (lamp.1, lights.isLit lamp.2)

/-- The three lamps of a signal, the red one having the given bit; a dark lamp is a point. -/
def showSide (lights : Lights) (red : UInt8) : List Char :=
  let lamp (c : Char) (mask : UInt8) := if lights.isLit mask then c else '.'
  [lamp 'R' red, ' ', lamp 'O' (red >>> 1), ' ', lamp 'G' (red >>> 2)]

/-- Both signals as one line. -/
def render (lights : Lights) : List Char :=
  "L[".toList ++ lights.showSide 0x80 ++ "] R[".toList ++ lights.showSide 0x10 ++ [']']

end Lights

/-! ## Heater

A burner and a thermometer. The thermometer's level falls by one with every tick while the burner is on and
rises by one otherwise, inside its scale. Two status bits tell whether the marks at 15 and 20 degrees are
reached; each switches only when the level has passed its mark by more than the hysteresis. -/

/-- Burner, thermometer and the two marks. -/
structure Heater where
  level : Int := coldLevel
  burner : Bool := false
  reached15 : Bool := false
  reached20 : Bool := false
  deriving DecidableEq, Repr

namespace Heater

/-- Bit 7 is the burner, bit 1 the mark at 20 degrees, bit 0 the mark at 15 degrees. -/
def status (heater : Heater) : UInt8 :=
  (if heater.burner then 0x80 else 0) + (if heater.reached20 then 2 else 0) +
    (if heater.reached15 then 1 else 0)

/-- Switches the burner. -/
def setBurner (heater : Heater) (on : Bool) : Heater :=
  { heater with burner := on }

/-- A mark's bit for a level; between the two edges it stays as it is. -/
def switch (mark level : Int) (reached : Bool) : Bool :=
  if level < mark - hysteresis then true
  else if mark + hysteresis < level then false
  else reached

/-- The level after a tick. -/
def nextLevel (heater : Heater) : Int :=
  if heater.burner then (if hotLevel < heater.level then heater.level - 1 else heater.level)
  else if heater.level < coldLevel then heater.level + 1 else heater.level

/-- One tick of the thermometer. -/
def tick (heater : Heater) : Heater :=
  { heater with
    level := heater.nextLevel
    reached15 := switch mark15 heater.nextLevel heater.reached15
    reached20 := switch mark20 heater.nextLevel heater.reached20 }

/-- Several ticks. -/
def ticks : Nat → Heater → Heater
  | 0, heater => heater
  | n + 1, heater => ticks n heater.tick

/-- Ticks until the level has reached an end of the scale; the width of the scale bounds them. -/
def settle (heater : Heater) : Heater :=
  ticks (coldLevel - hotLevel).toNat heater

end Heater

/-! ## Display

Four rows of sixteen characters that follow the memory bytes from `0xC0` on. The display keeps what it is
told of; it does not read memory. -/

/-- The characters of the display and the number of times one was set. -/
structure Display where
  cells : List UInt8 := List.replicate (displayRows * displayColumns) displayFill
  updates : Nat := 0
  deriving DecidableEq, Repr

namespace Display

/-- Sets the character for an address; other addresses are ignored. -/
def update (display : Display) (address value : Int) : Display :=
  let index := address - displayStart
  if 0 ≤ index ∧ index < display.cells.length then
    { cells := display.cells.set index.toNat (Bits.toByte value), updates := display.updates + 1 }
  else display

/-- A byte as it is shown: printable ASCII as itself, anything else as a question mark. -/
def shown (b : UInt8) : Char :=
  if 32 ≤ b ∧ b ≤ 126 then Char.ofNat b.toNat else '?'

/-- One row. -/
def row (display : Display) (number : Nat) : List Char :=
  ((display.cells.drop (number * displayColumns)).take displayColumns).map shown

/-- All rows. -/
def rows (display : Display) : List (List Char) :=
  (List.range displayRows).map display.row

/-- The rows as lines. -/
def render (display : Display) : List Char :=
  ['\n'].intercalate display.rows

/-- The rows joined, without the blanks at the end. -/
def text (display : Display) : List Char :=
  Text.trimEnd display.rows.flatten

end Display

end EightBit
