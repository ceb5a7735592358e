import EightBit.Assembly.Effect
import EightBit.Parameters
import EightBit.Text.Basic

/-!
# Laying Out a Program

A layout is the record of a source that is being assembled: where the write cursor is, which
labels are known, and every cell that was written, in order. It is built in two passes. A program is
what remains of a finished layout: its code, the source line of every byte that was written, and the
labels.

## The two passes

1. The lines are worked off in order. A label takes the cursor's address, and a statement has its
   effect.
2. Every cell that names a label is patched with that label's address. A patch is not undone by a
   cell that was written to the same address after the one it belongs to.

Both passes stop at the first line that is rejected and keep what was done before it.

## Main Definitions

- `Layout`: the record.
- `Layout.ofSource`: the layout of a whole source, or why it stopped and the layout up to there.
- `Layout.byteAt`, `Layout.owner?`: what the record says about one address.
- `Program`, `assembleText`: an assembled program, and the program of a source.
-/

namespace EightBit

/-- A cell that was written, where, and by which line. -/
structure Emission where
  address : Nat
  cell : Cell
  line : Nat
  deriving DecidableEq, Repr

/-- The addresses that a line has covered, the last one excluded. -/
structure Segment where
  line : Nat
  start : Nat
  stop : Nat
  deriving DecidableEq, Repr

/-- A source on its way to code. -/
structure Layout where
  /-- The lines of the source. -/
  lines : List Source.Line
  /-- Where the next cell goes. -/
  cursor : Nat := 0
  /-- The labels with their addresses, in order of definition. -/
  symbols : List (List Char × Nat) := []
  /-- The cells written so far, the newest first. -/
  emitted : List Emission := []
  /-- The bytes that replaced references, the newest first. -/
  patches : List (Nat × UInt8) := []
  /-- The extents of the statements that wrote cells, the newest first. -/
  segments : List Segment := []
  deriving DecidableEq, Repr

/-- Why a source is not laid out further, the number of the line that is the reason, and the layout
as it was then. -/
structure Interruption where
  cause : Rejection Problem
  line : Nat
  layout : Layout
  deriving DecidableEq, Repr

namespace Layout

/-! ## What a layout says about an address -/

/-- The byte of a cell before its reference is patched. -/
def placeholder : Cell → UInt8
  | .byte value => value
  | .reference _ => 0

/-- The newest cell at an address. -/
def emission? (layout : Layout) (address : Nat) : Option Emission :=
  layout.emitted.find? (·.address == address)

/-- The line that wrote the byte at an address last. -/
def owner? (layout : Layout) (address : Nat) : Option Nat :=
  (layout.emission? address).map Emission.line

/-- The byte at an address: the newest patch if there is one, else the newest cell, else zero. -/
def byteAt (layout : Layout) (address : Nat) : UInt8 :=
  match layout.patches.lookup address with
  | some value => value
  | none => (layout.emission? address).elim 0 fun emission => placeholder emission.cell

/-- One more than the highest address written. -/
def extent (layout : Layout) : Nat :=
  layout.emitted.foldl (fun bound emission => max bound (emission.address + 1)) 0

/-- The references still to be patched, in the order they were written. -/
def references (layout : Layout) : List (Nat × List Char) :=
  layout.emitted.reverse.filterMap fun emission =>
    match emission.cell with
    | .reference label => some (emission.address, label)
    | .byte _ => none

/-! ## First pass -/

/-- Gives a label the address of the cursor. -/
def define (number : Nat) (name : List Char) (layout : Layout) : Except Interruption Layout :=
  if !Operand.isLabel name then .error ⟨.wrong (.invalidLabel name), number, layout⟩
  else if (layout.symbols.lookup name).isSome then
    .error ⟨.wrong (.duplicateLabel name), number, layout⟩
  else .ok { layout with symbols := layout.symbols ++ [(name, layout.cursor)] }

/-- Writes cells from the cursor on; none goes into the display region. -/
def emit (number : Nat) : List Cell → Layout → Except Interruption Layout
  | [], layout => .ok layout
  | cell :: cells, layout =>
    if layout.cursor < programLimit then
      emit number cells { layout with
        emitted := ⟨layout.cursor, cell, number⟩ :: layout.emitted
        cursor := layout.cursor + 1 }
    else .error ⟨.wrong (.codeTooHigh layout.cursor), number, layout⟩

/-- Carries out the effect of a statement. -/
def perform (number : Nat) (effect : Effect) (layout : Layout) : Except Interruption Layout :=
  match effect with
  | .moveTo address => .ok { layout with cursor := address }
  | .emit cells failure => do
    -- cells that do not fit are reported before whatever is wrong with a later item
    let after ← emit number cells layout
    match failure with
    | some cause => .error ⟨cause, number, after⟩
    | none =>
      return { after with segments := ⟨number, layout.cursor, after.cursor⟩ :: after.segments }

/-- Works off one line: its label first, then its statement. -/
def addLine (limit : DigitLimit) (number : Nat) (line : Source.Line) (layout : Layout) :
    Except Interruption Layout := do
  let labelled ← match line.label with
    | some name => define number name layout
    | none => .ok layout
  match line.statement with
  | some statement => perform number (Effect.ofStatement limit statement) labelled
  | none => return labelled

/-- Works off lines that are numbered from `number` on. -/
def addLines (limit : DigitLimit) (number : Nat) :
    List Source.Line → Layout → Except Interruption Layout
  | [], layout => .ok layout
  | line :: rest, layout => do
    addLines limit (number + 1) rest (← addLine limit number line layout)

/-! ## Second pass -/

/-- Patches references in order. One to an unknown label is a problem of the line that owns the
byte. -/
def patch : List (Nat × List Char) → Layout → Except Interruption Layout
  | [], layout => .ok layout
  | (address, label) :: rest, layout =>
    match layout.symbols.lookup label with
    | some target =>
      patch rest { layout with patches := (address, UInt8.ofNat target) :: layout.patches }
    -- the line that owns the byte need not be the one that has written the reference
    | none => .error ⟨.wrong (.undefinedLabel label), (layout.owner? address).getD 0, layout⟩

/-! ## Both passes -/

/-- The layout before the first line. -/
def start (source : List Char) : Layout :=
  { lines := (Text.splitLines source).map Source.Line.parse }

/-- The layout of a source, or where it stopped. -/
def ofSource (limit : DigitLimit) (source : List Char) : Except Interruption Layout := do
  let laid ← addLines limit 1 (start source).lines (start source)
  patch laid.references laid

end Layout

/-- What a stopped assembly reports: the problem with its line, which is shown without the blanks at
its ends. A number of too many digits is reported without a line. -/
def Interruption.report (stopped : Interruption) : Rejection AssemblyError :=
  stopped.cause.map fun problem =>
    { problem
      line := stopped.line
      text := (stopped.layout.lines[stopped.line - 1]?).elim [] fun line => Text.trim line.raw }

/-! ## Programs -/

/-- An assembled program. -/
structure Program where
  /-- The code, to be loaded at address 0. -/
  code : List UInt8
  /-- Each written address with the line that wrote it, in order of address. -/
  lines : List (Nat × Nat)
  /-- The labels with their addresses, in order of definition. -/
  symbols : List (List Char × Nat)
  deriving DecidableEq, Repr

namespace Program

/-- The program of a finished layout. -/
def ofLayout (layout : Layout) : Program where
  code := (List.range layout.extent).map layout.byteAt
  lines := (List.range layout.extent).filterMap fun address =>
    (layout.owner? address).map fun line => (address, line)
  symbols := layout.symbols

/-- The number of the source line that wrote the byte at an address. -/
def lineFor? (program : Program) (address : Int) : Option Nat :=
  if address < 0 then none else program.lines.lookup address.toNat

end Program

/-- Assembles a source whose numbers have no more digits than the limit. -/
def assembleText (limit : DigitLimit) (source : List Char) :
    Except (Rejection AssemblyError) Program :=
  match Layout.ofSource limit source with
  | .ok layout => .ok (Program.ofLayout layout)
  | .error stopped => .error stopped.report

/-- Assembles a source. -/
def assemble (source : String) : Except (Rejection AssemblyError) Program :=
  assembleText (some digitLimit) source.toList

end EightBit
