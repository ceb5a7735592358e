import EightBit.Instr
import EightBit.Operand.Basic
import EightBit.Source

/-!
# What a Statement Contributes

Without looking at the rest of the source, a statement can be turned into its effect: it moves the
write cursor, or it puts a list of cells at the cursor. A cell is a finished byte or the name of a
label whose address belongs there.

A data statement is worked off item by item. When one of its items is wrong, the cells of the
items before it are still there.

## Main Definitions

- `Cell`, `Effect`: what a statement does.
- `Effect.ofOrigin`, `Effect.ofData`, `Effect.ofInstr`: the three kinds of statements.
- `Effect.ofStatement`: the effect of any statement.
-/

namespace EightBit

/-- What belongs at one address. -/
inductive Cell
  /-- A finished byte. -/
  | byte (value : UInt8)
  /-- The address of a label. -/
  | reference (label : List Char)
  deriving DecidableEq, Repr

/-- The effect of a statement on the code. -/
inductive Effect
  /-- Moves the write cursor. -/
  | moveTo (address : Nat)
  /-- Writes cells at the cursor, and then perhaps fails. -/
  | emit (cells : List Cell) (failure : Option (Rejection Problem))
  deriving DecidableEq, Repr

/-- The cell of an operand byte. -/
def Operand.cell (operand : Operand) : Cell :=
  match operand.reference? with
  | some name => .reference name
  | none => .byte operand.code

namespace Effect

/-- The effect of a statement that fails at once. -/
def fail (rejection : Rejection Problem) : Effect :=
  .emit [] (some rejection)

/-- The address that `ORG` moves to. A number that is no address is shown in decimal, so it must
not have too many digits to be written either. -/
def origin (limit : DigitLimit) (operand : List Char) : Except (Rejection Problem) Nat := do
  match ← Operand.number limit operand with
  | none => Operand.reject .originNotNumeric
  | some value =>
    if 0 ≤ value ∧ value ≤ 255 then return value.toNat
    (limit.checkWritten value).mapError .excess
    Operand.reject (.originOutOfRange value)

/-- `ORG` takes one number, which is a memory address. -/
def ofOrigin (limit : DigitLimit) : List (List Char) → Effect
  | [operand] =>
    match origin limit operand with
    | .ok address => .moveTo address
    | .error rejection => fail rejection
  | _ => fail (.wrong .originArity)

/-- The cells of one item of `DB`: a byte, a label or the characters of a text. -/
def dataItem (limit : DigitLimit) (source : List Char) :
    Except (Rejection Problem) (List Cell) := do
  match ← Operand.classify limit source with
  | .text codes => return codes.map .byte
  | .immediate value => return [.byte value]
  | .label name => return [.reference name]
  | _ => Operand.reject (.unsupportedData source)

/-- The cells of the items up to the first that is rejected, and why it is. -/
def dataCells (limit : DigitLimit) : List (List Char) → List Cell × Option (Rejection Problem)
  | [] => ([], none)
  | source :: rest =>
    match dataItem limit source with
    | .ok cells => (cells ++ (dataCells limit rest).1, (dataCells limit rest).2)
    | .error rejection => ([], some rejection)

/-- `DB` takes one item or more. -/
def ofData (limit : DigitLimit) (operands : List (List Char)) : Effect :=
  if operands.isEmpty then fail (.wrong .emptyData)
  else .emit (dataCells limit operands).1 (dataCells limit operands).2

/-- The opcode and operand cells of an instruction. -/
def instrCells (limit : DigitLimit) (mnemonic : List Char) (sources : List (List Char)) :
    Except (Rejection Problem) (List Cell) := do
  let name := String.ofList mnemonic
  -- operands of an unknown instruction are not looked at
  if !Instr.mnemonics.contains name then Operand.reject (.unknownMnemonic mnemonic)
  let operands ← sources.mapM (Operand.classify limit)
  match Instr.lookup? name (operands.map Operand.shape) with
  | some instr => return .byte (UInt8.ofNat instr.opcode) :: operands.map Operand.cell
  | none => Operand.reject (.unsupportedOperands mnemonic sources)

/-- An instruction is encoded whole or not at all. -/
def ofInstr (limit : DigitLimit) (mnemonic : List Char) (sources : List (List Char)) : Effect :=
  match instrCells limit mnemonic sources with
  | .ok cells => .emit cells none
  | .error rejection => fail rejection

/-- The effect of a statement. -/
def ofStatement (limit : DigitLimit) (statement : Source.Statement) : Effect :=
  if statement.mnemonic = "ORG".toList then ofOrigin limit statement.operands
  else if statement.mnemonic = "DB".toList then ofData limit statement.operands
  else ofInstr limit statement.mnemonic statement.operands

end Effect

end EightBit
