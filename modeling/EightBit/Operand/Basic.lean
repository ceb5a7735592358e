import EightBit.Assembly.Problem
import EightBit.Bits
import EightBit.Instr
import EightBit.Operand.Expression
import EightBit.Registers
import EightBit.Text.Upper
import EightBit.Text.Word

/-!
# Operands

An operand is known from its text alone: nothing that is defined elsewhere in the source changes
what it is. `Operand.classify` tries the notations in a fixed order and reports the first thing
that is wrong with the first notation whose opening matches. A number of more digits than the
limit is reported where its value is asked for.

## Main Definitions

- `Pointer`: the registers that can be named, the stack pointer being one of them.
- `Operand.isName`, `Operand.isLabel`: the text has the form of a label, and names no register.
- `Operand`: a classified operand, by meaning.
- `Operand.code`: the byte that stands for it, while labels still count as zero.
- `Operand.classify`: the operand that a text denotes, or why it denotes none.
-/

namespace EightBit

/-! ## Names

A name is a label or a register. Registers are recognised in any letter case; everything else that
starts with an ASCII letter or a point and goes on with word characters is a label. -/

/-- A register that an operand can name. -/
inductive Pointer
  /-- A general register. -/
  | general (register : Register)
  /-- The stack pointer. -/
  | stack
  deriving DecidableEq, Repr

namespace Pointer

/-- The number of a register in an operand byte. -/
def index : Pointer → Nat
  | .general register => register.index
  | .stack => 4

/-- The name of a register. -/
def name : Pointer → String
  | .general register => register.name
  | .stack => "SP"

/-- Every register that an operand can name. -/
def all : List Pointer :=
  Register.all.map .general ++ [.stack]

/-- The register that a text names, in any letter case. -/
def ofText? (text : List Char) : Option Pointer :=
  all.find? fun pointer => pointer.name.toList == Text.upper text

end Pointer

namespace Operand

/-- The character may start a label. -/
def startsName (c : Char) : Bool :=
  c == '.' || ('A' ≤ c && c ≤ 'Z') || ('a' ≤ c && c ≤ 'z')

/-- The rest of a text of the form of a label: word characters, and perhaps one line feed. -/
def endsName : List Char → Bool
  | [] => true
  | ['\n'] => true
  | c :: rest => Text.isWord c && endsName rest

/-- The text has the form of a label. -/
def isName : List Char → Bool
  | [] => false
  | c :: rest => startsName c && endsName rest

/-- The text is a label: it has the form of one and names no register. -/
def isLabel (text : List Char) : Bool :=
  isName text && (Pointer.ofText? text).isNone

end Operand

/-! ## Operands -/

/-- A classified operand. -/
inductive Operand
  /-- A general register. -/
  | register (register : Register)
  /-- An immediate byte. -/
  | immediate (value : UInt8)
  /-- The memory byte at an address. -/
  | address (value : UInt8)
  /-- The memory byte at a label. -/
  | addressOf (label : List Char)
  /-- The memory byte at a register plus an offset of five bits. -/
  | indirect (base : Pointer) (offset : Int)
  /-- The memory byte at the stack pointer plus an offset of eight bits. -/
  | stackOffset (offset : Int)
  /-- The address of a label. -/
  | label (name : List Char)
  /-- The character codes of a text. -/
  | text (codes : List UInt8)
  deriving DecidableEq, Repr

namespace Operand

/-- The shape of an operand. -/
def shape : Operand → Shape
  | .register _ => .register
  | .immediate _ => .immediate
  | .address _ | .addressOf _ => .address
  | .indirect _ _ => .indirect
  | .stackOffset _ => .stackOffset
  | .label _ => .label
  | .text _ => .text

/-- The label that an operand names. -/
def reference? : Operand → Option (List Char)
  | .addressOf name | .label name => some name
  | _ => none

/-- The byte that stands for an operand; labels and texts have none of their own. A register in
brackets takes three bits, its offset the five above them. -/
def code : Operand → UInt8
  | .register r => UInt8.ofNat r.index
  | .immediate value | .address value => value
  | .indirect base offset => Bits.toByte (base.index + 8 * (offset % 32))
  | .stackOffset offset => Bits.toByte offset
  | .addressOf _ | .label _ | .text _ => 0

/-! ## Classification -/

/-- Rejects an operand, saying what is wrong with it. -/
def reject (problem : Problem) : Except (Rejection Problem) α :=
  .error (.wrong problem)

/-- The value of a number. -/
def number (limit : DigitLimit) (text : List Char) : Except (Rejection Problem) (Option Int) :=
  (Numeral.read limit text).mapError .excess

/-- The value of an expression. -/
def expression (limit : DigitLimit) (text : List Char) :
    Except (Rejection Problem) (Option Int) :=
  (Expression.read limit text).mapError .excess

/-- An immediate byte, which may be written as a signed or as an unsigned number. -/
def immediateOf (source : List Char) (value : Int) : Except (Rejection Problem) Operand :=
  if -128 ≤ value ∧ value ≤ 255 then .ok (.immediate (Bits.toByte value))
  else reject (.valueOutOfRange source)

/-- The offset part of a register in brackets: a sign, and what stands after it. -/
def signedOffset? (text : List Char) : Option (Int × List Char) := do
  let (sign, rest) ← Expression.sign? (Text.trimStart text)
  let digits := Text.trimStart rest
  if digits.isEmpty || digits.any Text.isBlank then none else some (sign, digits)

/-- A register, a sign and something without blanks: the register, the sign and the rest. The
first two characters are compared without regard to case, the long s counting as an S. -/
def registerOffset? : List Char → Option (Pointer × Int × List Char)
  | c :: d :: rest => do
    let pointer ← Pointer.ofText? [c, d]
    let (sign, digits) ← signedOffset? rest
    return (pointer, sign, digits)
  | _ => none

/-- The memory byte at a register plus an offset, as far as the register allows. -/
def offsetFrom (inner : List Char) (pointer : Pointer) (offset : Int) :
    Except (Rejection Problem) Operand :=
  if pointer = .stack then
    if -128 ≤ offset ∧ offset ≤ 127 then .ok (.stackOffset offset)
    else reject (.stackOffsetOutOfRange inner)
  else if -16 ≤ offset ∧ offset ≤ 15 then .ok (.indirect pointer offset)
  else reject (.registerOffsetOutOfRange inner)

/-- The operand in brackets whose text between the brackets is given, without blanks at its
ends. -/
def classifyMemory (limit : DigitLimit) (inner : List Char) :
    Except (Rejection Problem) Operand :=
  match Pointer.ofText? inner with
  | some pointer => .ok (.indirect pointer 0)
  | none =>
    match registerOffset? inner with
    | some (pointer, sign, digits) => do
      match ← number limit digits with
      | none => reject (.invalidOffset inner)
      | some value => offsetFrom inner pointer (sign * value)
    | none => do
      match ← number limit inner with
      | some value =>
        if 0 ≤ value ∧ value ≤ 255 then .ok (.address (Bits.toByte value))
        else reject (.addressOutOfRange inner)
      | none =>
        if isLabel inner then .ok (.addressOf inner) else reject (.invalidMemoryOperand inner)

/-- The text between the first and the last character. -/
def between (text : List Char) : List Char :=
  text.tail.dropLast

/-- The character codes of a text in double quotes. -/
def classifyText (source : List Char) : Except (Rejection Problem) Operand :=
  if source.length < 2 ∨ source.getLast? ≠ some '"' then reject (.unterminatedText source)
  else if (between source).any fun c => 255 < c.toNat then reject (.wideText source)
  else .ok (.text ((between source).map fun c => UInt8.ofNat c.toNat))

/-- A character literal. -/
def classifyCharacter (source : List Char) : Except (Rejection Problem) Operand :=
  match source with
  | [_, c, '\''] =>
    if 255 < c.toNat then reject (.wideCharacter source)
    else .ok (.immediate (UInt8.ofNat c.toNat))
  | _ => reject (.badCharacter source)

/-- A register, a label or a number. -/
def classifyWord (limit : DigitLimit) (source : List Char) : Except (Rejection Problem) Operand :=
  match Pointer.ofText? source with
  | some .stack => reject .bareStackPointer
  | some (.general r) => .ok (.register r)
  | none =>
    if isName source then .ok (.label source)
    else do
      match ← number limit source with
      | some value => immediateOf source value
      | none => reject (.invalidOperand source)

/-- The operand that a text denotes. -/
def classify (limit : DigitLimit) (source : List Char) : Except (Rejection Problem) Operand :=
  match source with
  | [] => reject .missingOperand
  | '[' :: _ =>
    if source.getLast? = some ']' then classifyMemory limit (Text.trim (between source))
    else reject (.missingBracket source)
  | '"' :: _ => classifyText source
  | first :: _ => do
    -- a character literal may be the first term of a sum
    match ← expression limit source with
    | some value => immediateOf source value
    | none => if first = '\'' then classifyCharacter source else classifyWord limit source

end Operand

end EightBit
