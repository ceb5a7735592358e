import EightBit.Numeral

/-!
# What Can Be Wrong with a Source

Every mistake that a source can hold is a constructor of `Problem`. Its kind and its wording are
functions of it, and an `AssemblyError` adds the line where it was found.
-/

namespace EightBit

/-- The kinds of problems. -/
inductive ProblemKind
  | malformed
  | duplicateLabel
  | undefinedLabel
  | unsupportedOperand
  | outOfBounds
  deriving DecidableEq, Repr

/-- The name of a kind. -/
def ProblemKind.name : ProblemKind → String
  | .malformed => "SyntaxError"
  | .duplicateLabel => "DuplicateLabel"
  | .undefinedLabel => "UndefinedLabel"
  | .unsupportedOperand => "UnsupportedOperand"
  | .outOfBounds => "AddressOutOfBounds"

/-- What is wrong with a line, with the pieces of text that the message shows. -/
inductive Problem
  /-- An operand is empty. -/
  | missingOperand
  /-- An operand starts with a bracket and does not end with one. -/
  | missingBracket (operand : List Char)
  /-- A text in double quotes does not end with one. -/
  | unterminatedText (operand : List Char)
  /-- A text holds a character above 255. -/
  | wideText (operand : List Char)
  /-- A number or an expression is no byte. -/
  | valueOutOfRange (operand : List Char)
  /-- A character literal is not one character between quotes. -/
  | badCharacter (operand : List Char)
  /-- A character literal holds a character above 255. -/
  | wideCharacter (operand : List Char)
  /-- The stack pointer stands outside brackets. -/
  | bareStackPointer
  /-- An operand has none of the known forms. -/
  | invalidOperand (operand : List Char)
  /-- The offset of a register in brackets is no number. -/
  | invalidOffset (inner : List Char)
  /-- The offset of the stack pointer is no signed byte. -/
  | stackOffsetOutOfRange (inner : List Char)
  /-- The offset of a general register does not fit into five bits. -/
  | registerOffsetOutOfRange (inner : List Char)
  /-- An address in brackets is outside memory. -/
  | addressOutOfRange (inner : List Char)
  /-- The text in brackets has none of the known forms. -/
  | invalidMemoryOperand (inner : List Char)
  /-- The word before a colon is no label. -/
  | invalidLabel (name : List Char)
  /-- A label is defined a second time. -/
  | duplicateLabel (name : List Char)
  /-- `ORG` has not exactly one operand. -/
  | originArity
  /-- The operand of `ORG` is no number. -/
  | originNotNumeric
  /-- The operand of `ORG` is outside memory. -/
  | originOutOfRange (value : Int)
  /-- `DB` has no operand. -/
  | emptyData
  /-- An operand of `DB` is no data. -/
  | unsupportedData (operand : List Char)
  /-- No instruction has the mnemonic. -/
  | unknownMnemonic (mnemonic : List Char)
  /-- No form of the instruction takes these operands. -/
  | unsupportedOperands (mnemonic : List Char) (operands : List (List Char))
  /-- A byte would be written into the display region. -/
  | codeTooHigh (address : Nat)
  /-- A label is used and defined nowhere. -/
  | undefinedLabel (name : List Char)
  deriving DecidableEq, Repr

namespace Problem

/-- The kind of a problem. -/
def kind : Problem → ProblemKind
  | .bareStackPointer | .unsupportedData _ | .unsupportedOperands _ _ => .unsupportedOperand
  | .addressOutOfRange _ | .originOutOfRange _ | .codeTooHigh _ => .outOfBounds
  | .duplicateLabel _ => .duplicateLabel
  | .undefinedLabel _ => .undefinedLabel
  | _ => .malformed

/-- The wording of a problem. -/
def message : Problem → String
  | .missingOperand => "Missing operand"
  | .missingBracket operand => "Missing ']' in '" ++ String.ofList operand ++ "'"
  | .unterminatedText operand => "Unterminated string " ++ String.ofList operand
  | .wideText operand => "Non 8-bit character in " ++ String.ofList operand
  | .valueOutOfRange operand => "Value out of byte range: " ++ String.ofList operand
  | .badCharacter operand =>
    "Character literal must hold exactly one character: " ++ String.ofList operand
  | .wideCharacter operand => "Non 8-bit character " ++ String.ofList operand
  | .bareStackPointer => "SP can only be used inside brackets"
  | .invalidOperand operand => "Invalid operand '" ++ String.ofList operand ++ "'"
  | .invalidOffset inner => "Invalid offset in [" ++ String.ofList inner ++ "]"
  | .stackOffsetOutOfRange inner =>
    "Stack offset out of range (-128..127): [" ++ String.ofList inner ++ "]"
  | .registerOffsetOutOfRange inner =>
    "Register offset out of range (-16..15): [" ++ String.ofList inner ++ "]"
  | .addressOutOfRange inner =>
    "Address out of bounds (0-255): [" ++ String.ofList inner ++ "]"
  | .invalidMemoryOperand inner => "Invalid memory operand [" ++ String.ofList inner ++ "]"
  | .invalidLabel name => "Invalid label '" ++ String.ofList name ++ "'"
  | .duplicateLabel name => "Duplicate label '" ++ String.ofList name ++ "'"
  | .originArity => "ORG takes one address"
  | .originNotNumeric => "ORG requires a numeric address"
  | .originOutOfRange value =>
    "ORG address out of memory bounds (0-255): " ++ String.ofList (Numeral.decimal value)
  | .emptyData => "DB requires a value"
  | .unsupportedData operand => "DB does not support operand '" ++ String.ofList operand ++ "'"
  | .unknownMnemonic mnemonic => "Unknown mnemonic '" ++ String.ofList mnemonic ++ "'"
  | .unsupportedOperands mnemonic operands =>
    let shown :=
      if operands.isEmpty then "no operands".toList else [',', ' '].intercalate operands
    String.ofList mnemonic ++ " does not support operands: " ++ String.ofList shown
  | .codeTooHigh address =>
    "Code does not fit below 0xc0 (write at " ++ String.ofList (Numeral.hexAddress address) ++ ")"
  | .undefinedLabel name => "Undefined label '" ++ String.ofList name ++ "'"

end Problem

/-- A problem, the number of the line that has it, and that line without the blanks at its ends.
Line 0 stands for a text that belongs to no line. -/
structure AssemblyError where
  problem : Problem
  line : Int
  text : List Char
  deriving DecidableEq, Repr

namespace AssemblyError

/-- The kind of the problem. -/
def kind (e : AssemblyError) : ProblemKind :=
  e.problem.kind

/-- The wording of the problem, with the line number in front. -/
def message (e : AssemblyError) : String :=
  if e.line = 0 then e.problem.message
  else "Line " ++ String.ofList (Numeral.decimal e.line) ++ ": " ++ e.problem.message

end AssemblyError

end EightBit
