import EightBit.Text.Basic

/-!
# Words of a Command Line

A command line is a list of words. Against a table of options every word is read as an option of
the table, as a plain word, as something that looks like an option and is none, or as the double
dash, after which all words are plain.

## Spelling of options

- A long name stands behind two dashes, and may be shortened to any beginning that fits no other
  option of the table. A value can be attached to it with an equals sign.
- A letter stands behind one dash. A value can follow it directly, or after an equals sign.
- A negative number, and any word with a space in it, is plain unless it spells an option.

## Main Definitions

- `OptionEntry`, `Effect`: an option of a table, and what it does to some settings.
- `Word`, `Word.readAll`: the words of a command line as a table reads them.
-/

namespace EightBit.CommandLine

/-! ## Options -/

/-- What is wrong with a command line. -/
inductive Misuse
  /-- A shortened name fits several options. -/
  | ambiguous (word : List Char)
  /-- An option that takes a value has none. -/
  | missingValue (name : String)
  /-- An option that takes no value has one. -/
  | unexpectedValue (name : String)
  /-- The value of an option is not of the right form. -/
  | invalidValue (name : String) (value : List Char)
  /-- There is no such command. -/
  | unknownCommand (name : List Char)
  /-- A word that has to be there is not. -/
  | missingOperand (name : String)
  /-- Words that have no place. -/
  | unrecognized (words : List (List Char))
  deriving DecidableEq, Repr

/-- The wording of a misuse. -/
def Misuse.message : Misuse → String
  | .ambiguous word => "ambiguous option: " ++ String.ofList word
  | .missingValue name => "argument --" ++ name ++ ": expected one argument"
  | .unexpectedValue name => "argument --" ++ name ++ ": takes no value"
  | .invalidValue name value =>
    "argument --" ++ name ++ ": invalid value: '" ++ String.ofList value ++ "'"
  | .unknownCommand name => "no such command: '" ++ String.ofList name ++ "'"
  | .missingOperand name => "the following arguments are required: " ++ name
  | .unrecognized words =>
    "unrecognized arguments: " ++ String.ofList ([' '].intercalate words)

/-- Why a command line asks for no work. -/
inductive Ending
  | misuse (cause : Misuse)
  | help
  | version
  deriving DecidableEq, Repr

/-- What an option does to settings of type `α`. -/
inductive Effect (α : Type)
  /-- The option stands alone. -/
  | flag (apply : α → Except Ending α)
  /-- The option has a value. -/
  | value (apply : List Char → α → Except Ending α)

/-- An option of a table. -/
structure OptionEntry (α : Type) where
  /-- The name behind two dashes. -/
  name : String
  /-- The letter behind one dash, if the option has one. -/
  letter : Option Char
  effect : Effect α

/-! ## Reading one word -/

/-- How a word is read. -/
inductive Word (α : Type)
  | plain (text : List Char)
  /-- An option, as it is spelled, with the value attached to it. -/
  | option (text : List Char) (entry : OptionEntry α) (attached : Option (List Char))
  /-- It looks like an option, but the table has none such. -/
  | unknown (text : List Char)
  | doubleDash

/-- The double dash. -/
def Word.dashes : List Char := ['-', '-']

/-- A word as it was typed. -/
def Word.text : Word α → List Char
  | .plain text | .option text _ _ | .unknown text => text
  | .doubleDash => dashes

/-- What stands before the first equals sign, and what stands after it if there is one. -/
def splitValue (text : List Char) : List Char × Option (List Char) :=
  (text.takeWhile (· != '='), (text.dropWhile (· != '=')).tail?)

/-- One or more digits up to the end, or up to a line feed at the end. -/
def isDigits (text : List Char) : Bool :=
  let rest := text.dropWhile Text.isDigit
  text.head?.any Text.isDigit && (rest == [] || rest == ['\n'])

/-- The word is a minus sign with a whole number, or with a fraction that ends in digits. -/
def looksNegative : List Char → Bool
  | '-' :: body =>
    isDigits body ||
      match body.dropWhile Text.isDigit with
      | '.' :: fraction => isDigits fraction
      | _ => false
  | _ => false

/-- How a word is read that spells no option. -/
def Word.leftover (text : List Char) : Word α :=
  if looksNegative text || text.contains ' ' then .plain text else .unknown text

/-- The options that a name behind two dashes can stand for: the one that has it in full, or else
those whose names begin with it. -/
def candidates (table : List (OptionEntry α)) (name : List Char) : List (OptionEntry α) :=
  match table.find? fun entry => entry.name.toList == name with
  | some entry => [entry]
  | none => table.filter fun entry => name.isPrefixOf entry.name.toList

/-- The value that the characters directly after a letter attach to it. -/
def attachedToLetter : List Char → Option (List Char)
  | [] => none
  | '=' :: value => some value
  | value => some value

/-- Reads a word that is not the double dash. -/
def Word.read (table : List (OptionEntry α)) (text : List Char) : Except Misuse (Word α) :=
  match text with
  | '-' :: '-' :: body =>
    let (name, attached) := splitValue body
    match candidates table name with
    | [] => .ok (.leftover text)
    | [entry] => .ok (.option text entry attached)
    | _ => .error (.ambiguous text)
  | '-' :: letter :: rest =>
    match table.find? fun entry => entry.letter == some letter with
    | some entry => .ok (.option text entry (attachedToLetter rest))
    | none => .ok (.leftover text)
  | _ => .ok (.plain text)

/-! ## Reading all words -/

/-- Reads the words of a command line. -/
def Word.readAll (table : List (OptionEntry α)) :
    List (List Char) → Except Misuse (List (Word α))
  | [] => .ok []
  | ['-', '-'] :: rest => .ok (.doubleDash :: rest.map .plain)
  | text :: rest => do
    let word ← Word.read table text
    return word :: (← Word.readAll table rest)

/-! ## Gathering settings -/

/-- What has been gathered from words: the settings, the operands, and the words that have no
place. -/
structure Gathered (α : Type) where
  settings : α
  operands : List (List Char) := []
  strays : List (List Char) := []

namespace Gathered

/-- One more operand. -/
def addOperand (g : Gathered α) (text : List Char) : Gathered α :=
  { g with operands := g.operands ++ [text] }

/-- One more word that has no place. -/
def addStray (g : Gathered α) (text : List Char) : Gathered α :=
  { g with strays := g.strays ++ [text] }

/-- A double dash, which has its place only before or directly after the first operand. -/
def addDoubleDash (g : Gathered α) (follows : Bool) : Gathered α :=
  if g.operands.length = follows.toNat then g else g.addStray Word.dashes

/-- The effect of an option that takes no value. -/
def flag (g : Gathered α) (name : String) (apply : α → Except Ending α) :
    Option (List Char) → Except Ending (Gathered α)
  | some _ => .error (.misuse (.unexpectedValue name))
  | none => do return { g with settings := ← apply g.settings }

/-- The effect of an option that takes a value. -/
def value (g : Gathered α) (apply : List Char → α → Except Ending α) (text : List Char) :
    Except Ending (Gathered α) := do
  return { g with settings := ← apply text g.settings }

end Gathered

/-- Goes through words in order. An option without an attached value takes the plain word after
it. Options may stand after operands as well as before them. -/
def gather : Gathered α → List (Word α) → Except Ending (Gathered α)
  | g, [] => .ok g
  | g, .option _ ⟨_, _, .value apply⟩ (some text) :: rest => do gather (← g.value apply text) rest
  -- the word after an option counts as its value only if it is plain
  | g, .option _ ⟨_, _, .value apply⟩ none :: .plain text :: rest => do
    gather (← g.value apply text) rest
  | _, .option _ ⟨name, _, .value _⟩ none :: _ => .error (.misuse (.missingValue name))
  | g, .option _ ⟨name, _, .flag apply⟩ attached :: rest => do
    gather (← g.flag name apply attached) rest
  | g, .unknown text :: rest => gather (g.addStray text) rest
  | g, .plain text :: .doubleDash :: rest => gather ((g.addOperand text).addDoubleDash true) rest
  | g, .plain text :: rest => gather (g.addOperand text) rest
  | g, .doubleDash :: rest => gather (g.addDoubleDash false) rest

/-- The words up to the first operand, and the words from it on. The double dash counts as an
operand. -/
def splitOperands : List (Word α) → List (Word α) × List (Word α)
  | .option text ⟨name, letter, .value apply⟩ none :: .plain value :: rest =>
    let (front, operands) := splitOperands rest
    (.option text ⟨name, letter, .value apply⟩ none :: .plain value :: front, operands)
  | .option text entry attached :: rest =>
    let (front, operands) := splitOperands rest
    (.option text entry attached :: front, operands)
  | .unknown text :: rest =>
    let (front, operands) := splitOperands rest
    (.unknown text :: front, operands)
  | operands => ([], operands)

/-- Reads words against a table, and gathers what they say. -/
def gatherAll (table : List (OptionEntry α)) (settings : α) (words : List (List Char)) :
    Except Ending (Gathered α) :=
  match Word.readAll table words with
  | .error cause => .error (.misuse cause)
  | .ok read => gather { settings } read

/-- Reads words against a table, and gathers what those before the first operand say. From the
first operand on, everything is left as operands, whatever the table says of it. -/
def gatherFront (table : List (OptionEntry α)) (settings : α) (words : List (List Char)) :
    Except Ending (Gathered α) :=
  match Word.readAll table words with
  | .error cause => .error (.misuse cause)
  | .ok read => do
    let (front, operands) := splitOperands read
    let g ← gather { settings } front
    return { g with operands := operands.map Word.text }

end EightBit.CommandLine
