import EightBit.Text.Basic
import EightBit.Text.Upper

/-!
# Source Lines

One line of assembly source holds, in this order and all of them optional, a label with its colon,
a statement and a comment. A statement is a mnemonic with a list of operands.

A semicolon, comma or bracket only counts where it is not part of a quoted text. One scan marks
every character of a line as open or quoted; comments and operand lists are then cut at open
characters.

## Quotes

- `'c'` is always three characters, whatever `c` is, a quote included.
- Any other quote opens a text that runs to the next quote of the same kind.

## Main Definitions

- `mark`: the characters of a text, each with a flag that tells whether it is open.
- `endsOpen`: the text leaves no quote open.
- `stripComment`: the text before its first open semicolon.
- `splitOperands`: the parts between open commas outside brackets.
- `Statement`, `Line`: the parts of a line.
- `splitLabel`: the label in front of a text, and what follows its colon.
- `Line.parse`: the parts of a line of text. Every text is some line; what is wrong with its parts
  shows when they are used.
-/

namespace EightBit.Source

/-! ## Quoted and open characters -/

/-- A character and whether it stands outside quotes. -/
abbrev Marked := Char × Bool

/-- The character opens or closes a quoted text. -/
def isQuote (c : Char) : Bool :=
  c == '"' || c == '\''

/-- Marks the characters of a text that is read inside the given quote, if any. -/
def markFrom : Option Char → List Char → List Marked
  | _, [] => []
  | some quote, c :: rest => (c, false) :: markFrom (if c = quote then none else some quote) rest
  -- a character literal closes at its third character, so a quote in the middle opens nothing
  | none, '\'' :: c :: '\'' :: rest =>
    ('\'', false) :: (c, false) :: ('\'', false) :: markFrom none rest
  | none, c :: rest =>
    if isQuote c then (c, false) :: markFrom (some c) rest else (c, true) :: markFrom none rest

/-- The quote that is open after a text that is read inside the given quote. -/
def openQuote : Option Char → List Char → Option Char
  | quote, [] => quote
  | some quote, c :: rest => openQuote (if c = quote then none else some quote) rest
  | none, '\'' :: _ :: '\'' :: rest => openQuote none rest
  | none, c :: rest => if isQuote c then openQuote (some c) rest else openQuote none rest

/-- The characters of a text, each with whether it is open. -/
def mark (text : List Char) : List Marked :=
  markFrom none text

/-- The text leaves no quote open. -/
def endsOpen (text : List Char) : Bool :=
  (openQuote none text).isNone

/-- The open characters of a text with their positions. -/
def openChars (text : List Char) : List (Nat × Char) :=
  ((mark text).zipIdx.filter fun item => item.1.2).map fun item => (item.2, item.1.1)

/-- Marking keeps the characters. -/
theorem map_fst_markFrom (quote : Option Char) (text : List Char) :
    (markFrom quote text).map Prod.fst = text := by
  fun_induction markFrom quote text with
  | case1 => rfl
  | case2 _ _ _ ih => simp [ih]
  | case3 _ _ ih => simp [ih]
  | case4 _ _ _ _ ih => simp [ih]
  | case5 _ _ _ _ ih => simp [ih]

/-- Marking keeps the characters of a whole text. -/
theorem map_fst_mark (text : List Char) : (mark text).map Prod.fst = text :=
  map_fst_markFrom none text

/-! ## Comments -/

/-- The character starts a comment. -/
def startsComment (m : Marked) : Bool :=
  m.2 && m.1 == ';'

/-- The text without its comment. -/
def stripComment (text : List Char) : List Char :=
  ((mark text).takeWhile fun m => !startsComment m).map Prod.fst

/-! ## Operand lists -/

/-- Puts a character in front of the first part. -/
def consPart (c : Char) : List (List Char) → List (List Char)
  | [] => [[c]]
  | part :: parts => (c :: part) :: parts

/-- The bracket depth after a character; only open brackets count. -/
def nextDepth (depth : Int) : Marked → Int
  | ('[', true) => depth + 1
  | (']', true) => depth - 1
  | _ => depth

/-- Cuts marked characters at the open commas at depth zero. -/
def splitMarked (depth : Int) : List Marked → List (List Char)
  | [] => [[]]
  | m :: rest =>
    -- a bracket without its partner keeps the depth from zero, so all behind it is one part
    if m = (',', true) ∧ depth = 0 then [] :: splitMarked depth rest
    else consPart m.1 (splitMarked (nextDepth depth m) rest)

/-! ## Parts of a line -/

open Text

/-- A mnemonic in upper case and the texts of its operands. -/
structure Statement where
  mnemonic : List Char
  operands : List (List Char)
  deriving DecidableEq, Repr

/-- A line of source: the text as written and the parts found in it. -/
structure Line where
  raw : List Char
  label : Option (List Char) := none
  statement : Option Statement := none
  deriving DecidableEq, Repr

/-- The operand texts of an operand list. -/
def splitOperands (text : List Char) : List (List Char) :=
  (splitMarked 0 (mark text)).map trim

/-- The character may stand in the word before a label's colon. -/
def isLabelChar (c : Char) : Bool :=
  !isBlank c && c != ':' && c != '"' && c != '\'' && c != ';'

/-- A word, blanks and a colon at the start of a text, with no line feed after them: the word and
what follows the colon. -/
def splitLabel (text : List Char) : Option (List Char × List Char) :=
  let word := text.takeWhile isLabelChar
  match trimStart (text.dropWhile isLabelChar) with
  | ':' :: rest => if word.isEmpty || rest.contains '\n' then none else some (word, rest)
  | _ => none

/-- The statement in a text without label and comment. -/
def Statement.parse (text : List Char) : Option Statement :=
  match firstWord text with
  | ([], _) => none
  | (word, []) => some ⟨upper word, []⟩
  | (word, rest) => some ⟨upper word, splitOperands rest⟩

/-- The parts of a line. -/
def Line.parse (raw : List Char) : Line :=
  -- the comment goes first, since its colons end no label
  let text := trim (stripComment raw)
  match splitLabel text with
  | some (label, rest) => { raw, label := some label, statement := Statement.parse (trim rest) }
  | none => { raw, statement := Statement.parse text }

end EightBit.Source
