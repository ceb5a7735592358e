import EightBit.Fault
import EightBit.Numeral

/-!
# Integer Literals

The integers that a command line takes. They are freer than the numerals of assembly source: a
plus sign may stand in front, single underscores may stand between digits, and the digits and
blanks of other scripts count as well.

## Main Definitions

- `Literal.integer?`: the value of a literal in base 10 or 16.
- `Literal.read`: the same, with a limit on decimal digits.
- `Literal.integerArgument`: a decimal literal, or a hexadecimal one with `0x` in front.
- `Literal.isReal`: the text is a decimal fraction, or the name of an infinity or of no number.
-/

namespace EightBit.Literal

open Text

/-- The blanks of ASCII: tab, line feed, vertical tab, form feed, carriage return and space. -/
def isAsciiBlank (c : Char) : Bool :=
  c == ' ' || ('\t' ≤ c && c ≤ '\r')

/-- Beyond ASCII, a blank counts as a space and a decimal digit as the ASCII one; other characters
stand for themselves. -/
def simplify (c : Char) : Char :=
  if c.toNat < 127 then c
  else if isBlank c then ' '
  else match digitValue? c with
    | some digit => Char.ofNat ('0'.toNat + digit)
    | none => c

/-- A text of ASCII is read as it stands; any other is simplified first. -/
def normalize (text : List Char) : List Char :=
  if text.all fun c => c.toNat < 128 then text else text.map simplify

/-- The text without the ASCII blanks at either end. -/
def trimAscii (text : List Char) : List Char :=
  ((text.dropWhile isAsciiBlank).reverse.dropWhile isAsciiBlank).reverse

/-- The sign in front of a text, and the rest. -/
def splitSign : List Char → Int × List Char
  | '-' :: rest => (-1, rest)
  | '+' :: rest => (1, rest)
  | text => (1, text)

/-- Removes single underscores that stand between digits; any other underscore is an error. -/
def dropUnderscores (isDigit : Char → Bool) : List Char → Option (List Char)
  | [] => some []
  | '_' :: _ => none
  -- the digit after the underscore is looked at again, as the one before the next underscore
  | c :: '_' :: d :: rest =>
    if isDigit c && isDigit d then (dropUnderscores isDigit (d :: rest)).map (c :: ·) else none
  | c :: rest => (dropUnderscores isDigit rest).map (c :: ·)

/-- The value of an ASCII decimal digit. -/
def asciiDigit? (c : Char) : Option Nat :=
  if '0' ≤ c ∧ c ≤ '9' then some (c.toNat - '0'.toNat) else none

/-- The value of the digits of a literal. -/
def digits? (base : Nat) (digit? : Char → Option Nat) (text : List Char) : Option Nat := do
  Numeral.natural? base digit? (← dropUnderscores (fun c => (digit? c).isSome) text)

/-- What follows `0x`, less one underscore that may stand directly after it. -/
def dropHexMarker : List Char → List Char
  | '0' :: 'x' :: '_' :: rest | '0' :: 'X' :: '_' :: rest => rest
  | '0' :: 'x' :: rest | '0' :: 'X' :: rest => rest
  | text => text

/-- The value of a literal in base 10, or in base 16 with or without `0x`. -/
def integer? (base : Nat) (text : List Char) : Option Int :=
  let (sign, rest) := splitSign (trimAscii (normalize text))
  let value? :=
    if base = 16 then digits? 16 hexValue? (dropHexMarker rest) else digits? 10 asciiDigit? rest
  value?.map fun value => sign * value

/-- The number of decimal digits that stand in front, with underscores between them. -/
def leadingDigits (text : List Char) : Nat :=
  let isDigit c := (asciiDigit? c).isSome
  let run := text.takeWhile fun c => c == '_' || isDigit c
  (dropUnderscores isDigit run).elim 0 List.length

/-- The value of a literal within a limit, or `none` if the text is no literal. Decimal digits are
counted before it is looked at what follows them. -/
def read (limit : DigitLimit) (base : Nat) (text : List Char) : Except Excess (Option Int) := do
  if base = 10 then limit.check (leadingDigits (splitSign (trimAscii (normalize text))).2)
  return integer? base text

/-- The value of an argument that is decimal, or hexadecimal if it starts with `0x`. -/
def integerArgument (limit : DigitLimit) (text : List Char) : Except Refusal Int :=
  let text := trim text
  let base := match text with
    | '0' :: 'x' :: _ | '0' :: 'X' :: _ => 16
    | _ => 10
  match read limit base text with
  | .ok (some value) => .ok value
  | .ok none => .error (.invalidLiteral base text)
  | .error excess => .error (.excess excess)

/-! ## Reals -/

/-- The text without an exponent at its end; `none` if an exponent is begun and not finished. -/
def dropExponent (text : List Char) : Option (List Char) :=
  let mantissa := text.takeWhile fun c => c != 'e' && c != 'E'
  match text.dropWhile fun c => c != 'e' && c != 'E' with
  | [] => some mantissa
  | _ :: exponent =>
    let digits := (splitSign exponent).2
    if !digits.isEmpty && digits.all fun c => (asciiDigit? c).isSome then some mantissa else none

/-- Digits with at most one point among them, and at least one digit. -/
def isMantissa (text : List Char) : Bool :=
  let whole := text.takeWhile fun c => (asciiDigit? c).isSome
  match text.dropWhile fun c => (asciiDigit? c).isSome with
  | [] => !whole.isEmpty
  | '.' :: fraction =>
    fraction.all (fun c => (asciiDigit? c).isSome) && !(whole.isEmpty && fraction.isEmpty)
  | _ => false

/-- The text is a real literal. -/
def isReal (text : List Char) : Bool :=
  let (_, body) := splitSign (trimAscii (normalize text))
  let lower := body.map Char.toLower
  lower == "inf".toList || lower == "infinity".toList || lower == "nan".toList ||
    match dropUnderscores (fun c => (asciiDigit? c).isSome) body with
    | some plain => (dropExponent plain).elim false isMantissa
    | none => false

end EightBit.Literal
