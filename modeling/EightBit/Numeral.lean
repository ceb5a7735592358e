import EightBit.Text.Basic

/-!
# Numerals

The number texts of assembly source and of the machine's reports.

## Reading

A numeral is an optional minus sign followed by decimal digits of any script, or by `0x` and
ASCII hexadecimal digits. Blanks around it are ignored; its value is unbounded.

## Writing

Every report writes integers in one of a few fixed shapes, all of which are `write` with a base,
a least width that counts sign and marker, and a marker such as `0x`.

## Limits

The time it takes to convert an integer from or to decimal digits grows faster than the number of
digits. Readers and printers of integers can therefore be given a limit: the most decimal digits
that they read or write. Leading zeros count; signs, blanks and hexadecimal digits do not.

A text is held against the limit only after its form has been found right. A malformed text is
thus malformed, however many digits it has.

## Main Definitions

- `Numeral.parse?`, `Numeral.write`: reading and writing.
- `DigitLimit`, `Excess`: a limit, and how it is exceeded.
- `Rejection`: why a text is not accepted where digits are limited.
- `Numeral.read`: the value of a numeral within a limit.

## Main Statements

- `Numeral.read_none`: without a limit, every numeral is read.
- `Numeral.read_eq_ok_iff`: within a limit, a text is read unless it is a numeral of too many
  digits.
-/

namespace EightBit.Numeral

/-! ## Reading -/

/-- The positional value of a list of digits. -/
def ofDigits (base : Nat) (digits : List Nat) : Nat :=
  digits.foldl (fun value digit => value * base + digit) 0

/-- The value of a non-empty text of digits, each read by `digit?`. -/
def natural? (base : Nat) (digit? : Char → Option Nat) (text : List Char) : Option Nat :=
  if text.isEmpty then none else (text.mapM digit?).map (ofDigits base)

/-- The value of an unsigned numeral: `0x` with hexadecimal digits, or decimal digits. -/
def magnitude? : List Char → Option Nat
  | '0' :: 'x' :: digits => natural? 16 Text.hexValue? digits
  | '0' :: 'X' :: digits => natural? 16 Text.hexValue? digits
  | digits => natural? 10 Text.digitValue? digits

/-- The value of a numeral with an optional minus sign, and no blanks around it. -/
def signed? : List Char → Option Int
  | '-' :: rest => (magnitude? rest).map fun value => -(value : Int)
  | text => (magnitude? text).map Int.ofNat

/-- The value of a numeral, or `none` if the text is no numeral. -/
def parse? (text : List Char) : Option Int :=
  signed? (Text.trim text)

/-! ## Writing -/

/-- Sign, marker, as many zeros as the width asks for, and the digits in lower case. -/
def write (base width : Nat) (marker : List Char) (value : Int) : List Char :=
  let sign := if value < 0 then ['-'] else []
  let digits := Nat.toDigits base value.natAbs
  let zeros := width - (sign.length + marker.length + digits.length)
  sign ++ marker ++ List.replicate zeros '0' ++ digits

/-- Decimal, with a minus sign for negative numbers. -/
def decimal (value : Int) : List Char :=
  write 10 0 [] value

/-- Upper-case hexadecimal of at least two characters, the sign being one of them. -/
def hexByte (value : Int) : List Char :=
  (write 16 2 [] value).map Char.toUpper

/-- Lower-case hexadecimal with its `0x`, of at least four characters. -/
def hexAddress (value : Int) : List Char :=
  write 16 4 ['0', 'x'] value

/-- Binary of at least five characters. -/
def binary5 (value : Int) : List Char :=
  write 2 5 [] value

/-- Decimal with a sign even for positive numbers. -/
def withSign (value : Int) : List Char :=
  if value < 0 then decimal value else '+' :: decimal value

end EightBit.Numeral

namespace EightBit

/-- The most decimal digits of an integer; `none` stands for no limit. -/
abbrev DigitLimit := Option Nat

/-- An integer has more decimal digits than the limit. They have been counted when the integer was
to be read, and have not been when it was to be written. -/
structure Excess where
  limit : Nat
  digits : Option Nat
  deriving DecidableEq, Repr

/-- The wording of an excess. -/
def Excess.message (e : Excess) : String :=
  let counted := e.digits.elim "" fun digits => ": value has " ++ toString digits ++ " digits"
  "Exceeds the limit (" ++ toString e.limit ++ " digits) for integer string conversion" ++
    counted ++ "; use sys.set_int_max_str_digits() to increase the limit"

namespace DigitLimit

/-- Lets an integer be read from a number of digits. -/
def check (limit : DigitLimit) (digits : Nat) : Except Excess Unit :=
  match limit with
  | some most => if digits ≤ most then .ok () else .error ⟨most, some digits⟩
  | none => .ok ()

/-- Lets an integer be written: it has at most `n` digits if it is smaller than ten to the power
of `n`. -/
def checkWritten (limit : DigitLimit) (value : Int) : Except Excess Unit :=
  match limit with
  | some most => if value.natAbs < Nat.pow 10 most then .ok () else .error ⟨most, none⟩
  | none => .ok ()

/-- A count passes just when it is within the limit. -/
theorem check_eq_ok_iff (limit : DigitLimit) (digits : Nat) :
    limit.check digits = .ok () ↔ ∀ most, limit = some most → digits ≤ most := by
  cases limit <;> simp [check]

end DigitLimit

/-- Why a text is not accepted where digits are limited. -/
inductive Rejection (ε : Type)
  /-- Something is wrong with the text. -/
  | wrong (error : ε)
  /-- An integer in it has too many digits. -/
  | excess (excess : Excess)
  deriving DecidableEq, Repr

/-- The rejection with what is wrong described in another way. -/
def Rejection.map (f : ε → δ) : Rejection ε → Rejection δ
  | .wrong error => .wrong (f error)
  | .excess e => .excess e

namespace Numeral

/-- The number of decimal digits that the value of a numeral is read from. -/
def decimalLength (text : List Char) : Nat :=
  match Text.trim text with
  | '-' :: '0' :: 'x' :: _ | '-' :: '0' :: 'X' :: _ | '0' :: 'x' :: _ | '0' :: 'X' :: _ => 0
  | '-' :: digits => digits.length
  | digits => digits.length

/-- The value of a numeral within a limit, or `none` if the text is no numeral. -/
def read (limit : DigitLimit) (text : List Char) : Except Excess (Option Int) :=
  match parse? text with
  | none => .ok none
  | some value => do
    limit.check (decimalLength text)
    return some value

/-- Without a limit, every numeral is read. -/
theorem read_none (text : List Char) : read none text = .ok (parse? text) := by
  unfold read
  cases parse? text <;> rfl

/-- What is read is the value of the numeral, and a numeral is read if it is within the limit. -/
theorem read_eq_ok_iff {limit : DigitLimit} {text : List Char} {value? : Option Int} :
    read limit text = .ok value? ↔
      parse? text = value? ∧
        (value?.isSome → ∀ most, limit = some most → decimalLength text ≤ most) := by
  unfold read
  cases h : parse? text with
  | none => cases value? <;> simp
  | some value =>
    rw [← DigitLimit.check_eq_ok_iff]
    cases hc : DigitLimit.check limit (decimalLength text) with
    | ok u => cases value? <;> simp [bind, Except.bind, pure, Except.pure]
    | error e => cases value? <;> simp [bind, Except.bind]

end Numeral

end EightBit
