import EightBit.Numeral

/-!
# Constant Expressions

Two or more terms joined by signs, with an optional sign in front and blanks between any two
tokens. A term is a number or a character literal, whose value is the character's code point.

## Main Definitions

- `Expression.term?`: the term at the start of a text, and the rest of the text.
- `Expression.parse?`: the terms of an expression, and `Expression.value` their sum.
- `Expression.read`: the value of an expression none of whose terms has too many digits.

## Main Statements

- `Expression.read_none`: without a limit, every expression is read.
-/

namespace EightBit.Expression

open Text

/-- A term: its value, and the number of decimal digits that the value is read from. -/
structure Term where
  value : Int
  digits : Nat := 0
  deriving DecidableEq, Repr

/-- A term with its sign, which is 1 or -1, made part of the value. -/
def Term.signed (sign : Int) (term : Term) : Term :=
  { term with value := sign * term.value }

/-- The sign that a text starts with, and the rest. -/
def sign? : List Char → Option (Int × List Char)
  | '+' :: rest => some (1, rest)
  | '-' :: rest => some (-1, rest)
  | _ => none

/-- The longest run of decimal digits at the start of a text, and the rest. -/
def decimal? (text : List Char) : Option (Term × List Char) :=
  let digits := text.takeWhile isDigit
  (Numeral.natural? 10 digitValue? digits).map
    fun value => (⟨value, digits.length⟩, text.dropWhile isDigit)

/-- The longest run of hexadecimal digits at the start of a text, and the rest. -/
def hexadecimal? (text : List Char) : Option (Term × List Char) :=
  (Numeral.natural? 16 hexValue? (text.takeWhile isHexDigit)).map
    fun value => ({ value }, text.dropWhile isHexDigit)

/-- The term at the start of a text, and the rest. -/
def term? : List Char → Option (Term × List Char)
  | '\'' :: c :: '\'' :: rest => if c = '\'' then none else some ({ value := c.toNat }, rest)
  -- a zero alone would be a term as well, but no x can follow a term
  | '0' :: x :: rest =>
    if x = 'x' ∨ x = 'X' then hexadecimal? rest else decimal? ('0' :: x :: rest)
  | text => decimal? text

/-- The signed terms that make up the whole text; at most `fuel` of them are read. -/
def signedTerms? : Nat → List Char → Option (List Term)
  | 0, _ => none
  | fuel + 1, text =>
    if text.isEmpty then some []
    else do
      let (sign, afterSign) ← sign? (trimStart text)
      let (term, rest) ← term? (trimStart afterSign)
      return term.signed sign :: (← signedTerms? fuel rest)

/-- The terms of a text that is an expression of two or more, with their signs. Each term takes a
character or more, so the length of the text bounds their number. -/
def parse? (text : List Char) : Option (List Term) := do
  let text := trim text
  let (sign, afterSign) := (sign? text).getD (1, text)
  let (term, rest) ← term? (trimStart afterSign)
  if rest.isEmpty then none
  else return term.signed sign :: (← signedTerms? text.length rest)

/-- The sum of terms. -/
def value (terms : List Term) : Int :=
  (terms.map Term.value).foldr (· + ·) 0

/-- The value of a text that is an expression, however many digits its terms have. -/
def value? (text : List Char) : Option Int :=
  (parse? text).map value

/-- The value of an expression, or `none` if the text is none. The first term of too many digits
is the one that is reported. -/
def read (limit : DigitLimit) (text : List Char) : Except Excess (Option Int) :=
  match parse? text with
  | none => .ok none
  | some terms => do
    terms.forM fun term => limit.check term.digits
    return some (value terms)

/-- Without a limit, every expression is read. -/
theorem read_none (text : List Char) : read none text = .ok (value? text) := by
  unfold read value?
  cases parse? text with
  | none => rfl
  | some terms =>
    have h : (terms.forM fun term => DigitLimit.check none term.digits) = .ok () := by
      induction terms with
      | nil => rfl
      | cons term rest ih => exact ih
    simp only [h]
    rfl

end EightBit.Expression
