/-!
# Characters and Lines

A character property is a finite union of intervals of code points: a table, with one membership test
for all of them. Blanks and decimal digits are two such properties. Cutting blanks off a text, cutting it
at its first blanks and cutting it into lines are defined from its characters alone.

## Main Definitions

- `Ranges`: a set of code points, and its membership test.
- `isBlank`, `trimStart`, `trimEnd`, `trim`: blanks, and a text without those at its ends.
- `firstWord`: the first word of a text and what follows the blanks after it.
- `digitValue?`, `hexValue?`: the values of decimal digits of any script, and of hexadecimal ones.
- `splitLines`: the lines of a text; a break at the very end opens no further line.
- `normalizeNewlines`: every carriage return, alone or before a line feed, becomes a line feed.

## Main Statements

- `Ranges.not_contains_of_disjoint`: disjoint sets share no code point.
-/

namespace EightBit.Text

/-! ## Sets of code points -/

/-- A set of code points, as closed intervals in increasing order. -/
abbrev Ranges := List (Nat × Nat)

/-- Membership: some interval holds the code point. -/
def Ranges.contains (ranges : Ranges) (code : Nat) : Bool :=
  ranges.any fun interval => interval.1 ≤ code && code ≤ interval.2

/-- Two sets have no interval in common that overlaps. -/
def Ranges.disjoint (left right : Ranges) : Bool :=
  left.all fun a => right.all fun b => a.2 < b.1 || b.2 < a.1

/-- Disjoint sets share no code point. -/
theorem Ranges.not_contains_of_disjoint {left right : Ranges} {code : Nat}
    (apart : left.disjoint right = true) (inLeft : left.contains code = true) :
    right.contains code = false := by
  simp only [Ranges.contains, List.any_eq_true, Bool.and_eq_true, decide_eq_true_eq] at inLeft
  obtain ⟨a, ha, loA, hiA⟩ := inLeft
  simp only [Ranges.contains, List.any_eq_false, Bool.and_eq_true, decide_eq_true_eq, not_and]
  intro b hb loB hiB
  simp only [Ranges.disjoint, List.all_eq_true, Bool.or_eq_true, decide_eq_true_eq] at apart
  have := apart a ha b hb
  omega

/-! ## Blanks

White space, in the wide sense of the Unicode property, together with the four information
separators U+001C to U+001F. -/

/-- The blank code points. -/
def blankRanges : Ranges := [
  (9, 13), (28, 32), (133, 133), (160, 160), (5760, 5760), (8192, 8202), (8232, 8233),
  (8239, 8239), (8287, 8287), (12288, 12288)]

/-- The character is white space. -/
def isBlank (c : Char) : Bool :=
  blankRanges.contains c.toNat

/-- The text without the blanks at its start. -/
def trimStart (text : List Char) : List Char :=
  text.dropWhile isBlank

/-- The text without the blanks at its end. -/
def trimEnd (text : List Char) : List Char :=
  (text.reverse.dropWhile isBlank).reverse

/-- The text without the blanks at either end. -/
def trim (text : List Char) : List Char :=
  trimEnd (trimStart text)

/-- The characters up to the first blank, and the rest without the blanks that begin it. -/
def firstWord (text : List Char) : List Char × List Char :=
  (text.takeWhile (fun c => !isBlank c), trimStart (text.dropWhile (fun c => !isBlank c)))

/-! ## Digits

The decimal digits are the characters of the Unicode category Nd. They come in runs of ten consecutive
code points with the values 0 to 9 in order, so the value of a digit is its distance from the start of
its run. -/

/-- The runs of decimal digits; each interval is one or more runs of ten. -/
def digitRanges : Ranges := [
  (48, 57), (1632, 1641), (1776, 1785), (1984, 1993), (2406, 2415), (2534, 2543), (2662, 2671),
  (2790, 2799), (2918, 2927), (3046, 3055), (3174, 3183), (3302, 3311), (3430, 3439),
  (3558, 3567), (3664, 3673), (3792, 3801), (3872, 3881), (4160, 4169), (4240, 4249),
  (6112, 6121), (6160, 6169), (6470, 6479), (6608, 6617), (6784, 6793), (6800, 6809),
  (6992, 7001), (7088, 7097), (7232, 7241), (7248, 7257), (42528, 42537), (43216, 43225),
  (43264, 43273), (43472, 43481), (43504, 43513), (43600, 43609), (44016, 44025), (65296, 65305),
  (66720, 66729), (68912, 68921), (69734, 69743), (69872, 69881), (69942, 69951), (70096, 70105),
  (70384, 70393), (70736, 70745), (70864, 70873), (71248, 71257), (71360, 71369), (71472, 71481),
  (71904, 71913), (72016, 72025), (72784, 72793), (73040, 73049), (73120, 73129), (92768, 92777),
  (92864, 92873), (93008, 93017), (120782, 120831), (123200, 123209), (123632, 123641),
  (125264, 125273), (130032, 130041)]

/-- The value of a decimal digit, or `none` for any other character. -/
def digitValue? (c : Char) : Option Nat :=
  (digitRanges.find? fun run => run.1 ≤ c.toNat && c.toNat ≤ run.2).map
    fun run => (c.toNat - run.1) % 10

/-- The character is a decimal digit. -/
def isDigit (c : Char) : Bool :=
  (digitValue? c).isSome

/-- The value of an ASCII hexadecimal digit in either letter case. -/
def hexValue? (c : Char) : Option Nat :=
  if '0' ≤ c ∧ c ≤ '9' then some (c.toNat - '0'.toNat)
  else if 'a' ≤ c ∧ c ≤ 'f' then some (c.toNat - 'a'.toNat + 10)
  else if 'A' ≤ c ∧ c ≤ 'F' then some (c.toNat - 'A'.toNat + 10)
  else none

/-- The character is an ASCII hexadecimal digit. -/
def isHexDigit (c : Char) : Bool :=
  (hexValue? c).isSome

/-! ## Lines

A source text is cut into lines at every character that Unicode or ASCII treats as a line boundary, a
carriage return directly before a line feed counting as one boundary with it. A text read from a file has
its carriage returns normalised first. -/

/-- The character ends a line. -/
def isLineBreak (c : Char) : Bool :=
  c == '\n' || c == '\r' || c == '\x0b' || c == '\x0c' || c == '\x1c' || c == '\x1d' ||
    c == '\x1e' || c == '\x85' || c == '\u2028' || c == '\u2029'

/-- Puts a character in front of the first line, opening one if there is none. -/
def consLine (c : Char) : List (List Char) → List (List Char)
  | [] => [[c]]
  | line :: lines => (c :: line) :: lines

/-- The lines of a text, without their breaks. -/
def splitLines : List Char → List (List Char)
  | [] => []
  | '\r' :: '\n' :: rest => [] :: splitLines rest
  | c :: rest => if isLineBreak c then [] :: splitLines rest else consLine c (splitLines rest)

/-- Turns every `CR LF` and every lone `CR` into a line feed. -/
def normalizeNewlines : List Char → List Char
  | [] => []
  | '\r' :: '\n' :: rest => '\n' :: normalizeNewlines rest
  | '\r' :: rest => '\n' :: normalizeNewlines rest
  | c :: rest => c :: normalizeNewlines rest

/-- The texts joined by line feeds. -/
def joinLines (lines : List (List Char)) : List Char :=
  ['\n'].intercalate lines

end EightBit.Text
