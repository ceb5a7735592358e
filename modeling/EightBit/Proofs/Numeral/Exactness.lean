import EightBit.Proofs.Operand.Literals

/-!
# Exactly the Numbers Are Read

A text is read as a number just if a number stands in it, with nothing but blanks around: digits of any script, or
hexadecimal digits behind their marker, and perhaps a minus sign in front. What is read is the value of the digits
by their positions. In particular a number that was written is read back, in both bases, in either letter case,
and with any zeros in front.

A limit on decimal digits is the one thing that can come between. It goes by the number of digits and not by the
value, so zeros in front can be too many, and it does not apply to hexadecimal digits.

## Main Definitions

- `Integer.Within`: a number that has not too many decimal digits.

## Main Statements

- `parse?_eq_some_iff`: the texts with a value, and their values.
- `exists_decimal`, `exists_hexadecimal`: what is written in either base is a number with that value.
- `read_exactly`: all outcomes of reading a text within a limit.
- `exists_padded`, `exists_number_refused`: zeros in front of a digit can be too many.
-/

namespace EightBit

/-- A count fails just if it is beyond the limit. -/
theorem DigitLimit.check_eq_error_iff {limit : DigitLimit} {digits : Nat} {excess : Excess} :
    limit.check digits = .error excess ↔ ∃ most ∈ limit, most < digits ∧ excess = ⟨most, some digits⟩ := by
  cases limit with
  | none => simp [check]
  | some most =>
    by_cases within : digits ≤ most
    · simp [check, within]
    · simp [check, within, Nat.lt_of_not_le within, eq_comm]

namespace Numeral

open Text

/-! ## Texts and values -/

section Text

variable {text : List Char} {number : Integer} (isNumber : trim text = number.text)
include isNumber

/-- Blanks around a number change nothing. -/
theorem Integer.parse?_of_trim : parse? text = some number.value := by
  rw [← number.parse?_text, parse?, parse?, isNumber, trim_of_trimmed number.trimmed_text]

theorem Integer.decimalLength_of_trim : decimalLength text = number.magnitude.decimals := by
  rw [← number.decimalLength_text]
  unfold decimalLength
  rw [isNumber, trim_of_trimmed number.trimmed_text]

end Text

/-- **The texts with a value** are the numbers, and no other text has one. -/
theorem parse?_eq_some_iff {text : List Char} {value : Int} :
    parse? text = some value ↔ ∃ number : Integer, trim text = number.text ∧ value = number.value := by
  constructor
  · intro parsed
    -- what has a value has the form of a number, which then has a value of its own
    have isSome : (parse? text).isSome := by simp [parsed]
    obtain ⟨number, isNumber⟩ := (isSome_parse?_iff.1 isSome).exists_integer
    have own := Integer.parse?_of_trim isNumber.symm
    exact ⟨number, isNumber.symm, Option.some.inj (parsed.symm.trans own)⟩
  · rintro ⟨number, isNumber, rfl⟩
    exact Integer.parse?_of_trim isNumber

theorem parse?_eq_none_iff {text : List Char} :
    parse? text = none ↔ ∀ number : Integer, trim text ≠ number.text := by
  rw [Option.eq_none_iff_forall_ne_some]
  simp only [ne_eq, parse?_eq_some_iff, not_exists, not_and]
  exact ⟨fun none number isNumber => none _ number isNumber rfl, fun none _ number isNumber =>
    absurd isNumber (none number)⟩

/-! ## Reading within a limit -/

/-- The number has not too many decimal digits. -/
def Integer.Within (number : Integer) (limit : DigitLimit) : Prop :=
  ∀ most ∈ limit, number.magnitude.decimals ≤ most

section Limit

variable {limit : DigitLimit} {text : List Char}

/-- The digits of a number are counted, and then its value is the result. -/
theorem Integer.read_of_trim {number : Integer} (isNumber : trim text = number.text) :
    read limit text =
      (limit.check number.magnitude.decimals).map fun _ => some number.value := by
  rw [read, Integer.parse?_of_trim isNumber, Integer.decimalLength_of_trim isNumber]
  cases limit.check number.magnitude.decimals <;> rfl

theorem read_some_iff {value : Int} :
    read limit text = .ok (some value) ↔
      ∃ number : Integer, trim text = number.text ∧ value = number.value ∧ number.Within limit := by
  rw [read_eq_ok_iff, parse?_eq_some_iff]
  constructor
  · rintro ⟨⟨number, isNumber, isValue⟩, within⟩
    refine ⟨number, isNumber, isValue, fun most isMost => ?_⟩
    rw [← Integer.decimalLength_of_trim isNumber]
    exact within rfl most isMost
  · rintro ⟨number, isNumber, isValue, within⟩
    refine ⟨⟨number, isNumber, isValue⟩, fun _ most isMost => ?_⟩
    rw [Integer.decimalLength_of_trim isNumber]
    exact within most isMost

theorem read_none_iff : read limit text = .ok none ↔ ∀ number : Integer, trim text ≠ number.text := by
  rw [read_eq_ok_iff, ← parse?_eq_none_iff]
  simp

theorem read_error_iff {excess : Excess} :
    read limit text = .error excess ↔ ∃ number : Integer, trim text = number.text ∧
      ∃ most ∈ limit, most < number.magnitude.decimals ∧
        excess = ⟨most, some number.magnitude.decimals⟩ := by
  -- a text is the text of at most one number, so that its digits are what is checked
  have counted : ∀ number : Integer, trim text = number.text →
      (read limit text = .error excess ↔ limit.check number.magnitude.decimals = .error excess) := by
    intro number isNumber
    rw [Integer.read_of_trim isNumber]
    cases limit.check number.magnitude.decimals <;> simp [Except.map]
  constructor
  · intro failed
    -- a text that is no number is not refused for its digits
    cases parsed : parse? text with
    | none =>
      rw [read_of_not_parse? parsed] at failed
      cases failed
    | some value =>
      obtain ⟨number, isNumber, -⟩ := parse?_eq_some_iff.1 parsed
      exact ⟨number, isNumber, DigitLimit.check_eq_error_iff.1 ((counted number isNumber).1 failed)⟩
  · rintro ⟨number, isNumber, beyond⟩
    exact (counted number isNumber).2 (DigitLimit.check_eq_error_iff.2 beyond)

end Limit

/-! ## Numbers that are written -/

/-- The text of a number is read as its value if it is within the limit. -/
theorem Integer.read_ok_iff {limit : DigitLimit} (number : Integer) {value : Int} :
    read limit number.text = .ok (some value) ↔ value = number.value ∧ number.Within limit := by
  have within : limit.check number.magnitude.decimals = .ok () ↔ number.Within limit :=
    limit.check_eq_ok_iff _
  rw [Integer.read_of_trim (trim_of_trimmed number.trimmed_text), ← within]
  cases limit.check number.magnitude.decimals <;> simp [Except.map, eq_comm]

/-- Digits that are read are digits, and their value is the one by position. -/
theorem positional_of_natural? {base n : Nat} {digit? : Char → Option Nat} {digits : List Char}
    (value : natural? base digit? digits = some n) :
    digits ≠ [] ∧ (∀ c ∈ digits, (digit? c).isSome) ∧ positional base digit? digits = n := by
  have isSome : (natural? base digit? digits).isSome := by simp [value]
  obtain ⟨nonempty, areDigits⟩ := isSome_natural?_iff.1 isSome
  refine ⟨nonempty, areDigits, ?_⟩
  rw [natural?_of_digits nonempty areDigits] at value
  exact Option.some.inj value

/-- A minus sign for negative numbers. -/
def minus (value : Int) : List Char :=
  if value < 0 then ['-'] else []

/-- A magnitude with the sign of a number is that number. -/
theorem Written.exists_signed {magnitude : Written} {value : Int} (same : magnitude.value = value.natAbs) :
    ∃ number : Integer, number.text = minus value ++ magnitude.text ∧ number.value = value ∧
      number.magnitude = magnitude := by
  by_cases negative : value < 0
  · refine ⟨⟨true, magnitude⟩, by simp [Integer.text, minus, negative], ?_, rfl⟩
    rw [Integer.value, if_pos rfl, same]
    omega
  · refine ⟨⟨false, magnitude⟩, by simp [Integer.text, minus, negative], ?_, rfl⟩
    rw [Integer.value, if_neg (by simp), same]
    omega

/-- What is written is a sign, a marker, zeros and the digits. -/
theorem exists_write_eq (base width : Nat) (marker : List Char) (value : Int) :
    ∃ zeros, write base width marker value =
      minus value ++ (marker ++ (List.replicate zeros '0' ++ Nat.toDigits base value.natAbs)) := by
  let digits := Nat.toDigits base value.natAbs
  exact ⟨width - ((minus value).length + marker.length + digits.length), by simp [write, minus, digits]⟩

/-- The digits of a number have its value, with zeros in front or without. -/
theorem natural?_zeros_toDigits {base : Nat} {digit? : Char → Option Nat} (one_lt : 1 < base)
    (reads : ∀ d < base, digit? d.digitChar = some d) (zeros n : Nat) :
    natural? base digit? (List.replicate zeros '0' ++ Nat.toDigits base n) = some n := by
  have zero : digit? '0' = some 0 := reads 0 (by omega)
  rw [natural?_zeros zero zeros Nat.toDigits_ne_nil]
  exact natural?_toDigits one_lt reads n

/-- **What is written in decimal is a number**, and all that is not its sign are digits. -/
theorem exists_decimal (width : Nat) (value : Int) :
    ∃ number : Integer, number.text = write 10 width [] value ∧ number.value = value ∧
      (write 10 width [] value).length = (minus value).length + number.magnitude.decimals := by
  obtain ⟨zeros, written⟩ := exists_write_eq 10 width [] value
  -- zeros and digits together are one row of digits, and all of them count
  obtain ⟨nonempty, areDigits, isValue⟩ := positional_of_natural?
    (natural?_zeros_toDigits (by decide) (fun d => digitValue?_digitChar) zeros value.natAbs)
  obtain ⟨number, text, same, magnitude⟩ :=
    Written.exists_signed (show (Written.decimal _ nonempty areDigits).value = value.natAbs from isValue)
  rw [written]
  refine ⟨number, text, same, ?_⟩
  rw [List.length_append, magnitude]
  rfl

/-! ## Letter case -/

/-- The capital letters of ASCII, in order. -/
def capital (place : Fin 26) : Char :=
  Char.ofNat (65 + place)

/-- Only capital letters have a lower case that is another character. -/
theorem toLower_cases (c : Char) : c.toLower = c ∨ ∃ place, c = capital place := by
  by_cases upper : 'A'.val ≤ c.val ∧ c.val ≤ 'Z'.val
  · have low : 65 ≤ c.toNat := upper.1
    have high : c.toNat ≤ 90 := upper.2
    refine .inr ⟨⟨c.toNat - 65, by omega⟩, ?_⟩
    rw [capital, Nat.add_sub_cancel' low, Char.ofNat_toNat]
  · exact .inl (dif_neg upper)

/-- Hexadecimal digits have the same value in either letter case. -/
theorem hexValue?_toLower (c : Char) : hexValue? c.toLower = hexValue? c := by
  obtain same | ⟨place, rfl⟩ := toLower_cases c
  · rw [same]
  · have alike : ∀ place, hexValue? (capital place).toLower = hexValue? (capital place) := by decide
    exact alike place

theorem eq_of_toLower {c d : Char} (noLetter : ∀ place, (capital place).toLower ≠ d)
    (same : c.toLower = d) : c = d := by
  obtain lower | ⟨place, rfl⟩ := toLower_cases c
  · rw [← same, lower]
  · exact absurd same (noLetter place)

theorem marker_of_toLower {c : Char} (same : c.toLower = 'x') : c = 'x' ∨ c = 'X' := by
  obtain lower | ⟨place, rfl⟩ := toLower_cases c
  · exact .inl (by rw [← same, lower])
  · have isMarker : ∀ place, (capital place).toLower = 'x' → capital place = 'X' := by decide
    exact .inr (isMarker place same)

theorem minus_of_map_toLower {front : List Char} {value : Int}
    (same : front.map Char.toLower = minus value) : front = minus value := by
  unfold minus at same ⊢
  split at same
  · next negative =>
    obtain ⟨c, rfl, isMinus⟩ := List.map_eq_singleton_iff.1 same
    rw [if_pos negative, eq_of_toLower (by decide) isMinus]
  · next positive => rw [if_neg positive, List.map_eq_nil_iff.1 same]

/-- **What is written in hexadecimal is a number**, in any letter case, the one of the marker included. -/
theorem exists_hexadecimal {width : Nat} {value : Int} {text : List Char}
    (same : text.map Char.toLower = write 16 width ['0', 'x'] value) :
    ∃ number : Integer, number.text = text ∧ number.value = value ∧ number.magnitude.decimals = 0 := by
  obtain ⟨zeros, written⟩ := exists_write_eq 16 width ['0', 'x'] value
  rw [written] at same
  -- the text is taken apart as what is written: a sign, the two characters of the marker, and digits
  obtain ⟨front, body, rfl, isFront, isBody⟩ := List.map_eq_append_iff.1 same
  obtain ⟨zero, more, rfl, isZero, isMore⟩ := List.map_eq_cons_iff.1 isBody
  obtain ⟨marker, digits, rfl, isMarker, areDigits⟩ := List.map_eq_cons_iff.1 isMore
  have value? : natural? 16 hexValue? digits = some value.natAbs := by
    -- the letter case is gone as soon as digits are read
    have reads : hexValue? ∘ Char.toLower = hexValue? := funext hexValue?_toLower
    rw [← reads, ← natural?_map, areDigits]
    exact natural?_zeros_toDigits (by decide) (by decide) zeros value.natAbs
  obtain ⟨nonempty, areHex, isValue⟩ := positional_of_natural? value?
  let magnitude := Written.hexadecimal marker (marker_of_toLower isMarker) digits nonempty areHex
  obtain ⟨number, text, same, isMagnitude⟩ :=
    Written.exists_signed (show magnitude.value = value.natAbs from isValue)
  refine ⟨number, ?_, same, by rw [isMagnitude]; rfl⟩
  rw [text, minus_of_map_toLower isFront, eq_of_toLower (by decide) isZero]
  rfl

/-! ## Exactness -/

/-- **Exactly the numbers are read**, each one as the value of its digits by position, unless it has more decimal
digits than the limit. Another text is none. What is written in decimal, with or without zeros in front, is read
back if the limit allows for the characters behind its sign, and what is written in hexadecimal is always read back. -/
theorem read_exactly (limit : DigitLimit) (text : List Char) :
    (∀ value, read limit text = .ok (some value) ↔
      ∃ number : Integer, trim text = number.text ∧ value = number.value ∧ number.Within limit) ∧
    (read limit text = .ok none ↔ ∀ number : Integer, trim text ≠ number.text) ∧
    (∀ excess, read limit text = .error excess ↔ ∃ number : Integer, trim text = number.text ∧
      ∃ most ∈ limit, most < number.magnitude.decimals ∧
        excess = ⟨most, some number.magnitude.decimals⟩) ∧
    ∀ (value : Int) (width : Nat),
      (read limit (write 10 width [] value) = .ok (some value) ↔ ∀ most ∈ limit,
        (write 10 width [] value).length ≤ (if value < 0 then 1 else 0) + most) ∧
      ∀ spelled : List Char, spelled.map Char.toLower = write 16 width ['0', 'x'] value →
        read limit spelled = .ok (some value) := by
  refine ⟨fun _ => read_some_iff, read_none_iff, fun _ => read_error_iff, fun value width => ⟨?_, ?_⟩⟩
  -- the digits of the decimal text are counted without the sign
  · obtain ⟨number, isText, isValue, length⟩ := exists_decimal width value
    have sign : (minus value).length = if value < 0 then 1 else 0 := by
      rw [minus]
      split <;> rfl
    rw [length, sign, ← isText, number.read_ok_iff]
    simp only [isValue, true_and, Integer.Within, Nat.add_le_add_iff_left]
  -- no digit of a hexadecimal number is counted
  · intro spelled same
    obtain ⟨number, isText, isValue, decimals⟩ := exists_hexadecimal same
    rw [← isText, number.read_ok_iff]
    refine ⟨isValue.symm, fun most _ => ?_⟩
    rw [decimals]
    exact Nat.zero_le most

/-- Blanks and digits of other scripts, zeros in front that are one too many, a marker without digits, and
hexadecimal digits in both letter cases. -/
theorem read_exactly_of_scripts :
    read (some 3) "\u3000-\u0661\uff122\n".toList = .ok (some (-122)) ∧
      read (some 3) "0007".toList = .error ⟨3, some 4⟩ ∧ read (some 3) " -0x".toList = .ok none ∧
      ("-0X00fF".toList.map Char.toLower = write 16 7 ['0', 'x'] (-255) ∧
        read (some 3) "-0X00fF".toList = .ok (some (-255))) := by
  let scripts : Integer :=
    ⟨true, .decimal "\u0661\uff122".toList (by decide) (List.all_eq_true.1 (by decide))⟩
  let padded : Integer :=
    ⟨false, .decimal "0007".toList (by decide) (List.all_eq_true.1 (by decide))⟩
  -- each of the four answers at a text that is not the obvious one
  have spelled : "-0X00fF".toList.map Char.toLower = write 16 7 ['0', 'x'] (-255) := by decide
  refine ⟨?_, ?_, ?_, spelled, ?_⟩
  · exact ((read_exactly (some 3) _).1 _).2 ⟨scripts, by decide, by decide, by rintro _ ⟨⟩; decide⟩
  · exact ((read_exactly (some 3) _).2.2.1 _).2 ⟨padded, by decide, 3, rfl, by decide, by decide⟩
  · refine ((read_exactly (some 3) _).2.1).2 fun number isNumber => ?_
    have isForm : Signed ['-', '0', 'x'] := by
      rw [show ['-', '0', 'x'] = trim " -0x".toList by decide, isNumber]
      exact number.signed_text
    -- a sign and a marker are no number, as the grammar says
    cases isSome_signed?_iff.2 isForm
  · exact ((read_exactly (some 3) []).2.2.2 (-255) 7).2 _ spelled

/-- A seven with as many zeros in front as the limit allows for digits, as a decimal number and behind the
marker of hexadecimal digits. -/
theorem exists_padded : ∃ magnitude marked : Written,
    magnitude.text = List.replicate digitLimit '0' ++ ['7'] ∧ marked.text = '0' :: 'x' :: magnitude.text ∧
      magnitude.value = 7 ∧ marked.value = 7 ∧ magnitude.decimals = digitLimit + 1 ∧ marked.decimals = 0 := by
  have decimal : natural? 10 digitValue? (List.replicate digitLimit '0' ++ ['7']) = some 7 := by
    rw [natural?_zeros rfl _ (by simp)]
    rfl
  have hexadecimal : natural? 16 hexValue? (List.replicate digitLimit '0' ++ ['7']) = some 7 := by
    rw [natural?_zeros rfl _ (by simp)]
    rfl
  obtain ⟨nonempty, areDigits, isValue⟩ := positional_of_natural? decimal
  obtain ⟨-, areHex, isHexValue⟩ := positional_of_natural? hexadecimal
  have count : (List.replicate digitLimit '0' ++ ['7']).length = digitLimit + 1 := by simp
  exact ⟨.decimal _ nonempty areDigits, .hexadecimal 'x' (.inl rfl) _ nonempty areHex, rfl, rfl, isValue,
    isHexValue, count, rfl⟩

/-- **Zeros in front can be too many** for a number to be read, though its value is small. Behind the marker of
hexadecimal digits, the same digits are read. -/
theorem exists_number_refused :
    ∃ number : Integer, number.text = List.replicate digitLimit '0' ++ ['7'] ∧ number.value = 7 ∧
      read (some digitLimit) number.text = .error ⟨digitLimit, some (digitLimit + 1)⟩ ∧
      read (some digitLimit) ('0' :: 'x' :: number.text) = .ok (some number.value) := by
  obtain ⟨magnitude, marked, text, same, value, sameValue, count, none⟩ := exists_padded
  have seven : (Integer.mk false magnitude).value = 7 := congrArg Int.ofNat value
  have also : (Integer.mk false marked).value = 7 := congrArg Int.ofNat sameValue
  -- the value is a byte, and only the number of its digits is beyond the limit
  refine ⟨⟨false, magnitude⟩, text, seven, read_error_iff.2
    ⟨⟨false, magnitude⟩, trim_of_trimmed (Integer.trimmed_text _), digitLimit, rfl, ?_⟩, ?_⟩
  · rw [count]
    exact ⟨Nat.lt_succ_self _, rfl⟩
  -- with a marker in front the same digits are hexadecimal, and not counted
  · show read _ ('0' :: 'x' :: magnitude.text) = _
    rw [← same]
    refine (Integer.mk false marked).read_ok_iff.2 ⟨seven.trans also.symm, fun _ _ => ?_⟩
    rw [none]
    exact Nat.zero_le _

end Numeral

end EightBit
