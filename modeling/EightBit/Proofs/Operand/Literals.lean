import EightBit.Proofs.Operand.Labels
import EightBit.Proofs.Source.Inert
import Mathlib.Data.Nat.Digits.Defs

/-!
# Literals

Numbers, characters and texts, as they are written in a source. A literal carries what makes it one,
so that whatever is a literal here is read as one: its text means nothing to the scan of a line, and
it is classified as the value that its digits or characters have.

## Main Definitions

- `Numeral.Written`, `Numeral.Integer`: numbers without sign, and with an optional minus sign.
- `Numeral.positional`: the value of a row of digits.

## Main Statements

- `Written.inert`: numbers are inert.
- `Written.term?_text`: a number is read as a term, up to its end.
- `Integer.parse?_text`: a number with a sign is read as its value.
- `classify_integer`, `classify_character`, `classify_text`: what literals are classified as.
-/

namespace EightBit

open Text Source

/-! ## Characters of numbers -/

/-- What has a meaning in a line ends a number, so numbers are ink. -/
theorem isInk_of_not_endsNumber {c : Char} (inside : ¬EndsNumber c) : isInk c = true := by
  refine Operand.isInk_of_ne ?_ fun mem => ?_
  · exact Bool.eq_false_iff.2 fun blank => inside (endsNumber_of_isBlank blank)
  · simp only [List.mem_cons, List.not_mem_nil, or_false] at mem
    refine inside ?_
    rcases mem with rfl | rfl | rfl | rfl | rfl | rfl | rfl <;>
      exact ⟨by decide, by decide, by decide⟩

theorem not_mem_of_isDigit {c : Char} (digit : isDigit c = true) {others : List Char}
    (noDigits : others.any isDigit = false) : c ∉ others :=
  fun mem => List.any_eq_false.1 noDigits c mem digit

/-- Digits have no upper case, in any script. -/
theorem upperChar_of_isDigit {c : Char} (digit : isDigit c = true) : upperChar c = [c] := by
  have inRange := contains_of_isDigit digit
  -- letters of ASCII and the tables of the others are all apart from the digits
  unfold upperChar
  split
  · next ascii =>
    have outside : Ranges.contains [(97, 122)] c.toNat = false :=
      Ranges.not_contains_of_disjoint (by decide +kernel) inRange
    have notLower : ¬(97 ≤ c.toNat ∧ c.toNat ≤ 122) := by
      simpa [Ranges.contains] using outside
    have keeps : ¬(c.val ≥ 'a'.val ∧ c.val ≤ 'z'.val) := fun lower => notLower lower
    exact congrArg (fun upper => [upper]) (dif_neg keeps)
  · have noExpansion : upperExpansions.lookup c.toNat = none := by
      have outside : Ranges.contains (upperExpansions.map fun entry => (entry.1, entry.1))
          c.toNat = false := Ranges.not_contains_of_disjoint (by decide +kernel) inRange
      rw [List.lookup_eq_none_iff]
      intro entry mem
      rw [Ranges.contains, List.any_map, List.any_eq_false] at outside
      have apart := outside entry mem
      simp only [Function.comp_apply, Bool.and_eq_true, decide_eq_true_eq, not_and] at apart
      simp only [bne_iff_ne, ne_eq]
      omega
    -- nor does a run of letters reach over a digit
    have noRun : upperRuns.find? (·.contains c.toNat) = none := by
      have outside : Ranges.contains (upperRuns.map fun run => (run.first, run.last)) c.toNat =
          false := Ranges.not_contains_of_disjoint (by decide +kernel) inRange
      rw [List.find?_eq_none]
      intro run mem inRun
      rw [Ranges.contains, List.any_map, List.any_eq_false] at outside
      rw [CaseRun.contains, Bool.and_eq_true] at inRun
      exact outside run mem inRun.1
    rw [noExpansion, noRun]

/-- A digit starts neither a register nor a name. -/
theorem digit_starts_no_name {c : Char} (digit : isDigit c = true) (text : List Char) :
    Pointer.ofText? (c :: text) = none ∧ Operand.isName (c :: text) = false := by
  have other : c ∉ ['A', 'B', 'C', 'D', 'S'] := not_mem_of_isDigit digit (by decide)
  refine ⟨Operand.ofText?_of_first text (upperChar_of_isDigit digit) other, ?_⟩
  have noStart : Operand.startsName c = false := by
    by_contra starts
    have code := Operand.contains_of_startsName (Bool.not_eq_false _ ▸ starts)
    have outside : digitRanges.contains c.toNat = false :=
      Ranges.not_contains_of_disjoint (by decide +kernel) code
    rw [contains_of_isDigit digit] at outside
    cases outside
  rw [Operand.isName, noStart, Bool.false_and]

/-! ## Numbers -/

namespace Numeral

/-- The value of a row of digits, of which the last one stands for units. -/
def positional (base : Nat) (digit? : Char → Option Nat) (digits : List Char) : Nat :=
  Nat.ofDigits base (digits.reverse.map fun c => (digit? c).getD 0)

/-- **A row of digits is read as its value.** -/
theorem natural?_of_digits {base : Nat} {digit? : Char → Option Nat} {digits : List Char}
    (nonempty : digits ≠ []) (areDigits : ∀ c ∈ digits, (digit? c).isSome) :
    natural? base digit? digits = some (positional base digit? digits) := by
  have read : digits.mapM digit? = some (digits.map fun c => (digit? c).getD 0) := by
    clear nonempty
    induction digits with
    | nil => rfl
    | cons c rest ih =>
      rw [List.forall_mem_cons] at areDigits
      obtain ⟨value, isValue⟩ := Option.isSome_iff_exists.1 areDigits.1
      rw [List.mapM_cons, ih areDigits.2, List.map_cons, isValue]
      rfl
  -- reading goes from the left, and the powers of the base grow from the right
  have sameValue : ofDigits base (digits.map fun c => (digit? c).getD 0) =
      positional base digit? digits := by
    rw [positional, List.map_reverse, Nat.ofDigits_eq_foldr, List.foldr_reverse, ofDigits]
    congr 1
    funext value digit
    rw [Nat.cast_id, Nat.add_comm, Nat.mul_comm]
  have begun : digits.isEmpty = false := by simpa using nonempty
  rw [natural?, begun, read]
  exact congrArg some sameValue

/-- A number without sign, as it is written: decimal digits, or `0x` and hexadecimal digits. -/
inductive Written
  | decimal (digits : List Char) (nonempty : digits ≠ [])
    (areDigits : ∀ c ∈ digits, isDigit c = true)
  | hexadecimal (marker : Char) (isMarker : marker = 'x' ∨ marker = 'X') (digits : List Char)
    (nonempty : digits ≠ []) (areDigits : ∀ c ∈ digits, isHexDigit c = true)

namespace Written

/-- The text of a number. -/
def text : Written → List Char
  | decimal digits _ _ => digits
  | hexadecimal marker _ digits _ _ => '0' :: marker :: digits

/-- The value of a number. -/
def value : Written → Nat
  | decimal digits _ _ => positional 10 digitValue? digits
  | hexadecimal _ _ digits _ _ => positional 16 hexValue? digits

/-- The number of decimal digits. -/
def decimals : Written → Nat
  | decimal digits _ _ => digits.length
  | hexadecimal _ _ _ _ _ => 0

variable (number : Written)

theorem unsigned_text : Unsigned number.text := by
  cases number with
  | decimal digits nonempty areDigits => exact .decimal nonempty areDigits
  | hexadecimal marker isMarker digits nonempty areDigits =>
    exact .hexadecimal isMarker nonempty areDigits

/-- A number starts with a digit. -/
theorem exists_cons_text : ∃ c more, number.text = c :: more ∧ isDigit c = true := by
  cases number with
  | decimal digits nonempty areDigits =>
    obtain ⟨c, more, rfl⟩ := List.exists_cons_of_ne_nil nonempty
    exact ⟨c, more, rfl, areDigits c List.mem_cons_self⟩
  | hexadecimal marker isMarker digits nonempty areDigits => exact ⟨_, _, rfl, by decide⟩

/-- Numbers are ink. -/
theorem ink : ∀ c ∈ number.text, isInk c = true :=
  fun c mem => isInk_of_not_endsNumber (number.unsigned_text.not_endsNumber c mem)

/-- **Numbers are inert.** -/
theorem inert : Inert number.text :=
  inert_of_plain fun c mem => (plain_of_ink number.ink c mem).1

theorem noBreak : NoBreak number.text :=
  fun c mem => (plain_of_ink number.ink c mem).2.2

/-- **A number is read as a term**, up to its end. -/
theorem term?_text {rest : List Char} (ends : ∀ c ∈ rest.head?, EndsNumber c) :
    Expression.term? (number.text ++ rest) = some (⟨number.value, number.decimals⟩, rest) := by
  cases number with
  | decimal digits nonempty areDigits =>
    rw [text, Expression.term?_decimal nonempty areDigits ends,
      natural?_of_digits nonempty areDigits]
    rfl
  | hexadecimal marker isMarker digits nonempty areDigits =>
    rw [text, Expression.term?_hexadecimal isMarker areDigits ends,
      natural?_of_digits nonempty areDigits]
    rfl

theorem magnitude?_text : magnitude? number.text = some number.value := by
  cases number with
  | decimal digits nonempty areDigits =>
    -- no digit is the marker
    have noMarker : ∀ c ∈ digits, c ≠ 'x' ∧ c ≠ 'X' := by
      intro c mem
      constructor
      · rintro rfl
        cases areDigits _ mem
      · rintro rfl
        cases areDigits _ mem
    rw [text, magnitude?_of_no_marker noMarker, natural?_of_digits nonempty areDigits]
    rfl
  | hexadecimal marker isMarker digits nonempty areDigits =>
    rcases isMarker with rfl | rfl
    · exact natural?_of_digits nonempty areDigits
    · exact natural?_of_digits nonempty areDigits

end Written

/-- A number with an optional minus sign. -/
structure Integer where
  negative : Bool := false
  magnitude : Written

namespace Integer

variable (number : Integer)

/-- The text of a number with its sign. -/
def text : List Char :=
  if number.negative then '-' :: number.magnitude.text else number.magnitude.text

/-- The value of a number with its sign. -/
def value : Int :=
  if number.negative then -number.magnitude.value else number.magnitude.value

theorem signed_text : Signed number.text := by
  rw [text]
  split
  · exact .negative number.magnitude.unsigned_text
  · exact .positive number.magnitude.unsigned_text

theorem trimmed_text : Trimmed number.text :=
  number.signed_text.noBlank.trimmed

theorem inert : Inert number.text := by
  rw [text]
  split
  · exact inert_cons rfl number.magnitude.inert
  · exact number.magnitude.inert

theorem noBreak : NoBreak number.text := by
  rw [text]
  split
  · exact .cons rfl number.magnitude.noBreak
  · exact number.magnitude.noBreak

/-- A number starts with a minus sign or with a digit. -/
theorem exists_cons_text :
    ∃ c more, number.text = c :: more ∧ (c = '-' ∨ isDigit c = true) := by
  rw [text]
  split
  · exact ⟨_, _, rfl, .inl rfl⟩
  · obtain ⟨c, more, shape, digit⟩ := number.magnitude.exists_cons_text
    exact ⟨c, more, shape, .inr digit⟩

/-- **A number is read as its value.** -/
theorem parse?_text : parse? number.text = some number.value := by
  rw [parse?, trim_of_trimmed number.trimmed_text, text, value]
  split
  · rw [signed?, number.magnitude.magnitude?_text]
    rfl
  · obtain ⟨c, more, shape, digit⟩ := number.magnitude.exists_cons_text
    unfold signed?
    split
    -- no digit is a sign
    · next starts =>
      rw [starts] at shape
      rw [← (List.cons.inj shape).1] at digit
      cases digit
    · rw [number.magnitude.magnitude?_text]
      rfl

/-- The digits that count against a limit. -/
theorem decimalLength_text : decimalLength number.text = number.magnitude.decimals := by
  -- what has no digit in it is not among the digits
  have noMarker : ∀ {digits : List Char}, (∀ c ∈ digits, isDigit c = true) →
      ∀ c, isDigit c = false → c ∉ digits := by
    intro digits areDigits c noDigit mem
    rw [areDigits c mem] at noDigit
    cases noDigit
  unfold decimalLength
  rw [trim_of_trimmed number.trimmed_text, text]
  obtain ⟨negative, magnitude⟩ := number
  -- the sign and the marker are told apart by cases, and the digits are counted behind them
  cases magnitude with
  | hexadecimal marker isMarker digits nonempty areDigits =>
    rcases isMarker with rfl | rfl <;> cases negative <;> rfl
  | decimal digits nonempty areDigits =>
    have other := noMarker areDigits
    cases negative with
    | true =>
      simp only [if_true, Written.text]
      split
      · next same => exact absurd (by simp [(List.cons.inj same).2]) (other 'x' (by decide))
      · next same => exact absurd (by simp [(List.cons.inj same).2]) (other 'X' (by decide))
      · next same => cases same
      · next same => cases same
      · next same =>
        rw [← (List.cons.inj same).2]
        rfl
      · next plain => exact absurd rfl (plain digits)
    | false =>
      simp only [Bool.false_eq_true, if_false, Written.text]
      split
      · exact absurd (by simp) (other 'x' (by decide))
      · exact absurd (by simp) (other 'X' (by decide))
      · exact absurd (by simp) (other 'x' (by decide))
      · exact absurd (by simp) (other 'X' (by decide))
      · exact absurd (by simp) (other '-' (by decide))
      · rfl

end Integer

/-- Digits with or without a marker are a number as it is written. -/
theorem Unsigned.exists_written {text : List Char} (unsigned : Unsigned text) :
    ∃ number : Written, number.text = text := by
  cases unsigned with
  | hexadecimal marker nonempty hex => exact ⟨.hexadecimal _ marker _ nonempty hex, rfl⟩
  | decimal nonempty decimal => exact ⟨.decimal _ nonempty decimal, rfl⟩

theorem Signed.exists_integer {text : List Char} (signed : Signed text) :
    ∃ number : Integer, number.text = text := by
  cases signed with
  | positive unsigned =>
    obtain ⟨magnitude, rfl⟩ := unsigned.exists_written
    exact ⟨{ magnitude }, rfl⟩
  | negative unsigned =>
    obtain ⟨magnitude, rfl⟩ := unsigned.exists_written
    exact ⟨{ negative := true, magnitude }, rfl⟩

end Numeral

/-! ## Classification -/

/-- A single term is no expression, with a sign in front or without one. -/
theorem Expression.parse?_of_single {text : List Char} {read : Expression.Term}
    (trimmed : Trimmed text)
    (single : Expression.term? (trimStart ((Expression.sign? text).getD (1, text)).2) =
      some (read, [])) :
    Expression.parse? text = none := by
  rw [parse?_eq_termsFrom?, trim_of_trimmed trimmed, termsFrom?_of_term? _ single, if_pos rfl]

/-- A character between single quotes has no blank at either end. -/
theorem trimmed_literal (c : Char) : Trimmed ['\'', c, '\''] :=
  trimmed_of_ends (show _ = '\'' :: [c] ++ ['\''] from rfl) (by decide) (by decide)

namespace Operand

variable (limit : DigitLimit)

/-- A number alone is no expression. -/
theorem parse?_integer (number : Numeral.Integer) : Expression.parse? number.text = none := by
  -- a number alone is one term with nothing behind it, so it is no sum
  have whole : Expression.term? (number.magnitude.text ++ []) = _ :=
    number.magnitude.term?_text nofun
  rw [List.append_nil] at whole
  obtain ⟨c, more, shape, digit⟩ := number.magnitude.exists_cons_text
  have started : trimStart number.magnitude.text = number.magnitude.text :=
    trimStart_of_first number.magnitude.unsigned_text.noBlank.trimmed.first
  refine Expression.parse?_of_single number.trimmed_text
    (?_ : Expression.term? _ = some (⟨number.magnitude.value, number.magnitude.decimals⟩, []))
  rw [Numeral.Integer.text]
  -- with a sign in front the first term is read behind it
  split
  · show Expression.term? (trimStart number.magnitude.text) = _
    rw [started, whole]
  -- without a sign the first character is the first digit
  · have noSign : Expression.sign? number.magnitude.text = none := by
      rw [shape]
      unfold Expression.sign?
      split
      · next same =>
        rw [(List.cons.inj same).1] at digit
        cases digit
      · next same =>
        rw [(List.cons.inj same).1] at digit
        cases digit
      · rfl
    rw [noSign]
    show Expression.term? (trimStart number.magnitude.text) = _
    rw [started, whole]

/-- **A number is classified by its value**, when its digits have been counted. -/
theorem classify_integer (number : Numeral.Integer) :
    classify limit number.text = ((limit.check number.magnitude.decimals).mapError .excess >>= fun _ =>
      immediateOf number.text number.value) := by
  have isNumber : Operand.number limit number.text =
      (limit.check number.magnitude.decimals).mapError .excess >>= fun _ => .ok (some number.value) := by
    rw [Operand.number, Numeral.read, number.parse?_text, number.decimalLength_text]
    cases limit.check number.magnitude.decimals <;> rfl
  have single := parse?_integer number
  obtain ⟨c, more, shape, start⟩ := number.exists_cons_text
  -- neither a minus sign nor a digit starts another kind of operand
  have other : c ∉ ['[', '"', '\''] := by
    rcases start with rfl | digit
    · decide
    · exact not_mem_of_isDigit digit (by decide)
  simp only [List.mem_cons, List.not_mem_nil, or_false, not_or] at other
  have noName : Pointer.ofText? (c :: more) = none ∧ isName (c :: more) = false := by
    rcases start with rfl | digit
    · exact ⟨ofText?_of_first more (by decide) (by decide), rfl⟩
    · exact digit_starts_no_name digit more
  rw [shape] at single isNumber ⊢
  rw [classify_word limit other.1 other.2.1 other.2.2 single, classifyWord, noName.1, noName.2,
    isNumber]
  cases limit.check number.magnitude.decimals <;> rfl

/-- **A character literal is its code**, which has to be a byte. The character may be a quote. -/
theorem classify_character (c : Char) :
    classify limit ['\'', c, '\''] = classifyCharacter ['\'', c, '\''] := by
  have single : Expression.parse? ['\'', c, '\''] = none := by
    refine parse?_of_term (trimmed_literal c) rfl ?_
    intro term rest found
    rw [Expression.term?] at found
    split at found
    · cases found
    · cases found
      rfl
  rw [classify_of_single limit (by decide) (by decide) single]
  rfl

/-- **A text in double quotes is the codes of its characters**, which have to be bytes. -/
theorem classify_text {chars : List Char} (narrow : ∀ c ∈ chars, c.toNat ≤ 255) :
    classify limit ('"' :: (chars ++ ['"'])) =
      .ok (.text (chars.map fun c => UInt8.ofNat c.toNat)) := by
  -- what stands between the quotes is the text, and none of it is too wide
  have inside : between ('"' :: (chars ++ ['"'])) = chars := by simp [between]
  have closed : ¬(('"' :: (chars ++ ['"'])).length < 2 ∨
      ('"' :: (chars ++ ['"'])).getLast? ≠ some '"') := by
    rw [not_or, not_not, ← List.cons_append, List.getLast?_concat]
    exact ⟨by simp, rfl⟩
  have noWide : (chars.any fun c => 255 < c.toNat) = false := by
    rw [List.any_eq_false]
    intro c mem
    simpa using narrow c mem
  show classifyText ('"' :: (chars ++ ['"'])) = _
  rw [classifyText, if_neg closed, inside, noWide]
  rfl

end Operand

end EightBit
