import EightBit.Proofs.Operand.Notation
import EightBit.Proofs.Source.Line
import Mathlib.Data.List.Forall2

/-!
# The Forms of Numbers and Offsets

What counts as a number, as an expression or as a register with an offset is told here by grammars.
A text of one of these forms always has a value: no conversion meets a text that was accepted and
cannot be converted, and no register is looked up that is not there. For numbers and expressions the
converse holds as well, so the readers accept the grammar and nothing else.

## Main Definitions

- `Numeral.Signed`, `Expression.Form`: numbers and expressions, without blanks around them.
- `Pointer.Matches`, `Operand.OffsetForm`: a register in any letter case, and one with an offset.

## Main Statements

- `isSome_parse?_iff`, `isSome_value?_iff`: numbers and expressions are the texts with a value.
- `ofText?_of_matches`, `registerOffset?_of_parts`, `exists_registerOffset?_of_form`: a register in any
  letter case is known.
- `isSome_parse_of_ne_nil`: a statement is missing only from an empty text.
-/

namespace EightBit

open Text

/-! ## Numbers -/

namespace Numeral

/-- A number without sign. -/
inductive Unsigned : List Char → Prop
  | hexadecimal {x : Char} {digits : List Char} (marker : x = 'x' ∨ x = 'X')
      (nonempty : digits ≠ []) (hex : ∀ c ∈ digits, isHexDigit c = true) :
      Unsigned ('0' :: x :: digits)
  | decimal {digits : List Char} (nonempty : digits ≠ [])
      (decimal : ∀ c ∈ digits, isDigit c = true) : Unsigned digits

/-- A number with an optional minus sign. -/
inductive Signed : List Char → Prop
  | positive {text : List Char} (unsigned : Unsigned text) : Signed text
  | negative {text : List Char} (unsigned : Unsigned text) : Signed ('-' :: text)

/-- A text of digits has a value, and no other text has. -/
theorem isSome_natural?_iff {base : Nat} {digit? : Char → Option Nat} {text : List Char} :
    (natural? base digit? text).isSome ↔ text ≠ [] ∧ ∀ c ∈ text, (digit? c).isSome := by
  -- every character has to be a digit, and there has to be one
  have converts : (text.mapM digit?).isSome ↔ ∀ c ∈ text, (digit? c).isSome := by
    induction text with
    | nil => simp
    | cons c rest ih =>
      cases first : digit? c with
      | none => simp [first]
      | some digit =>
        rw [List.forall_mem_cons, ← ih]
        cases later : rest.mapM digit? <;> simp [first, later]
  unfold natural?
  split
  · next empty => simp [List.isEmpty_iff.1 empty]
  · next nonempty =>
    rw [Option.isSome_map, converts]
    simp [List.isEmpty_iff.not.1 nonempty]

/-- Neither marker is a decimal digit. -/
theorem isDigit_marker {x : Char} (marker : x = 'x' ∨ x = 'X') : isDigit x = false := by
  rcases marker with rfl | rfl <;> decide

theorem isSome_magnitude?_iff {text : List Char} : (magnitude? text).isSome ↔ Unsigned text := by
  constructor
  · intro isSome
    unfold magnitude? at isSome
    split at isSome
    · obtain ⟨nonempty, hex⟩ := isSome_natural?_iff.1 isSome
      exact .hexadecimal (.inl rfl) nonempty hex
    · obtain ⟨nonempty, hex⟩ := isSome_natural?_iff.1 isSome
      exact .hexadecimal (.inr rfl) nonempty hex
    · obtain ⟨nonempty, decimal⟩ := isSome_natural?_iff.1 isSome
      exact .decimal nonempty decimal
  · rintro (⟨marker, nonempty, hex⟩ | ⟨nonempty, decimal⟩)
    · rcases marker with rfl | rfl
      · exact isSome_natural?_iff.2 ⟨nonempty, hex⟩
      · exact isSome_natural?_iff.2 ⟨nonempty, hex⟩
    · -- decimal digits hold no marker
      unfold magnitude?
      split
      · have := decimal 'x' (by simp)
        cases this
      · have := decimal 'X' (by simp)
        cases this
      · exact isSome_natural?_iff.2 ⟨nonempty, decimal⟩

theorem Unsigned.ne_minus {text : List Char} : ¬Unsigned ('-' :: text) := by
  intro unsigned
  cases unsigned with
  | decimal _ decimal =>
    have := decimal '-' (by simp)
    cases this

theorem isSome_signed?_iff {text : List Char} : (signed? text).isSome ↔ Signed text := by
  unfold signed?
  split
  · next rest =>
    -- behind a minus sign the text is read as a number without one
    have value : (signed? ('-' :: rest)).isSome = (magnitude? rest).isSome := by
      cases read : magnitude? rest <;> simp [signed?, read]
    refine Iff.trans (Bool.eq_iff_iff.1 value) (isSome_magnitude?_iff.trans ⟨.negative, ?_⟩)
    intro signed
    cases signed with
    | positive unsigned => exact absurd unsigned Unsigned.ne_minus
    | negative unsigned => exact unsigned
  · next noMinus =>
    rw [Option.isSome_map, isSome_magnitude?_iff]
    refine ⟨.positive, fun signed => ?_⟩
    cases signed with
    | positive unsigned => exact unsigned
    | negative unsigned => exact absurd rfl (noMinus _)

/-- **The texts with a value are the numbers.** -/
theorem isSome_parse?_iff {text : List Char} : (parse? text).isSome ↔ Signed (trim text) :=
  isSome_signed?_iff

end Numeral

/-! ## Characters that end a number -/

/-- The code points of hexadecimal digits. -/
def hexRanges : Ranges :=
  [(48, 57), (65, 70), (97, 102)]

theorem contains_of_isHexDigit {c : Char} (hex : isHexDigit c = true) :
    hexRanges.contains c.toNat = true := by
  -- the three ways in which a character is a hexadecimal digit are the three ranges
  simp only [Ranges.contains, hexRanges, List.any_cons, List.any_nil, Bool.or_false,
    Bool.or_eq_true, Bool.and_eq_true, decide_eq_true_iff]
  rw [isHexDigit] at hex
  unfold hexValue? at hex
  simp only [Char.le_def, UInt32.le_iff_toNat_le] at hex
  split at hex
  · next decimal => exact .inl decimal
  · split at hex
    · next lower => exact .inr (.inr lower)
    · split at hex
      · next upper => exact .inr (.inl upper)
      · cases hex

theorem contains_of_isDigit {c : Char} (digit : isDigit c = true) :
    digitRanges.contains c.toNat = true := by
  rw [isDigit, digitValue?, Option.isSome_map, List.find?_isSome] at digit
  rwa [Ranges.contains, List.any_eq_true]

/-- The character goes on with no number and turns no zero into a marker. -/
structure EndsNumber (c : Char) : Prop where
  decimal : isDigit c = false
  hexadecimal : isHexDigit c = false
  marker : ¬(c = 'x' ∨ c = 'X')

theorem endsNumber_of_isBlank {c : Char} (blank : isBlank c = true) : EndsNumber c where
  decimal := by
    -- blanks and digits are apart in the tables of both
    by_contra digit
    have inRange := contains_of_isDigit (Bool.not_eq_false _ ▸ digit)
    have outside : blankRanges.contains c.toNat = false :=
      Ranges.not_contains_of_disjoint (by decide +kernel) inRange
    rw [isBlank, outside] at blank
    cases blank
  hexadecimal := by
    by_contra digit
    have inRange := contains_of_isHexDigit (Bool.not_eq_false _ ▸ digit)
    have outside : blankRanges.contains c.toNat = false :=
      Ranges.not_contains_of_disjoint (by decide) inRange
    rw [isBlank, outside] at blank
    cases blank
  marker := by
    rintro (rfl | rfl) <;> cases blank

theorem endsNumber_of_sign {c : Char} (isSign : c = '+' ∨ c = '-') : EndsNumber c := by
  rcases isSign with rfl | rfl <;> exact ⟨by decide, by decide, by decide⟩

namespace Numeral

/-- No character of a number ends it. -/
theorem Unsigned.not_endsNumber {text : List Char} (unsigned : Unsigned text) :
    ∀ c ∈ text, ¬EndsNumber c := by
  intro c mem ends
  cases unsigned with
  | @hexadecimal x digits marker nonempty hex =>
    rw [List.mem_cons, List.mem_cons] at mem
    -- the marker and what stands before it are no ends either, nor is any digit
    rcases mem with rfl | rfl | inDigits
    · exact absurd ends.decimal (by decide)
    · exact ends.marker marker
    · have digit := hex c inDigits
      rw [ends.hexadecimal] at digit
      cases digit
  | decimal nonempty decimal =>
    have digit := decimal c mem
    rw [ends.decimal] at digit
    cases digit

theorem Unsigned.noBlank {text : List Char} (unsigned : Unsigned text) : NoBlank text :=
  fun c mem => Bool.eq_false_iff.2 fun blank =>
    unsigned.not_endsNumber c mem (endsNumber_of_isBlank blank)

theorem Unsigned.ne_nil {text : List Char} (unsigned : Unsigned text) : text ≠ [] := by
  cases unsigned with
  | hexadecimal => exact List.cons_ne_nil _ _
  | decimal nonempty => exact nonempty

theorem Signed.noBlank {text : List Char} (signed : Signed text) : NoBlank text := by
  cases signed with
  | positive unsigned => exact unsigned.noBlank
  | negative unsigned => exact List.forall_mem_cons.2 ⟨by decide, unsigned.noBlank⟩

theorem Signed.ne_nil {text : List Char} (signed : Signed text) : text ≠ [] := by
  cases signed with
  | positive unsigned => exact unsigned.ne_nil
  | negative => exact List.cons_ne_nil _ _

end Numeral

/-! ## Expressions -/

namespace Expression

/-- A term: a character between single quotes, or a number without sign. -/
inductive TermForm : List Char → Prop
  | character {c : Char} (other : c ≠ '\'') : TermForm ['\'', c, '\'']
  | number {text : List Char} (unsigned : Numeral.Unsigned text) : TermForm text

/-- What goes on behind a term: signs and terms with blanks between them. -/
inductive TailForm : List Char → Prop
  | nil : TailForm []
  | cons {lead gap term rest : List Char} {sign : Char} (blankLead : AllBlank lead)
      (isSign : sign = '+' ∨ sign = '-') (blankGap : AllBlank gap) (isTerm : TermForm term)
      (isTail : TailForm rest) : TailForm (lead ++ sign :: (gap ++ (term ++ rest)))

/-- An expression without blanks around it: two terms or more, perhaps with a sign in front. -/
inductive Form : List Char → Prop
  | unsigned {gap term rest : List Char} (blankGap : AllBlank gap) (isTerm : TermForm term)
      (isTail : TailForm rest) (more : rest ≠ []) : Form (gap ++ (term ++ rest))
  | signed {gap term rest : List Char} {sign : Char} (isSign : sign = '+' ∨ sign = '-')
      (blankGap : AllBlank gap) (isTerm : TermForm term) (isTail : TailForm rest)
      (more : rest ≠ []) : Form (sign :: (gap ++ (term ++ rest)))

/-- The character starts no sign and is not blank. -/
structure StartsTerm (c : Char) : Prop where
  noBlank : isBlank c = false
  noSign : ¬(c = '+' ∨ c = '-')

theorem startsTerm_of_isDigit {c : Char} (digit : isDigit c = true) : StartsTerm c where
  noBlank := by
    by_contra blank
    rw [(endsNumber_of_isBlank (Bool.not_eq_false _ ▸ blank)).decimal] at digit
    cases digit
  noSign isSign := by
    rw [(endsNumber_of_sign isSign).decimal] at digit
    cases digit

/-- A term starts with a quote or a digit. -/
theorem TermForm.exists_cons {text : List Char} (isTerm : TermForm text) :
    ∃ c rest, text = c :: rest ∧ StartsTerm c := by
  cases isTerm with
  | character other => exact ⟨_, _, rfl, ⟨by decide, by decide⟩⟩
  | number unsigned =>
    cases unsigned with
    | hexadecimal marker nonempty hex => exact ⟨_, _, rfl, ⟨by decide, by decide⟩⟩
    | decimal nonempty decimal =>
      obtain ⟨c, rest, rfl⟩ := List.exists_cons_of_ne_nil nonempty
      exact ⟨c, rest, rfl, startsTerm_of_isDigit (decimal c (by simp))⟩

/-- No number goes on behind its term. -/
theorem TailForm.endsNumber {rest : List Char} (isTail : TailForm rest) :
    ∀ c ∈ rest.head?, EndsNumber c := by
  cases isTail with
  | nil => exact nofun
  | @cons lead gap term rest sign blankLead isSign _ _ _ =>
    intro c first
    cases lead with
    | nil =>
      obtain rfl := Option.some.inj first
      exact endsNumber_of_sign isSign
    | cons blank lead =>
      obtain rfl := Option.some.inj first
      exact endsNumber_of_isBlank (blankLead _ (by simp))

/-- A digit that no marker follows starts a decimal number. -/
theorem term?_of_isDigit {c : Char} {rest : List Char} (digit : isDigit c = true)
    (noMarker : ∀ x ∈ rest.head?, ¬(x = 'x' ∨ x = 'X')) :
    term? (c :: rest) = decimal? (c :: rest) := by
  unfold term?
  split
  · next same =>
    obtain ⟨rfl, -⟩ := List.cons.inj same
    cases digit
  · next x more same =>
    obtain ⟨rfl, rfl⟩ := List.cons.inj same
    exact if_neg (noMarker x rfl)
  · rfl

/-- A hexadecimal number is read up to where it ends. -/
theorem term?_hexadecimal {x : Char} {digits rest : List Char} (marker : x = 'x' ∨ x = 'X')
    (hex : ∀ c ∈ digits, isHexDigit c = true) (ends : ∀ c ∈ rest.head?, EndsNumber c) :
    term? ('0' :: x :: digits ++ rest) =
      (Numeral.natural? 16 hexValue? digits).map fun value => ({ value }, rest) := by
  obtain ⟨run, behind⟩ := takeWhile_append_of_stop hex fun c first => (ends c first).hexadecimal
  show (if x = 'x' ∨ x = 'X' then hexadecimal? (digits ++ rest) else _) = _
  rw [if_pos marker, hexadecimal?, run, behind]
  cases Numeral.natural? 16 hexValue? digits <;> rfl

/-- A decimal number is read up to where it ends. -/
theorem term?_decimal {digits rest : List Char} (nonempty : digits ≠ [])
    (decimal : ∀ c ∈ digits, isDigit c = true) (ends : ∀ c ∈ rest.head?, EndsNumber c) :
    term? (digits ++ rest) =
      (Numeral.natural? 10 digitValue? digits).map fun value => (⟨value, digits.length⟩, rest) := by
  obtain ⟨run, behind⟩ := takeWhile_append_of_stop decimal fun c first => (ends c first).decimal
  have isDecimal : term? (digits ++ rest) = decimal? (digits ++ rest) := by
    obtain ⟨first, more, rfl⟩ := List.exists_cons_of_ne_nil nonempty
    refine term?_of_isDigit (decimal first (by simp)) fun x second => ?_
    -- the second character is a digit as well, or it ends the number
    cases more with
    | nil => exact (ends x second).marker
    | cons second' more =>
      obtain rfl := Option.some.inj second
      intro marker
      have digit := decimal second' (by simp)
      rw [Numeral.isDigit_marker marker] at digit
      cases digit
  rw [isDecimal, decimal?, run, behind]
  cases Numeral.natural? 10 digitValue? digits <;> rfl

/-- **A term is read**, up to where its number ends. -/
theorem exists_term?_of_form {term rest : List Char} (isTerm : TermForm term)
    (ends : ∀ c ∈ rest.head?, EndsNumber c) : ∃ read, term? (term ++ rest) = some (read, rest) := by
  cases isTerm with
  -- what follows the term ends it, so that it is read in full and no further
  | @character c other => exact ⟨{ value := c.toNat }, by simp [term?, other]⟩
  | number unsigned =>
    cases unsigned with
    | hexadecimal marker nonempty hex =>
      obtain ⟨value, isValue⟩ := Option.isSome_iff_exists.1
        (Numeral.isSome_natural?_iff.2 ⟨nonempty, hex⟩)
      exact ⟨{ value }, by rw [term?_hexadecimal marker hex ends, isValue]; rfl⟩
    | decimal nonempty decimal =>
      obtain ⟨value, isValue⟩ := Option.isSome_iff_exists.1
        (Numeral.isSome_natural?_iff.2 ⟨nonempty, decimal⟩)
      exact ⟨⟨value, term.length⟩, by rw [term?_decimal nonempty decimal ends, isValue]; rfl⟩

theorem exists_sign? {sign : Char} (isSign : sign = '+' ∨ sign = '-') (rest : List Char) :
    ∃ value, sign? (sign :: rest) = some (value, rest) := by
  rcases isSign with rfl | rfl
  · exact ⟨1, rfl⟩
  · exact ⟨-1, rfl⟩

theorem not_isBlank_of_sign {sign : Char} (isSign : sign = '+' ∨ sign = '-') :
    isBlank sign = false := by
  rcases isSign with rfl | rfl <;> decide

/-- A term behind blanks is where the blanks end. -/
theorem trimStart_gap {gap term rest : List Char} (blankGap : AllBlank gap)
    (isTerm : TermForm term) : trimStart (gap ++ (term ++ rest)) = term ++ rest := by
  obtain ⟨c, more, rfl, starts⟩ := isTerm.exists_cons
  rw [trimStart_append blankGap]
  exact trimStart_cons starts.noBlank _

/-- A term and what ends it are read behind blanks. -/
theorem exists_term?_behind {gap term rest : List Char} (blankGap : AllBlank gap)
    (isTerm : TermForm term) (isTail : TailForm rest) :
    ∃ read, term? (trimStart (gap ++ (term ++ rest))) = some (read, rest) := by
  rw [trimStart_gap blankGap isTerm]
  exact exists_term?_of_form isTerm isTail.endsNumber

/-- A sign and a term are read, and then what follows them. -/
theorem signedTerms?_cons {lead more rest : List Char} {sign : Char} {unit : Int} {read : Term}
    (fuel : Nat) (blankLead : AllBlank lead) (isSign : sign = '+' ∨ sign = '-')
    (readSign : sign? (sign :: more) = some (unit, more))
    (readTerm : term? (trimStart more) = some (read, rest)) :
    signedTerms? (fuel + 1) (lead ++ sign :: more) =
      (signedTerms? fuel rest).map (read.signed unit :: ·) := by
  have begun : (lead ++ sign :: more).isEmpty = false := by simp
  rw [signedTerms?, begun, trimStart_append blankLead,
    trimStart_cons (not_isBlank_of_sign isSign), readSign]
  show (term? _).bind _ = _
  rw [readTerm]
  show (signedTerms? fuel rest).bind _ = _
  cases signedTerms? fuel rest <;> rfl

/-- **The terms behind the first one are read** if there is fuel for all of them. -/
theorem exists_signedTerms?_of_form {rest : List Char} (isTail : TailForm rest) {fuel : Nat}
    (room : rest.length < fuel) : ∃ terms, signedTerms? fuel rest = some terms := by
  -- a sign is taken in each round, so the fuel outlasts the text
  induction isTail generalizing fuel with
  | nil =>
    cases fuel with
    | zero => exact absurd room (Nat.lt_irrefl 0)
    | succ fuel => exact ⟨[], rfl⟩
  | @cons lead gap term rest sign blankLead isSign blankGap isTerm isTail ih =>
    cases fuel with
    | zero => exact absurd room (Nat.not_lt_zero _)
    | succ fuel =>
      have shorter : rest.length < fuel := by
        simp only [List.length_append, List.length_cons] at room
        omega
      obtain ⟨value, readSign⟩ := exists_sign? isSign (gap ++ (term ++ rest))
      obtain ⟨read, readTerm⟩ := exists_term?_behind blankGap isTerm isTail
      obtain ⟨terms, readTail⟩ := ih shorter
      refine ⟨read.signed value :: terms, ?_⟩
      rw [signedTerms?_cons fuel blankLead isSign readSign readTerm, readTail]
      rfl

/-- What is read as a sign is one. -/
theorem eq_cons_of_sign? {text rest : List Char} {value : Int}
    (found : sign? text = some (value, rest)) :
    ∃ sign, (sign = '+' ∨ sign = '-') ∧ text = sign :: rest := by
  unfold sign? at found
  split at found
  · cases found
    exact ⟨'+', .inl rfl, rfl⟩
  · cases found
    exact ⟨'-', .inr rfl, rfl⟩
  · cases found

/-- What is read as a number is a run of digits. -/
theorem unsigned_of_decimal? {text rest : List Char} {read : Term}
    (found : decimal? text = some (read, rest)) :
    ∃ term, text = term ++ rest ∧ Numeral.Unsigned term := by
  obtain ⟨value, converts, same⟩ := Option.map_eq_some_iff.1 found
  obtain ⟨-, rfl⟩ := Prod.mk.inj same
  obtain ⟨number, converts, -⟩ := Option.bind_eq_some_iff.1 converts
  obtain ⟨nonempty, decimal⟩ := Numeral.isSome_natural?_iff.1 (Option.isSome_of_eq_some converts)
  exact ⟨_, List.takeWhile_append_dropWhile.symm, .decimal nonempty decimal⟩

/-- What is read as a term is one. -/
theorem form_of_term? {text rest : List Char} {read : Term}
    (found : term? text = some (read, rest)) : ∃ term, text = term ++ rest ∧ TermForm term := by
  -- a term that is read without a marker is a decimal number
  have ofDecimal : ∀ {text}, decimal? text = some (read, rest) →
      ∃ term, text = term ++ rest ∧ TermForm term := fun found =>
    let ⟨term, split, unsigned⟩ := unsigned_of_decimal? found
    ⟨term, split, .number unsigned⟩
  unfold term? at found
  split at found
  · next c more =>
    split at found
    · cases found
    · next other =>
      cases found
      exact ⟨['\'', c, '\''], rfl, .character other⟩
  -- behind a zero the marker decides which of the two it is
  · next x more =>
    split at found
    · next marker =>
      obtain ⟨value, converts, same⟩ := Option.map_eq_some_iff.1 found
      obtain ⟨-, rfl⟩ := Prod.mk.inj same
      obtain ⟨number, converts, -⟩ := Option.bind_eq_some_iff.1 converts
      obtain ⟨nonempty, hex⟩ := Numeral.isSome_natural?_iff.1 (Option.isSome_of_eq_some converts)
      refine ⟨'0' :: x :: more.takeWhile isHexDigit, ?_,
        .number (.hexadecimal marker nonempty hex)⟩
      show _ = '0' :: x :: (more.takeWhile isHexDigit ++ more.dropWhile isHexDigit)
      rw [List.takeWhile_append_dropWhile]
    · exact ofDecimal found
  · exact ofDecimal found

/-- What is read as the terms behind the first one is signs and terms. -/
theorem form_of_signedTerms? {fuel : Nat} {text : List Char} {terms : List Term}
    (found : signedTerms? fuel text = some terms) : TailForm text := by
  induction fuel generalizing text terms with
  | zero => cases found
  | succ fuel ih =>
    rw [signedTerms?] at found
    split at found
    · next empty =>
      rw [List.isEmpty_iff.1 empty]
      exact .nil
    · obtain ⟨⟨value, afterSign⟩, readSign, found⟩ := Option.bind_eq_some_iff.1 found
      obtain ⟨⟨read, rest⟩, readTerm, found⟩ := Option.bind_eq_some_iff.1 found
      obtain ⟨more, readTail, -⟩ := Option.bind_eq_some_iff.1 found
      obtain ⟨sign, isSign, start⟩ := eq_cons_of_sign? readSign
      obtain ⟨term, split, isTerm⟩ := form_of_term? readTerm
      -- the text is put together again, with the blanks that were passed over
      rw [← takeWhile_append_trimStart text, start, ← takeWhile_append_trimStart afterSign, split]
      exact .cons (allBlank_takeWhile text) isSign (allBlank_takeWhile afterSign) isTerm
        (ih readTail)

/-- The terms of a text whose sign in front, if there is one, has been read. -/
def termsFrom? (fuel : Nat) (sign : Int) (text : List Char) : Option (List Term) := do
  let (term, rest) ← term? (trimStart text)
  if rest.isEmpty then none
  else return term.signed sign :: (← signedTerms? fuel rest)

/-- An expression is its sign, if there is one in front, and its terms. -/
theorem parse?_eq_termsFrom? (text : List Char) :
    parse? text = termsFrom? (trim text).length ((sign? (trim text)).getD (1, trim text)).1
      ((sign? (trim text)).getD (1, trim text)).2 :=
  rfl

/-- A first term and what follows it. -/
theorem termsFrom?_of_term? {fuel : Nat} {text rest : List Char} {read : Term} (sign : Int)
    (readTerm : term? (trimStart text) = some (read, rest)) :
    termsFrom? fuel sign text =
      if rest = [] then none else (signedTerms? fuel rest).map (read.signed sign :: ·) := by
  rw [termsFrom?, readTerm]
  show (if rest.isEmpty = true then none else _) = _
  simp only [List.isEmpty_iff]
  cases signedTerms? fuel rest <;> rfl

/-- The terms behind the sign in front are a first term and at least one more. -/
theorem isSome_termsFrom?_iff {fuel : Nat} {sign : Int} {text : List Char}
    (room : text.length ≤ fuel) :
    (termsFrom? fuel sign text).isSome ↔
      ∃ gap term rest, text = gap ++ (term ++ rest) ∧ AllBlank gap ∧ TermForm term ∧
        TailForm rest ∧ rest ≠ [] := by
  constructor
  -- one term and the rest behind it, which is the rest that was read
  · intro isSome
    obtain ⟨terms, found⟩ := Option.isSome_iff_exists.1 isSome
    obtain ⟨⟨read, rest⟩, readTerm, found⟩ := Option.bind_eq_some_iff.1 found
    obtain ⟨term, split, isTerm⟩ := form_of_term? readTerm
    simp only at found
    split at found
    · cases found
    · next more =>
      obtain ⟨behind, readTail, -⟩ := Option.bind_eq_some_iff.1 found
      refine ⟨text.takeWhile isBlank, term, rest, ?_, allBlank_takeWhile text, isTerm,
        form_of_signedTerms? readTail, by simpa using more⟩
      rw [← split, takeWhile_append_trimStart]
  · rintro ⟨gap, term, rest, rfl, blankGap, isTerm, isTail, more⟩
    -- the fuel is the length of the text, and every term takes some of it
    have shorter : rest.length < fuel := by
      obtain ⟨c, behind, rfl, -⟩ := isTerm.exists_cons
      simp only [List.length_append, List.length_cons] at room
      omega
    obtain ⟨read, readTerm⟩ := exists_term?_behind blankGap isTerm isTail
    obtain ⟨terms, readTail⟩ := exists_signedTerms?_of_form isTail shorter
    rw [termsFrom?_of_term? sign readTerm, if_neg more, readTail]
    rfl

/-- Behind blanks and in front of a term, there is no sign. -/
theorem sign?_gap {gap term rest : List Char} (blankGap : AllBlank gap) (isTerm : TermForm term) :
    sign? (gap ++ (term ++ rest)) = none := by
  -- neither a blank nor the first character of a term is a sign
  have first : ∃ c more, gap ++ (term ++ rest) = c :: more ∧ ¬(c = '+' ∨ c = '-') := by
    cases gap with
    | nil =>
      obtain ⟨c, more, rfl, starts⟩ := isTerm.exists_cons
      exact ⟨c, more ++ rest, rfl, starts.noSign⟩
    | cons blank gap =>
      refine ⟨blank, _, rfl, fun isSign => ?_⟩
      have isBlank := blankGap blank (by simp)
      rw [not_isBlank_of_sign isSign] at isBlank
      cases isBlank
  obtain ⟨c, more, same, noSign⟩ := first
  cases found : sign? (gap ++ (term ++ rest)) with
  | none => rfl
  | some parts =>
    obtain ⟨sign, isSign, start⟩ := eq_cons_of_sign? found
    obtain ⟨rfl, -⟩ := List.cons.inj (same.symm.trans start)
    exact absurd isSign noSign

/-- **The texts with a value are the expressions.** -/
theorem isSome_value?_iff {text : List Char} : (value? text).isSome ↔ Form (trim text) := by
  rw [value?, Option.isSome_map, parse?_eq_termsFrom?]
  generalize trim text = text
  -- a sign in front is read before the first term, or there is none
  cases found : sign? text with
  | none =>
    show (termsFrom? text.length 1 text).isSome ↔ _
    rw [isSome_termsFrom?_iff (Nat.le_refl _)]
    constructor
    · rintro ⟨gap, term, rest, rfl, blankGap, isTerm, isTail, more⟩
      exact .unsigned blankGap isTerm isTail more
    · intro form
      cases form with
      | unsigned blankGap isTerm isTail more =>
        exact ⟨_, _, _, rfl, blankGap, isTerm, isTail, more⟩
      | signed isSign =>
        obtain ⟨value, isValue⟩ := exists_sign? isSign _
        rw [isValue] at found
        cases found
  | some parts =>
    obtain ⟨value, afterSign⟩ := parts
    obtain ⟨sign, isSign, rfl⟩ := eq_cons_of_sign? found
    show (termsFrom? (afterSign.length + 1) value afterSign).isSome ↔ _
    rw [isSome_termsFrom?_iff (Nat.le_succ _)]
    constructor
    · rintro ⟨gap, term, rest, rfl, blankGap, isTerm, isTail, more⟩
      exact .signed isSign blankGap isTerm isTail more
    · generalize same : sign :: afterSign = text at found
      intro form
      cases form with
      | unsigned blankGap isTerm =>
        rw [sign?_gap blankGap isTerm] at found
        cases found
      | signed _ blankGap isTerm isTail more =>
        obtain ⟨-, rfl⟩ := List.cons.inj same
        exact ⟨_, _, _, rfl, blankGap, isTerm, isTail, more⟩

end Expression

/-! ## Registers with offsets -/

/-- A letter of a register's name in either letter case; the long s is an S. -/
def SameLetter (letter c : Char) : Prop :=
  c = letter ∨ c = letter.toLower ∨ letter = 'S' ∧ c = 'ſ'

/-- The text is the name of a register, whatever the case of its letters. -/
def Pointer.Matches (pointer : Pointer) (text : List Char) : Prop :=
  List.Forall₂ SameLetter pointer.name.toList text

/-- The letters that names of registers are made of. -/
def nameLetters : List Char :=
  ['A', 'B', 'C', 'D', 'L', 'P', 'S']

theorem mem_nameLetters (pointer : Pointer) : ∀ letter ∈ pointer.name.toList, letter ∈ nameLetters := by
  have checked : pointer.name.toList.all nameLetters.contains = true := by
    cases pointer with
    | general register => cases register <;> rfl
    | stack => rfl
  exact fun letter mem => List.contains_iff_mem.1 (List.all_eq_true.1 checked letter mem)

theorem upperChar_of_sameLetter {letter c : Char} (known : letter ∈ nameLetters)
    (same : SameLetter letter c) : upperChar c = [letter] := by
  have checked : nameLetters.all (fun letter =>
      upperChar letter == [letter] && upperChar letter.toLower == [letter]) = true := by
    decide +kernel
  have letters := List.all_eq_true.1 checked letter known
  rw [Bool.and_eq_true, beq_iff_eq, beq_iff_eq] at letters
  rcases same with rfl | rfl | ⟨rfl, rfl⟩
  · exact letters.1
  · exact letters.2
  · decide +kernel

/-- The upper case of a name in any letter case. -/
theorem upper_of_forall₂ {name text : List Char} (same : List.Forall₂ SameLetter name text)
    (known : ∀ letter ∈ name, letter ∈ nameLetters) : upper text = name := by
  induction same with
  | nil => rfl
  | cons first _ ih =>
    rw [List.forall_mem_cons] at known
    rw [upper, List.flatMap_cons, upperChar_of_sameLetter known.1 first, ← upper, ih known.2]
    rfl

/-- **A name in any letter case is looked up with success.** -/
theorem ofText?_of_matches {pointer : Pointer} {text : List Char} (isName : pointer.Matches text) :
    Pointer.ofText? text = some pointer := by
  have known := mem_nameLetters pointer
  have reflexive : pointer.Matches pointer.name.toList :=
    List.forall₂_same.2 fun _ _ => .inl rfl
  -- only the upper case of a text counts
  have same : upper text = upper pointer.name.toList := by
    rw [upper_of_forall₂ isName known, upper_of_forall₂ reflexive known]
  rw [← Operand.ofText?_name pointer, Pointer.ofText?, Pointer.ofText?, same]

namespace Operand

/-- A register in any letter case, a sign with blanks around it, and something without blanks. -/
inductive OffsetForm : List Char → Prop
  | intro {pointer : Pointer} {sign : Char} {name lead gap digits : List Char}
      (isName : pointer.Matches name) (blankLead : AllBlank lead)
      (isSign : sign = '+' ∨ sign = '-') (blankGap : AllBlank gap) (nonempty : digits ≠ [])
      (noBlank : NoBlank digits) : OffsetForm (name ++ (lead ++ sign :: (gap ++ digits)))

/-- A register in any letter case and what is behind its sign are found again, with blanks around the
sign passed over. -/
theorem registerOffset?_of_parts {pointer : Pointer} {sign : Char} {unit : Int}
    {name lead gap digits : List Char} (isName : pointer.Matches name) (blankLead : AllBlank lead)
    (readSign : Expression.sign? (sign :: (gap ++ digits)) = some (unit, gap ++ digits))
    (blankGap : AllBlank gap) (nonempty : digits ≠ []) (noBlank : NoBlank digits) :
    registerOffset? (name ++ (lead ++ sign :: (gap ++ digits))) = some (pointer, unit, digits) := by
  have isSign : sign = '+' ∨ sign = '-' := by
    obtain ⟨other, isSign, same⟩ := Expression.eq_cons_of_sign? readSign
    rwa [(List.cons.inj same).1]
  have behind : trimStart (gap ++ digits) = digits := by
    rw [trimStart_append blankGap, trimStart_of_first noBlank.trimmed.first]
  have noneBlank : (digits.isEmpty || digits.any isBlank) = false := by
    rw [Bool.or_eq_false_iff, List.any_eq_false]
    exact ⟨by simpa using nonempty, fun c mem => by simp [noBlank c mem]⟩
  have offset : signedOffset? (lead ++ sign :: (gap ++ digits)) = some (unit, digits) := by
    rw [signedOffset?, trimStart_append blankLead,
      trimStart_cons (Expression.not_isBlank_of_sign isSign), readSign]
    show (if (trimStart (gap ++ digits)).isEmpty || _ then none else some _) = _
    rw [behind, noneBlank]
    rfl
  -- a name has two letters, in whichever case
  have known := ofText?_of_matches isName
  obtain ⟨c, d, twoLetters, -⟩ := exists_name pointer
  rw [Pointer.Matches, twoLetters] at isName
  obtain _ | ⟨-, _ | ⟨-, _ | _⟩⟩ := isName
  show (Pointer.ofText? _).bind _ = _
  rw [known]
  show (signedOffset? (lead ++ sign :: (gap ++ digits))).bind _ = _
  rw [offset]
  rfl

/-- **A register with an offset is taken apart**, and its register is known. -/
theorem exists_registerOffset?_of_form {inner : List Char} (form : OffsetForm inner) :
    ∃ parts, registerOffset? inner = some parts := by
  cases form with
  | @intro pointer sign name lead gap digits isName blankLead isSign blankGap nonempty noBlank =>
    obtain ⟨unit, readSign⟩ := Expression.exists_sign? isSign (gap ++ digits)
    exact ⟨(pointer, unit, digits),
      registerOffset?_of_parts isName blankLead readSign blankGap nonempty noBlank⟩

end Operand

/-! ## Statements -/

/-- **A statement is missing only from an empty text.** -/
theorem Source.isSome_parse_of_ne_nil {text : List Char} (trimmed : Trimmed text)
    (nonempty : text ≠ []) : (Source.Statement.parse text).isSome := by
  obtain ⟨c, rest, rfl⟩ := List.exists_cons_of_ne_nil nonempty
  have noBlank : isBlank c = false := trimmed.first c rfl
  rw [Source.Statement.parse_eq, Source.statementOf, List.takeWhile_cons_of_pos (by simp [noBlank])]
  rfl

end EightBit
