import EightBit.Proofs.Operand.Forms
import EightBit.Proofs.Operand.Notation
import EightBit.Proofs.Source.Line

/-!
# Operands that Name Labels

A label stands for itself as an operand, or in brackets. What is said here is what a text must look
like to be classified as one.

## Main Definitions

- `Mentions`: the text is a label, or a label in brackets.

## Main Statements

- `classify_reference`, `mentions_iff`: the texts that name labels are those that mention them.
- `simple_label`, `loose_addressOf`: these texts can stand in a list of operands.
- `not_label_of_number`: a number names no label.
-/

namespace EightBit.Operand

open Text Source

/-! ## The characters of names -/

/-- The code points that may start a label. -/
def nameStarts : Ranges :=
  [(46, 46), (65, 90), (97, 122)]

theorem contains_of_startsName {c : Char} (starts : startsName c = true) :
    nameStarts.contains c.toNat = true := by
  simp only [startsName, Bool.or_eq_true, beq_iff_eq, Bool.and_eq_true, decide_eq_true_iff,
    Char.le_def, UInt32.le_iff_toNat_le] at starts
  simp only [Ranges.contains, nameStarts, List.any_cons, List.any_nil, Bool.or_false,
    Bool.or_eq_true, Bool.and_eq_true, decide_eq_true_iff]
  rcases starts with (rfl | upper) | lower
  · exact .inl (by decide)
  · exact .inr (.inl upper)
  · exact .inr (.inr lower)

/-- A character that is not blank, and none of those with a meaning, is ink. -/
theorem isInk_of_ne {c : Char} (noBlank : isBlank c = false)
    (other : c ∉ ['"', '\'', ';', ',', '[', ']', ':']) : isInk c = true := by
  -- line breaks are blanks, so there is none either
  simp only [List.mem_cons, List.not_mem_nil, or_false, not_or] at other
  have noBreak : isLineBreak c = false := by
    by_contra breaks
    rw [isBlank_of_isLineBreak (Bool.not_eq_false _ ▸ breaks)] at noBlank
    cases noBlank
  simp [isInk, isPlain, isQuote, noBlank, noBreak, other]

theorem isInk_of_startsName {c : Char} (starts : startsName c = true) : isInk c = true := by
  refine isInk_of_ne ?_ fun mem => ?_
  · exact Ranges.not_contains_of_disjoint (by decide) (contains_of_startsName starts)
  · have none_starts := List.any_eq_false.1
      (show ['"', '\'', ';', ',', '[', ']', ':'].any startsName = false by decide)
    exact none_starts c mem starts

theorem isInk_of_isWord {c : Char} (word : isWord c = true) : isInk c = true := by
  refine isInk_of_ne ?_ fun mem => ?_
  · exact Ranges.not_contains_of_disjoint (by decide +kernel) word
  · have none_word := List.any_eq_false.1
      (show ['"', '\'', ';', ',', '[', ']', ':'].any isWord = false by decide +kernel)
    exact none_word c mem word

/-- What follows the start of a name is word characters, and perhaps a line feed. -/
theorem endsName_cases {text : List Char} (ends : endsName text = true) :
    (∀ c ∈ text, isWord c = true) ∨ text.getLast? = some '\n' := by
  induction text with
  | nil => exact .inl fun _ mem => nomatch mem
  | cons c rest ih =>
    rw [endsName.eq_def] at ends
    split at ends
    · next eq => cases eq
    -- a line feed is accepted only at the very end
    · next eq =>
      rw [eq]
      exact .inr rfl
    · next d more _ eq =>
      obtain ⟨rfl, rfl⟩ := List.cons.inj eq
      rw [Bool.and_eq_true] at ends
      rcases ih ends.2 with all | feed
      · exact .inl (List.forall_mem_cons.2 ⟨ends.1, all⟩)
      · right
        cases rest with
        | nil => cases feed
        | cons e others => rw [List.getLast?_cons_cons, feed]

/-- Without blanks at its ends, a name goes on with word characters only. -/
theorem isWord_of_isName {first : Char} {rest : List Char} (name : isName (first :: rest) = true)
    (trimmed : Trimmed (first :: rest)) : ∀ c ∈ rest, isWord c = true := by
  rw [isName, Bool.and_eq_true] at name
  rcases endsName_cases name.2 with all | feed
  · exact all
  -- a line feed at the end would be a blank there
  · have atEnd : (first :: rest).getLast? = some '\n' := by
      cases rest with
      | nil => cases feed
      | cons e others => rw [List.getLast?_cons_cons, feed]
    have := trimmed.last '\n' atEnd
    cases this

/-- A name without blanks at its ends is ink. -/
theorem ink_of_isName {text : List Char} (name : isName text = true) (trimmed : Trimmed text) :
    ∀ c ∈ text, isInk c = true := by
  cases text with
  | nil => cases name
  | cons first rest =>
    have words := isWord_of_isName name trimmed
    rw [isName, Bool.and_eq_true] at name
    exact List.forall_mem_cons.2
      ⟨isInk_of_startsName name.1, fun c mem => isInk_of_isWord (words c mem)⟩

theorem isName_of_isLabel {text : List Char} (label : isLabel text = true) : isName text = true := by
  rw [isLabel, Bool.and_eq_true] at label
  exact label.1

/-! ## Which operands name labels -/

theorem reference?_immediateOf {source : List Char} {value : Int} {operand : Operand}
    (ok : immediateOf source value = .ok operand) : operand.reference? = none := by
  rw [immediateOf] at ok
  split at ok
  · cases ok
    rfl
  · cases ok

theorem reference?_offsetFrom {inner : List Char} {pointer : Pointer} {offset : Int}
    {operand : Operand} (ok : offsetFrom inner pointer offset = .ok operand) :
    operand.reference? = none := by
  rw [offsetFrom] at ok
  split at ok
  · split at ok
    · cases ok
      rfl
    · cases ok
  · split at ok
    · cases ok
      rfl
    · cases ok

theorem reference?_classifyText {source : List Char} {operand : Operand}
    (ok : classifyText source = .ok operand) : operand.reference? = none := by
  rw [classifyText] at ok
  split at ok
  · cases ok
  · split at ok
    · cases ok
    · cases ok
      rfl

theorem reference?_classifyCharacter {source : List Char} {operand : Operand}
    (ok : classifyCharacter source = .ok operand) : operand.reference? = none := by
  unfold classifyCharacter at ok
  split at ok
  · split at ok
    · cases ok
    · cases ok
      rfl
  · cases ok

/-- In brackets, only a label names a label. -/
theorem classifyMemory_reference {limit : DigitLimit} {inner name : List Char} {operand : Operand}
    (ok : classifyMemory limit inner = .ok operand) (names : operand.reference? = some name) :
    operand = .addressOf name ∧ inner = name ∧ isLabel name = true := by
  rw [classifyMemory] at ok
  split at ok
  · cases ok
    cases names
  -- an offset or a number, and only then a label
  · split at ok
    · obtain ⟨value, -, ok⟩ := bind_ok_iff.1 ok
      cases value with
      | none => cases ok
      | some value =>
        rw [reference?_offsetFrom ok] at names
        cases names
    · obtain ⟨value, -, ok⟩ := bind_ok_iff.1 ok
      cases value with
      | some value =>
        simp only at ok
        split at ok
        · cases ok
          cases names
        · cases ok
      | none =>
        simp only at ok
        split at ok
        · next label =>
          cases ok
          cases names
          exact ⟨rfl, rfl, label⟩
        · cases ok

/-- Outside brackets, only a name that is no register names a label. -/
theorem classifyWord_reference {limit : DigitLimit} {source name : List Char} {operand : Operand}
    (ok : classifyWord limit source = .ok operand) (names : operand.reference? = some name) :
    operand = .label name ∧ source = name ∧ isLabel name = true := by
  rw [classifyWord] at ok
  -- a register is no label, and neither is a number
  split at ok
  · cases ok
  · cases ok
    cases names
  · next noRegister =>
    split at ok
    · next isName =>
      cases ok
      cases names
      exact ⟨rfl, rfl, by rw [isLabel, isName, noRegister]; rfl⟩
    · obtain ⟨value, -, ok⟩ := bind_ok_iff.1 ok
      cases value with
      | none => cases ok
      | some value =>
        rw [reference?_immediateOf ok] at names
        cases names

/-- **The operands that name labels**: the name alone, or the name in brackets. -/
theorem classify_reference {limit : DigitLimit} {source name : List Char} {operand : Operand}
    (ok : classify limit source = .ok operand) (names : operand.reference? = some name) :
    operand = .label name ∧ source = name ∧ isLabel name = true ∨
      operand = .addressOf name ∧ isLabel name = true ∧
        ∃ inner, source = '[' :: inner ++ [']'] ∧ trim inner = name := by
  unfold classify at ok
  -- by the first character: nothing, a bracket, a text, anything else
  split at ok
  · cases ok
  · next rest =>
    split at ok
    · next closed =>
      right
      obtain ⟨isAddress, inner, label⟩ := classifyMemory_reference ok names
      refine ⟨isAddress, label, rest.dropLast, ?_, inner⟩
      -- the bracket that closes is not the one that opens
      have nonempty : rest ≠ [] := by
        rintro rfl
        cases closed
      have last : rest.getLast nonempty = ']' := by
        rw [List.getLast?_cons_of_ne_nil nonempty, List.getLast?_eq_some_getLast nonempty] at closed
        exact Option.some.inj closed
      rw [List.cons_append, ← last, List.dropLast_append_getLast]
    · cases ok
  · rw [reference?_classifyText ok] at names
    cases names
  · next first more _ _ =>
    obtain ⟨value, -, ok⟩ := bind_ok_iff.1 ok
    cases value with
    | some value =>
      rw [reference?_immediateOf ok] at names
      cases names
    | none =>
      simp only at ok
      split at ok
      · rw [reference?_classifyCharacter ok] at names
        cases names
      · exact .inl (classifyWord_reference ok names)

/-! ## Their texts -/

/-- A name is a simple operand. -/
theorem simple_label {source : List Char} (name : isName source = true)
    (trimmed : Trimmed source) : Simple source := by
  refine simple_of_ink (ink_of_isName name trimmed) ?_
  rintro rfl
  cases name

/-- A label in brackets is a loose operand: the blanks around it may be line breaks. -/
theorem loose_addressOf {inner : List Char} (label : isLabel (trim inner) = true) :
    Loose ('[' :: inner ++ [']']) := by
  have ink := ink_of_isName (isName_of_isLabel label) (trimmed_trim inner)
  obtain ⟨lead, trail, blankLead, blankTrail, -, shape⟩ := exists_eq_append_trim inner
  refine ⟨trimmed_of_ends rfl (by decide) (by decide), by simp, .inr ⟨inner, rfl, ?_⟩⟩
  rw [shape]
  -- blanks and ink are plain, and there is nothing else between the brackets
  intro c mem
  simp only [List.mem_append] at mem
  rcases mem with (inLead | inName) | inTrail
  · exact isPlain_of_isBlank (blankLead c inLead)
  · exact (plain_of_ink ink c inName).1
  · exact isPlain_of_isBlank (blankTrail c inTrail)

/-- A text that starts like a name or with a bracket is no numeral. -/
theorem parse?_of_start {c : Char} {text : List Char} (start : startsName c = true ∨ c = '[') :
    Numeral.parse? (c :: text) = none := by
  -- the first character is no blank to skip, no digit, no sign, and starts no marker
  have facts : isBlank c = false ∧ digitValue? c = none ∧ c ≠ '-' ∧ c ≠ '0' := by
    rcases start with starts | rfl
    · have code := contains_of_startsName starts
      have ne : ∀ d, startsName d = false → c ≠ d := by
        rintro d other rfl
        rw [starts] at other
        cases other
      have noDigit : digitRanges.contains c.toNat = false :=
        Ranges.not_contains_of_disjoint (by decide) code
      refine ⟨Ranges.not_contains_of_disjoint (by decide) code, ?_, ne '-' (by decide),
        ne '0' (by decide)⟩
      rw [digitValue?, Option.map_eq_none_iff, List.find?_eq_none]
      exact List.any_eq_false.1 noDigit
    · decide
  obtain ⟨noBlank, noDigit, noSign, noZero⟩ := facts
  obtain ⟨more, trimmed⟩ := exists_trim_cons noBlank text
  have magnitude : Numeral.magnitude? (c :: more) = none := by
    unfold Numeral.magnitude?
    split
    · next eq => exact absurd (List.cons.inj eq).1 noZero
    · next eq => exact absurd (List.cons.inj eq).1 noZero
    · simp [Numeral.natural?, List.mapM_cons, noDigit]
  rw [Numeral.parse?, trimmed, Numeral.signed?.eq_def]
  split
  · next eq => exact absurd (List.cons.inj eq).1 noSign
  · rw [magnitude]
    rfl

theorem parse?_of_isName {text : List Char} (name : isName text = true) :
    Numeral.parse? text = none := by
  cases text with
  | nil => cases name
  | cons c text =>
    rw [isName, Bool.and_eq_true] at name
    exact parse?_of_start (.inl name.1)

/-- **A number names no label.** -/
theorem not_label_of_number {limit : DigitLimit} {source : List Char} {value : Int}
    (isNumber : number limit source = .ok (some value)) {operand : Operand}
    (ok : classify limit source = .ok operand) : operand.reference? = none := by
  have parsed : Numeral.parse? source ≠ none := by
    intro none_parsed
    rw [number, Numeral.read_of_not_parse? none_parsed] at isNumber
    cases isNumber
  cases names : operand.reference? with
  | none => rfl
  | some name =>
    exfalso
    -- a name starts like no number, and neither does a bracket
    rcases classify_reference ok names with ⟨-, rfl, label⟩ | ⟨-, -, inner, rfl, -⟩
    · exact parsed (parse?_of_isName (isName_of_isLabel label))
    · exact parsed (parse?_of_start (.inr rfl))

/-! ## Texts that mention labels -/

/-- The text is the label, or the label in brackets. -/
def Mentions (text label : List Char) : Prop :=
  isLabel label = true ∧
    (text = label ∨ ∃ inner, text = '[' :: inner ++ [']'] ∧ trim inner = label)

/-- What is no label and does not start with a bracket mentions none. -/
theorem not_mentions {text : List Char} (noLabel : isLabel text = false)
    (noBracket : text.head? ≠ some '[') (label : List Char) : ¬Mentions text label := by
  rintro ⟨isLabel, rfl | ⟨inner, rfl, -⟩⟩
  · rw [noLabel] at isLabel
    cases isLabel
  · exact noBracket rfl

/-- A name alone is no expression. -/
theorem classify_of_isName (limit : DigitLimit) {source : List Char} (trimmed : Trimmed source)
    (name : isName source = true) : classify limit source = classifyWord limit source := by
  cases source with
  | nil => cases name
  | cons c text =>
    rw [isName, Bool.and_eq_true] at name
    -- the first character of a name begins no other kind of operand
    have ne : ∀ d, startsName d = false → c ≠ d := by
      rintro d other rfl
      rw [name.1] at other
      cases other
    -- nor is it a digit, since the tables of both are apart
    have noDigit : isDigit c = false := by
      by_contra digit
      have inRange := contains_of_isDigit (Bool.not_eq_false _ ▸ digit)
      have outside : nameStarts.contains c.toNat = false :=
        Ranges.not_contains_of_disjoint (by decide) inRange
      rw [contains_of_startsName name.1] at outside
      cases outside
    apply classify_word limit (ne '[' (by decide)) (ne '"' (by decide)) (ne '\'' (by decide))
    exact parse?_of_first trimmed noDigit ⟨ne '+' (by decide), ne '-' (by decide)⟩
      (ne '\'' (by decide))

/-- No name has a sign behind a register. -/
theorem registerOffset?_of_isName {inner : List Char} (trimmed : Trimmed inner)
    (name : isName inner = true) : registerOffset? inner = none := by
  unfold registerOffset?
  split
  · next c d rest =>
    have words := isWord_of_isName name trimmed
    -- behind two characters a sign would have to stand, and a sign is part of no word
    have noSign : Expression.sign? (trimStart rest) = none := by
      cases found : Expression.sign? (trimStart rest) with
      | none => rfl
      | some parts =>
        obtain ⟨sign, isSign, begins⟩ := Expression.eq_cons_of_sign? found
        have inRest : sign ∈ rest := by
          apply (List.dropWhile_suffix _).mem
          rw [← trimStart, begins]
          exact List.mem_cons_self
        have notWord : isWord sign = false := by
          rcases isSign with rfl | rfl <;> decide +kernel
        rw [words sign (List.mem_cons_of_mem d inRest)] at notWord
        cases notWord
    simp [signedOffset?, noSign]
  · rfl

/-- A label alone is classified as one. -/
theorem classify_label (limit : DigitLimit) {label : List Char} (trimmed : Trimmed label)
    (isLabel : isLabel label = true) : classify limit label = .ok (.label label) := by
  have name := isName_of_isLabel isLabel
  rw [Operand.isLabel, name, Bool.true_and, Option.isNone_iff_eq_none] at isLabel
  rw [classify_of_isName limit trimmed name, classifyWord, isLabel]
  exact if_pos name

/-- A label in brackets is classified as the byte there. -/
theorem classifyMemory_label (limit : DigitLimit) {label : List Char} (trimmed : Trimmed label)
    (isLabel : isLabel label = true) : classifyMemory limit label = .ok (.addressOf label) := by
  have name := isName_of_isLabel isLabel
  have noRegister : Pointer.ofText? label = none := by
    rw [Operand.isLabel, name, Bool.true_and, Option.isNone_iff_eq_none] at isLabel
    exact isLabel
  have noNumber : number limit label = .ok none := by
    rw [number, Numeral.read_of_not_parse? (parse?_of_isName name)]
    rfl
  rw [classifyMemory, noRegister, registerOffset?_of_isName trimmed name, noNumber]
  exact if_pos isLabel

/-- **The texts that name labels are those that mention them.** -/
theorem mentions_iff (limit : DigitLimit) {text label : List Char} (trimmed : Trimmed text) :
    Mentions text label ↔
      ∃ operand, classify limit text = .ok operand ∧ operand.reference? = some label := by
  constructor
  · rintro ⟨isLabel, rfl | ⟨inner, rfl, rfl⟩⟩
    · exact ⟨_, classify_label limit trimmed isLabel, rfl⟩
    · refine ⟨.addressOf (trim inner), ?_, rfl⟩
      rw [classify_brackets]
      exact classifyMemory_label limit (trimmed_trim inner) isLabel
  · rintro ⟨operand, ok, names⟩
    rcases classify_reference ok names with ⟨-, rfl, label⟩ | ⟨-, label, inner, shape, isInner⟩
    · exact ⟨label, .inl rfl⟩
    · exact ⟨label, .inr ⟨inner, shape, isInner⟩⟩

end EightBit.Operand
