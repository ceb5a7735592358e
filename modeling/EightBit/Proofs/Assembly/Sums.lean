import EightBit.Proofs.Assembly.Statement
import EightBit.Proofs.Numeral.Exactness

/-!
# Sums

Numbers and characters that are joined by signs denote the sum of their values. Such a sum is read
as one operand wherever it stands in a line, though its characters may be commas, semicolons or
signs, and it is accepted as an immediate byte if the sum is one, with sign or without.

## Main Definitions

- `Atom`, `Summand`, `Expression.Written`: sums as they are written, with blanks between all parts.
- `Written.value`, `Written.byte`: the sum, and the byte that stands for it.
- `Written.Accepted`: the sum is a byte, and its numbers have not too many digits.

## Main Statements

- `Written.parse?_text`: a sum is taken apart into its terms, with their signs.
- `Written.classify_ok_iff`: as an operand, a sum is an immediate byte or nothing.
- `Written.operands_parse`: a sum in a line is one operand.
- `denotes_sum`: a sum is read as its value, and stands for the byte of it in data and instructions.
- `exists_sum_refused`: it is refused if there are too many zeros in front of a term.
-/

namespace EightBit

/-- Checks that are made one after the other succeed if each of them does. -/
theorem forM_ok_iff {ε α : Type} {check : α → Except ε Unit} {items : List α} :
    items.forM check = .ok () ↔ ∀ item ∈ items, check item = .ok () := by
  induction items with
  | nil => exact ⟨fun _ => nofun, fun _ => rfl⟩
  | cons item rest ih =>
    show check item >>= (fun _ => rest.forM check) = _ ↔ _
    rw [bind_ok_iff, List.forall_mem_cons, ih]
    exact ⟨fun ⟨_, first, later⟩ => ⟨first, later⟩, fun ⟨first, later⟩ => ⟨(), first, later⟩⟩

/-- A list with a given item inside is read if that item is and what stands around it. -/
theorem mapM_around_ok_iff {ε α β : Type} {f : α → Except ε β} {before after : List α} {item : α}
    {values : List β} :
    (before ++ item :: after).mapM f = .ok values ↔ ∃ front value back,
      before.mapM f = .ok front ∧ f item = .ok value ∧ after.mapM f = .ok back ∧
        values = front ++ value :: back := by
  -- the list is cut at the item that is looked at; the two ends are read for themselves
  rw [List.mapM_append, bind_ok_iff]
  constructor
  · rintro ⟨front, first, ok⟩
    obtain ⟨later, ok, same⟩ := bind_ok_iff.1 ok
    rw [List.mapM_cons] at ok
    obtain ⟨value, here, ok⟩ := bind_ok_iff.1 ok
    obtain ⟨back, behind, ok⟩ := bind_ok_iff.1 ok
    cases ok
    cases same
    exact ⟨front, value, back, first, here, behind, rfl⟩
  · rintro ⟨front, value, back, first, here, behind, rfl⟩
    refine ⟨front, first, ?_⟩
    rw [List.mapM_cons, here, behind]
    rfl

namespace Expression

open Text Source

/-! ## Parts -/

/-- A sign between two terms, or in front of the first one. -/
inductive Sign
  | plus
  | minus

namespace Sign

/-- How a sign is written. -/
def char : Sign → Char
  | plus => '+'
  | minus => '-'

/-- What the value behind a sign is multiplied by. -/
def unit : Sign → Int
  | plus => 1
  | minus => -1

variable (sign : Sign)

theorem isSign_char : sign.char = '+' ∨ sign.char = '-' := by
  cases sign with
  | plus => exact .inl rfl
  | minus => exact .inr rfl

theorem isPlain_char : isPlain sign.char = true := by
  cases sign <;> rfl

theorem sign?_char (rest : List Char) : sign? (sign.char :: rest) = some (sign.unit, rest) := by
  cases sign <;> rfl

end Sign

/-- A term as it is written: a number, or any character but a single quote in single quotes. -/
inductive Atom
  | number (number : Numeral.Written)
  | character (c : Char) (other : c ≠ '\'')

namespace Atom

/-- The text of a term. -/
def text : Atom → List Char
  | .number n => n.text
  | .character c _ => ['\'', c, '\'']

/-- What a term stands for, and the number of its decimal digits. -/
def term : Atom → Term
  | .number n => ⟨n.value, n.decimals⟩
  | .character c _ => { value := c.toNat }

variable (atom : Atom)

theorem form : TermForm atom.text := by
  cases atom with
  | number n => exact .number n.unsigned_text
  | character c other => exact .character other

theorem inert : Inert atom.text := by
  cases atom with
  | number n => exact n.inert
  | character c other => exact inert_literal c

theorem trimmed : Trimmed atom.text := by
  cases atom with
  | number n => exact n.unsigned_text.noBlank.trimmed
  | character c other => exact trimmed_literal c

/-- A term starts with a quote or a digit. -/
theorem exists_cons_text : ∃ c more, atom.text = c :: more ∧ (c = '\'' ∨ isDigit c = true) := by
  cases atom with
  | number n =>
    obtain ⟨c, more, shape, digit⟩ := n.exists_cons_text
    exact ⟨c, more, shape, .inr digit⟩
  | character c other => exact ⟨_, _, rfl, .inl rfl⟩

/-- **A term is read**, up to its end. -/
theorem term?_text {rest : List Char} (ends : ∀ c ∈ rest.head?, EndsNumber c) :
    term? (atom.text ++ rest) = some (atom.term, rest) := by
  cases atom with
  | number n => exact n.term?_text ends
  | character c other => exact if_neg other

end Atom

/-- A sign and the term behind it. -/
structure Summand where
  lead : Blanks
  sign : Sign
  gap : Blanks
  atom : Atom

namespace Summand

/-- The text of a summand, with the blanks in front of it. -/
def text (summand : Summand) : List Char :=
  summand.lead.text ++ summand.sign.char :: (summand.gap.text ++ summand.atom.text)

/-- The term of a summand, with its sign. -/
def term (summand : Summand) : Term :=
  summand.atom.term.signed summand.sign.unit

theorem inert (summand : Summand) : Inert summand.text :=
  (inert_of_allBlank summand.lead.blank).append
    (inert_cons summand.sign.isPlain_char
      ((inert_of_allBlank summand.gap.blank).append summand.atom.inert))

variable (summands : List Summand)

/-- Summands make a text that goes on behind a term. -/
theorem tailForm : TailForm (summands.flatMap text) := by
  induction summands with
  | nil => exact .nil
  | cons summand rest ih =>
    have here := TailForm.cons summand.lead.blank summand.sign.isSign_char summand.gap.blank
      summand.atom.form ih
    simpa [text] using here

/-- **Summands are read one after the other.** -/
theorem signedTerms?_text {fuel : Nat} (room : (summands.flatMap text).length < fuel) :
    signedTerms? fuel (summands.flatMap text) = some (summands.map term) := by
  -- a sign is taken in each round, so the fuel outlasts the text
  induction summands generalizing fuel with
  | nil =>
    cases fuel with
    | zero => exact absurd room (Nat.lt_irrefl 0)
    | succ fuel => rfl
  | cons summand rest ih =>
    cases fuel with
    | zero => exact absurd room (Nat.not_lt_zero _)
    | succ fuel =>
      have shape : (summand :: rest).flatMap text = summand.lead.text ++ summand.sign.char ::
          (summand.gap.text ++ (summand.atom.text ++ rest.flatMap text)) := by
        simp [text]
      have shorter : (rest.flatMap text).length < fuel := by
        rw [shape] at room
        simp only [List.length_append, List.length_cons] at room
        omega
      have readTerm : term? (trimStart
          (summand.gap.text ++ (summand.atom.text ++ rest.flatMap text))) =
          some (summand.atom.term, rest.flatMap text) := by
        rw [trimStart_gap summand.gap.blank summand.atom.form]
        exact summand.atom.term?_text (tailForm rest).endsNumber
      rw [shape, signedTerms?_cons fuel summand.lead.blank summand.sign.isSign_char
        (summand.sign.sign?_char _) readTerm, ih shorter]
      rfl

end Summand

/-! ## Sums -/

/-- A sum as it is written: two terms or more, and perhaps a sign in front. -/
structure Written where
  opening : Option (Sign × Blanks)
  first : Atom
  second : Summand
  rest : List Summand

namespace Written

variable (e : Written)

/-- The summands behind the first term. -/
def summands : List Summand :=
  e.second :: e.rest

/-- The text of the sign in front. -/
def openingText : List Char :=
  match e.opening with
  | none => []
  | some (sign, gap) => sign.char :: gap.text

/-- What the first term is multiplied by. -/
def unit : Int :=
  match e.opening with
  | none => 1
  | some (sign, _) => sign.unit

/-- The text of a sum. -/
def text : List Char :=
  e.openingText ++ (e.first.text ++ e.summands.flatMap Summand.text)

/-- The terms of a sum, with their signs. -/
def terms : List Term :=
  e.first.term.signed e.unit :: e.summands.map Summand.term

/-- The sum of the terms, each of which is added or subtracted. -/
def value : Int :=
  e.unit * e.first.term.value +
    (e.summands.map fun summand => summand.sign.unit * summand.atom.term.value).sum

/-- The byte that a sum stands for. -/
def byte : UInt8 :=
  UInt8.ofNat (e.value % 256).toNat

theorem value_terms : Expression.value e.terms = e.value := by
  show e.unit * e.first.term.value + ((e.summands.map Summand.term).map Term.value).sum = _
  rw [List.map_map]
  rfl

theorem inert_openingText : Inert e.openingText := by
  unfold openingText
  split
  · exact inert_of_allBlank AllBlank.nil
  · next sign gap _ => exact inert_cons sign.isPlain_char (inert_of_allBlank gap.blank)

/-- **A sum is inert.** -/
theorem inert_text : Inert e.text := by
  have behind : ∀ summands : List Summand, Inert (summands.flatMap Summand.text) := by
    intro summands
    induction summands with
    | nil => exact inert_of_allBlank AllBlank.nil
    | cons summand rest ih => exact summand.inert.append ih
  exact e.inert_openingText.append (e.first.inert.append (behind e.summands))

/-- A sum starts with a sign, a quote or a digit. -/
theorem exists_cons_text :
    ∃ c more, e.text = c :: more ∧ isBlank c = false ∧ c ∉ [':', '[', '"'] := by
  unfold text openingText
  split
  · obtain ⟨c, more, shape, start⟩ := e.first.exists_cons_text
    have noBlank := e.first.trimmed.first c (by rw [shape]; rfl)
    refine ⟨c, more ++ e.summands.flatMap Summand.text, by rw [shape]; rfl, noBlank, ?_⟩
    rcases start with rfl | digit
    · decide
    · exact not_mem_of_isDigit digit (by decide)
  · next sign gap _ =>
    exact ⟨sign.char, _, rfl, not_isBlank_of_sign sign.isSign_char, by cases sign <;> decide⟩

theorem trimmed_text : Trimmed e.text where
  first c mem := by
    obtain ⟨d, more, shape, noBlank, -⟩ := e.exists_cons_text
    rw [shape] at mem
    exact Option.some.inj mem ▸ noBlank
  last c mem := by
    -- the last summand ends with a term
    obtain ⟨init, last, split⟩ := (List.eq_nil_or_concat' e.summands).resolve_left nofun
    have nonempty : last.atom.text ≠ [] := by
      obtain ⟨d, more, shape, -⟩ := last.atom.exists_cons_text
      rw [shape]
      exact List.cons_ne_nil d more
    have shape : e.text = e.openingText ++ (e.first.text ++ (init.flatMap Summand.text ++
        (last.lead.text ++ last.sign.char :: last.gap.text))) ++ last.atom.text := by
      simp [text, split, Summand.text]
    rw [shape, List.getLast?_append_of_ne_nil _ nonempty] at mem
    exact last.atom.trimmed.last c mem

/-- **A sum is taken apart into its terms**, with blanks around it. -/
theorem parse?_text (lead trail : Blanks) :
    parse? (lead.text ++ e.text ++ trail.text) = some e.terms := by
  rw [parse?_eq_termsFrom?, trim_between_blanks lead.blank e.trimmed_text trail.blank]
  have more : e.summands.flatMap Summand.text ≠ [] := by
    simp [summands, Summand.text]
  have room : (e.summands.flatMap Summand.text).length < e.text.length := by
    obtain ⟨c, others, shape, -⟩ := e.first.exists_cons_text
    rw [text, shape]
    simp only [List.length_append, List.length_cons]
    omega
  have readTail := Summand.signedTerms?_text e.summands room
  -- the sign in front is read, or there is none and the first term starts the text
  obtain ⟨gap, blankGap, readSign⟩ : ∃ gap, AllBlank gap ∧ (sign? e.text).getD (1, e.text) =
      (e.unit, gap ++ (e.first.text ++ e.summands.flatMap Summand.text)) := by
    unfold text openingText unit
    split
    · refine ⟨[], AllBlank.nil, ?_⟩
      rw [sign?_gap AllBlank.nil e.first.form]
      rfl
    · next sign gap _ =>
      refine ⟨gap.text, gap.blank, ?_⟩
      rw [List.cons_append, sign.sign?_char]
      rfl
  have readTerm : term? (trimStart
      (gap ++ (e.first.text ++ e.summands.flatMap Summand.text))) =
      some (e.first.term, e.summands.flatMap Summand.text) := by
    rw [trimStart_gap blankGap e.first.form]
    exact e.first.term?_text (Summand.tailForm e.summands).endsNumber
  rw [readSign, termsFrom?_of_term? e.unit readTerm, if_neg more, readTail]
  rfl

/-! ## Values -/

/-- No number in the sum has too many digits. -/
def Within (limit : DigitLimit) : Prop :=
  ∀ most ∈ limit, ∀ term ∈ e.terms, term.digits ≤ most

/-- **A sum is read as its value**, with blanks around it, if no number has too many digits. -/
theorem read_ok_iff {limit : DigitLimit} (lead trail : Blanks) {value : Option Int} :
    read limit (lead.text ++ e.text ++ trail.text) = .ok value ↔
      e.Within limit ∧ value = some e.value := by
  rw [read, e.parse?_text]
  refine bind_ok_iff.trans ?_
  -- the check of the digits succeeds if and only if every term is within the limit
  have checked : (e.terms.forM fun term => limit.check term.digits) = .ok () ↔ e.Within limit := by
    simp only [forM_ok_iff, DigitLimit.check_eq_ok_iff]
    exact ⟨fun room most isLimit term mem => room term mem most isLimit,
      fun within term mem most isLimit => within most isLimit term mem⟩
  rw [← checked, ← e.value_terms]
  constructor
  · rintro ⟨_, ok, same⟩
    cases same
    exact ⟨ok, rfl⟩
  · rintro ⟨ok, rfl⟩
    exact ⟨(), ok, rfl⟩

/-- The sum can be an immediate byte: no number has too many digits, and the value is a byte with or
without sign. -/
structure Accepted (limit : DigitLimit) : Prop where
  within : e.Within limit
  inRange : -128 ≤ e.value ∧ e.value ≤ 255

variable {e}

/-- **As an operand, a sum is an immediate byte** or nothing. -/
theorem classify_ok_iff {limit : DigitLimit} {operand : Operand} :
    Operand.classify limit e.text = .ok operand ↔
      e.Accepted limit ∧ operand = .immediate e.byte := by
  -- the text of a sum has no blanks around it, so it is read as it stands
  have isSum : ∀ {value}, Operand.expression limit e.text = .ok value ↔
      e.Within limit ∧ value = some e.value := by
    intro value
    have read : Expression.read limit ([] ++ e.text ++ []) = .ok value ↔ _ :=
      e.read_ok_iff ⟨[], AllBlank.nil⟩ ⟨[], AllBlank.nil⟩
    rw [List.append_nil, List.nil_append] at read
    rw [← read, Operand.expression]
    cases Expression.read limit e.text with
    | ok value => simp [Except.mapError]
    | error excess => simp [Except.mapError]
  -- the first character of a sum opens no other form of operand
  obtain ⟨c, more, shape, -, other⟩ := e.exists_cons_text
  simp only [List.mem_cons, List.not_mem_nil, or_false, not_or] at other
  rw [shape] at isSum ⊢
  rw [Operand.classify_of_first limit other.2.1 other.2.2, bind_ok_iff]
  simp only [isSum]
  constructor
  · rintro ⟨_, ⟨within, rfl⟩, ok⟩
    change Operand.immediateOf _ e.value = _ at ok
    rw [Operand.immediateOf] at ok
    -- the value is within the limit; what remains is its range
    split at ok
    · next inRange =>
      cases ok
      exact ⟨⟨within, inRange⟩, rfl⟩
    · cases ok
  · rintro ⟨accepted, rfl⟩
    refine ⟨_, ⟨accepted.within, rfl⟩, ?_⟩
    show Operand.immediateOf _ e.value = _
    rw [Operand.immediateOf, if_pos accepted.inRange]
    rfl

theorem dataItem_ok_iff {limit : DigitLimit} {cells : List Cell} :
    Effect.dataItem limit e.text = .ok cells ↔ e.Accepted limit ∧ cells = [.byte e.byte] := by
  rw [Effect.dataItem, bind_ok_iff]
  simp only [classify_ok_iff]
  constructor
  · rintro ⟨_, ⟨accepted, rfl⟩, ok⟩
    cases ok
    exact ⟨accepted, rfl⟩
  · rintro ⟨accepted, rfl⟩
    exact ⟨_, ⟨accepted, rfl⟩, rfl⟩

/-! ## Lines -/

variable {limit : DigitLimit} {before after : List (List Char)}

/-- Among items of data, a sum contributes its byte. -/
theorem dataCells_ok_iff {cells : List Cell} :
    Effect.dataCells limit (before ++ e.text :: after) = (cells, none) ↔
      e.Accepted limit ∧ ∃ front back, Effect.dataCells limit before = (front, none) ∧
        Effect.dataCells limit after = (back, none) ∧ cells = front ++ .byte e.byte :: back := by
  simp only [Effect.dataCells_ok_iff, mapM_around_ok_iff, dataItem_ok_iff]
  constructor
  · rintro ⟨_, ⟨front, _, back, first, ⟨accepted, rfl⟩, behind, rfl⟩, rfl⟩
    exact ⟨accepted, _, _, ⟨front, first, rfl⟩, ⟨back, behind, rfl⟩, by simp⟩
  · rintro ⟨accepted, _, _, ⟨front, first, rfl⟩, ⟨back, behind, rfl⟩, rfl⟩
    exact ⟨_, ⟨front, _, back, first, ⟨accepted, rfl⟩, behind, rfl⟩, by simp⟩

/-- Among the operands of an instruction, a sum is an immediate operand and contributes its byte. -/
theorem instrCells_ok_iff {mnemonic : List Char} {cells : List Cell} :
    Effect.instrCells limit mnemonic (before ++ e.text :: after) = .ok cells ↔
      e.Accepted limit ∧ String.ofList mnemonic ∈ Instr.mnemonics ∧ ∃ front back instr,
        before.mapM (Operand.classify limit) = .ok front ∧
        after.mapM (Operand.classify limit) = .ok back ∧
        Instr.lookup? (String.ofList mnemonic)
          (front.map Operand.shape ++ .immediate :: back.map Operand.shape) = some instr ∧
        cells = .byte (UInt8.ofNat instr.opcode) ::
          (front.map Operand.cell ++ .byte e.byte :: back.map Operand.cell) := by
  simp only [Effect.instrCells_ok_iff, mapM_around_ok_iff, classify_ok_iff]
  constructor
  -- an expression has the shape of an immediate and one byte for its cell
  · rintro ⟨known, _, instr, ⟨front, _, back, first, ⟨accepted, rfl⟩, behind, rfl⟩, found, rfl⟩
    rw [List.map_append, List.map_cons] at found
    refine ⟨accepted, known, front, back, instr, first, behind, found, ?_⟩
    rw [List.map_append, List.map_cons]
    rfl
  · rintro ⟨accepted, known, front, back, instr, first, behind, found, rfl⟩
    refine ⟨known, _, instr, ⟨front, _, back, first, ⟨accepted, rfl⟩, behind, rfl⟩, ?_, ?_⟩
    · rw [List.map_append, List.map_cons]
      exact found
    · rw [List.map_append, List.map_cons]
      rfl

/-- **A sum in a line is one operand**, whatever stands in it and around it. -/
theorem operands_parse (frame : Frame) (lead trail : Blanks)
    (others : ∀ other ∈ before ++ after, IsOperand other)
    (oneLine : '\n' ∉ frame.line (before ++ (lead.text ++ e.text ++ trail.text) :: after)) :
    (Line.parse (frame.line (before ++ (lead.text ++ e.text ++ trail.text) :: after))).statement =
      some ⟨upper frame.word, before.map trim ++ e.text :: after.map trim⟩ := by
  -- the sum is one operand: it has no separator of the line in it
  have isOperand : IsOperand (lead.text ++ e.text ++ trail.text) := by
    obtain ⟨c, more, shape, noBlank, other⟩ := e.exists_cons_text
    refine e.inert_text.isOperand lead.blank trail.blank ⟨c, more, shape, noBlank, ?_⟩
    exact fun colon => other (by simp [colon])
  -- so are its neighbours, and each of them is trimmed for itself
  have areOperands : ∀ operand ∈ before ++ (lead.text ++ e.text ++ trail.text) :: after,
      IsOperand operand := by
    intro operand mem
    rcases List.mem_append.1 mem with inFront | behind
    · exact others operand (List.mem_append_left _ inFront)
    · rcases List.mem_cons.1 behind with rfl | inBack
      · exact isOperand
      · exact others operand (List.mem_append_right _ inBack)
  rw [frame.parse_line (by simp) areOperands oneLine, List.map_append, List.map_cons,
    trim_between_blanks lead.blank e.trimmed_text trail.blank]

end Written

/-- **A sum denotes its value.** It is read as the signed sum of its terms. As an operand it is an
immediate byte, and it is accepted if the value is a byte with or without sign. In a line it is one
operand, which contributes that byte to data as well as to an instruction. -/
theorem denotes_sum (e : Written) (limit : DigitLimit) (lead trail : Blanks) :
    let padded := lead.text ++ e.text ++ trail.text
    value? padded = some e.value ∧
    (∀ value, read limit padded = .ok value ↔ e.Within limit ∧ value = some e.value) ∧
    (∀ operand, Operand.classify limit e.text = .ok operand ↔
      e.Accepted limit ∧ operand = .immediate e.byte) ∧
    ∀ (frame : Frame) (before after : List (List Char)),
      (∀ other ∈ before ++ after, IsOperand other) →
      '\n' ∉ frame.line (before ++ padded :: after) →
      ∃ statement,
        (Line.parse (frame.line (before ++ padded :: after))).statement = some statement ∧
        statement.mnemonic = upper frame.word ∧
        statement.operands = before.map trim ++ e.text :: after.map trim ∧
        (∀ cells, Effect.dataCells limit statement.operands = (cells, none) ↔
          e.Accepted limit ∧ ∃ front back,
            Effect.dataCells limit (before.map trim) = (front, none) ∧
            Effect.dataCells limit (after.map trim) = (back, none) ∧
            cells = front ++ .byte e.byte :: back) ∧
        ∀ cells, Effect.instrCells limit statement.mnemonic statement.operands = .ok cells ↔
          e.Accepted limit ∧ String.ofList statement.mnemonic ∈ Instr.mnemonics ∧
            ∃ front back instr,
              (before.map trim).mapM (Operand.classify limit) = .ok front ∧
              (after.map trim).mapM (Operand.classify limit) = .ok back ∧
              Instr.lookup? (String.ofList statement.mnemonic)
                (front.map Operand.shape ++ .immediate :: back.map Operand.shape) = some instr ∧
              cells = .byte (UInt8.ofNat instr.opcode) ::
                (front.map Operand.cell ++ .byte e.byte :: back.map Operand.cell) := by
  intro padded
  refine ⟨?_, fun _ => e.read_ok_iff lead trail, fun _ => Written.classify_ok_iff, ?_⟩
  · rw [value?, e.parse?_text, ← e.value_terms]
    rfl
  · intro frame before after others oneLine
    exact ⟨_, Written.operands_parse frame lead trail others oneLine, rfl, rfl,
      fun _ => Written.dataCells_ok_iff, fun _ => Written.instrCells_ok_iff⟩

/-- A semicolon and a comma as terms, behind an operand in brackets and in front of a comment. -/
theorem denotes_sum_of_punctuation :
    value? " -';' + 0x3C  -\t',' ".toList = some (-43) ∧
      ∃ statement,
        (Line.parse "start: MOV [BL - 1] , -';' + 0x3C  -\t',' ; x\"".toList).statement =
          some statement ∧
        Effect.instrCells (some digitLimit) statement.mnemonic statement.operands =
          .ok [.byte 8, .byte 249, .byte 213] := by
  -- a sign in front, a character that separates, one that comments, and a hexadecimal number
  let e : Written :=
    { opening := some (.minus, ⟨[], AllBlank.nil⟩)
      first := .character ';' (by decide)
      second :=
        { lead := ⟨[' '], allBlank_space⟩
          sign := .plus
          gap := ⟨[' '], allBlank_space⟩
          atom := .number (.hexadecimal 'x' (.inl rfl) ['3', 'C'] (by decide)
            (List.all_eq_true.1 (by decide))) }
      rest :=
        [{ lead := ⟨[' ', ' '], by decide⟩
           sign := .minus
           gap := ⟨['\t'], by decide⟩
           atom := .character ',' (by decide) }] }
  -- a line with everything around the operands that a line can have
  let frame : Frame :=
    { label := some "start".toList
      front := "start: ".toList
      word := "MOV".toList
      gap := [' ']
      tail := "; x\"".toList
      isFront :=
        show Front _ ([] ++ ("start".toList ++ [] ++ ':' :: [' '])) from
          .label AllBlank.nil (by decide) (List.all_eq_true.1 (by decide)) AllBlank.nil
            allBlank_space
      isWord := List.all_eq_true.1 (by decide)
      begun := by decide
      blankGap := allBlank_space
      apart := by decide
      isTail := .inr ⟨_, rfl⟩ }
  -- the operand in front has brackets and blanks
  have others : ∀ other ∈ ["[BL - 1] ".toList] ++ [], IsOperand other := by
    intro other mem
    rw [List.append_nil, List.mem_singleton] at mem
    subst mem
    exact
      { piece := ⟨by decide, by unfold Uncut; decide, by decide⟩
        noComment := by unfold NoComment; decide
        started := ⟨'[', "BL - 1] ".toList, by decide, by decide⟩ }
  have isLine : frame.line (["[BL - 1] ".toList] ++ [[' '] ++ e.text ++ [' ']]) =
      "start: MOV [BL - 1] , -';' + 0x3C  -\t',' ; x\"".toList := by decide +kernel
  have oneLine : '\n' ∉ frame.line (["[BL - 1] ".toList] ++ [[' '] ++ e.text ++ [' ']]) := by
    rw [isLine]
    decide
  -- only decimal digits are counted, and there are none
  have accepted : e.Accepted (some digitLimit) := by
    refine ⟨?_, by decide⟩
    show ∀ most ∈ some digitLimit, ∀ term ∈ e.terms, term.digits ≤ most
    decide
  obtain ⟨isValue, -, -, inLine⟩ :=
    denotes_sum e (some digitLimit) ⟨[' '], allBlank_space⟩ ⟨[' '], allBlank_space⟩
  obtain ⟨statement, parsed, isWord, areOperands, -, encoded⟩ := inLine frame _ [] others oneLine
  refine ⟨isValue, statement, isLine ▸ parsed, (encoded _).2 ⟨accepted, ?_⟩⟩
  rw [isWord]
  exact ⟨by decide +kernel, [.indirect (.general .bl) (-1)], [], .move .indirectImmediate,
    by decide +kernel, rfl, by decide +kernel, by decide +kernel⟩

/-- **A sum can be refused for zeros in front of a term**, though its value is a byte. -/
theorem exists_sum_refused :
    ∃ e : Written, e.text = List.replicate digitLimit '0' ++ "7 + 1".toList ∧ value? e.text = some 8 ∧
      read (some digitLimit) e.text = .error ⟨digitLimit, some (digitLimit + 1)⟩ ∧
      ∀ operand, Operand.classify (some digitLimit) e.text ≠ .ok operand := by
  obtain ⟨magnitude, -, text, -, value, -, count, -⟩ := Numeral.exists_padded
  let e : Written :=
    { opening := none
      first := .number magnitude
      second :=
        { lead := ⟨[' '], allBlank_space⟩
          sign := .plus
          gap := ⟨[' '], allBlank_space⟩
          atom := .number (.decimal ['1'] (by decide) (List.all_eq_true.1 (by decide))) }
      rest := [] }
  have isText : e.text = List.replicate digitLimit '0' ++ "7 + 1".toList := by
    show [] ++ (magnitude.text ++ " + 1".toList) = _
    rw [text, List.nil_append, List.append_assoc]
    rfl
  have sum : e.value = 8 := by
    show 1 * (magnitude.value : Int) + (1 * 1 + 0) = _
    rw [value]
    rfl
  have parsed : parse? e.text = some e.terms := by
    simpa using e.parse?_text ⟨[], AllBlank.nil⟩ ⟨[], AllBlank.nil⟩
  have counted : DigitLimit.check (some digitLimit) magnitude.decimals =
      .error ⟨digitLimit, some (digitLimit + 1)⟩ := by
    rw [count]
    exact DigitLimit.check_eq_error_iff.2 ⟨digitLimit, rfl, Nat.lt_succ_self digitLimit, rfl⟩
  have refused : read (some digitLimit) e.text = .error ⟨digitLimit, some (digitLimit + 1)⟩ := by
    rw [read, parsed]
    show (DigitLimit.check (some digitLimit) magnitude.decimals >>= _) >>= _ = _
    rw [counted]
    rfl
  refine ⟨e, isText, ?_, refused, fun operand accepted => ?_⟩
  · rw [value?, parsed, ← sum, ← e.value_terms]
    rfl
  · -- what is accepted has not too many digits
    have within : magnitude.decimals ≤ digitLimit :=
      (Written.classify_ok_iff.1 accepted).1.within digitLimit rfl _ List.mem_cons_self
    omega

end Expression

end EightBit
