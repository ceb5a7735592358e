import EightBit.Proofs.Assembly.Sums
import EightBit.Proofs.Operand.Reading

/-!
# Immediate Bytes as Terms

An immediate byte is written as a number, as a character or as a sum. Whatever is accepted as one has
one of these forms, and can be carried on with a sign and another term: the text is then a sum, whose
value is the one of the byte and the one of the term together.

There is one exception. The character literal of the single quote is an immediate byte by itself, but
no term, since a term that starts with a quote ends at the next one.

## Main Definitions

- `Immediate`: what an immediate byte is written as.
- `Immediate.plus`: an immediate byte carried on with a summand.

## Main Statements

- `exists_written`: a text of the form of an expression is a sum as it is written.
- `exists_immediate`: what is accepted as an immediate byte is written as one.
- `classify_plus_zero_iff`: adding zero to an immediate byte keeps it, unless it is a quoted quote.
-/

namespace EightBit

open Text Source

namespace Expression

/-! ## Forms as they are written -/

theorem exists_sign {c : Char} (isSign : c = '+' ∨ c = '-') : ∃ sign : Sign, sign.char = c := by
  rcases isSign with rfl | rfl
  · exact ⟨.plus, rfl⟩
  · exact ⟨.minus, rfl⟩

theorem TermForm.exists_atom {text : List Char} (isTerm : TermForm text) :
    ∃ atom : Atom, atom.text = text := by
  cases isTerm with
  | character other => exact ⟨.character _ other, rfl⟩
  | number unsigned =>
    obtain ⟨number, rfl⟩ := unsigned.exists_written
    exact ⟨.number number, rfl⟩

theorem TailForm.exists_summands {text : List Char} (isTail : TailForm text) :
    ∃ summands : List Summand, summands.flatMap Summand.text = text := by
  induction isTail with
  | nil => exact ⟨[], rfl⟩
  | @cons lead gap term rest c blankLead isSign blankGap isTerm isTail ih =>
    obtain ⟨sign, rfl⟩ := exists_sign isSign
    obtain ⟨atom, rfl⟩ := isTerm.exists_atom
    obtain ⟨summands, rfl⟩ := ih
    exact ⟨⟨⟨lead, blankLead⟩, sign, ⟨gap, blankGap⟩, atom⟩ :: summands, by simp [Summand.text]⟩

/-- **A text of the form of an expression** is a sum as it is written. -/
theorem Form.exists_written {text : List Char} (form : Form text) :
    ∃ (lead : Blanks) (e : Written), text = lead.text ++ e.text := by
  -- there is more than one term, so there is a second one
  have split : ∀ {rest : List Char}, TailForm rest → rest ≠ [] →
      ∃ (second : Summand) (others : List Summand),
        rest = second.text ++ others.flatMap Summand.text := by
    intro rest isTail more
    obtain ⟨_ | ⟨second, others⟩, rfl⟩ := isTail.exists_summands
    · exact absurd rfl more
    · exact ⟨second, others, rfl⟩
  cases form with
  | unsigned blankGap isTerm isTail more =>
    obtain ⟨first, rfl⟩ := isTerm.exists_atom
    obtain ⟨second, rest, rfl⟩ := split isTail more
    exact ⟨⟨_, blankGap⟩, ⟨none, first, second, rest⟩, rfl⟩
  | signed isSign blankGap isTerm isTail more =>
    obtain ⟨sign, rfl⟩ := exists_sign isSign
    obtain ⟨first, rfl⟩ := isTerm.exists_atom
    obtain ⟨second, rest, rfl⟩ := split isTail more
    exact ⟨⟨[], AllBlank.nil⟩, ⟨some (sign, ⟨_, blankGap⟩), first, second, rest⟩, rfl⟩

/-- A text that has a value as an expression is a sum, with blanks around it. -/
theorem exists_written {text : List Char} (isSome : (value? text).isSome) :
    ∃ (lead trail : Blanks) (e : Written), text = lead.text ++ e.text ++ trail.text := by
  obtain ⟨lead, e, shape⟩ := (isSome_value?_iff.1 isSome).exists_written
  obtain ⟨front, back, blankFront, blankBack, -, split⟩ := exists_eq_append_trim text
  refine ⟨⟨front ++ lead.text, ?_⟩, ⟨back, blankBack⟩, e, ?_⟩
  · exact fun c mem => (List.mem_append.1 mem).elim (blankFront c) (lead.blank c)
  · rw [split, shape, List.append_assoc, List.append_assoc, List.append_assoc, List.append_assoc]

/-! ## Immediate bytes -/

/-- What an immediate byte is written as: a number, a character other than the single quote in single
quotes, or a sum. -/
inductive Immediate
  | number (number : Numeral.Integer)
  | character (c : Char) (other : c ≠ '\'')
  | sum (e : Written)

namespace Immediate

/-- The text of an immediate byte. -/
def text : Immediate → List Char
  | number n => n.text
  | character c _ => ['\'', c, '\'']
  | sum e => e.text

/-- The value of an immediate byte, with its sign. -/
def value : Immediate → Int
  | number n => n.value
  | character c _ => c.toNat
  | sum e => e.value

/-- No number in it has too many digits. -/
def Within (limit : DigitLimit) : Immediate → Prop
  | number n => ∀ most ∈ limit, n.magnitude.decimals ≤ most
  | character _ _ => True
  | sum e => e.Within limit

/-- An immediate byte carried on with a summand. -/
def plus (last : Summand) : Immediate → Written
  | number n =>
    { opening := if n.negative then some (.minus, ⟨[], AllBlank.nil⟩) else none
      first := .number n.magnitude
      second := last
      rest := [] }
  | character c other => { opening := none, first := .character c other, second := last, rest := [] }
  | sum e => { e with rest := e.rest ++ [last] }

variable (i : Immediate) (last : Summand)

theorem text_plus : (i.plus last).text = i.text ++ last.text := by
  cases i with
  | number n =>
    obtain ⟨negative, magnitude⟩ := n
    cases negative <;>
      simp [plus, text, Written.text, Written.openingText, Written.summands, Numeral.Integer.text,
        Atom.text, Sign.char]
  | character c other =>
    simp [plus, text, Written.text, Written.openingText, Written.summands, Atom.text]
  | sum e => simp [plus, text, Written.text, Written.openingText, Written.summands]

/-- **The value of what is carried on.** -/
theorem value_plus :
    (i.plus last).value = i.value + last.sign.unit * last.atom.term.value := by
  cases i with
  | number n =>
    obtain ⟨negative, magnitude⟩ := n
    cases negative <;>
      simp [plus, value, Written.value, Written.unit, Written.summands, Numeral.Integer.value,
        Atom.term, Sign.unit]
  | character c other =>
    simp [plus, value, Written.value, Written.unit, Written.summands, Atom.term]
  | sum e => simp [plus, value, Written.value, Written.unit, Written.summands, add_assoc]

theorem within_plus {limit : DigitLimit} (within : i.Within limit)
    (room : ∀ most ∈ limit, last.atom.term.digits ≤ most) : (i.plus last).Within limit := by
  intro most isLimit term mem
  -- whatever the immediate is, its terms are the old ones and the one behind
  cases i with
  | number n =>
    simp only [plus, Written.terms, Written.summands, List.map_cons, List.map_nil, List.mem_cons,
      List.not_mem_nil, or_false] at mem
    rcases mem with rfl | rfl
    · exact within most isLimit
    · exact room most isLimit
  | character c other =>
    simp only [plus, Written.terms, Written.summands, List.map_cons, List.map_nil, List.mem_cons,
      List.not_mem_nil, or_false] at mem
    rcases mem with rfl | rfl
    · exact Nat.zero_le most
    · exact room most isLimit
  | sum e =>
    have split : (plus last (.sum e)).terms = e.terms ++ [last.term] := by
      simp [plus, Written.terms, Written.summands, Written.unit]
    rw [split, List.mem_append, List.mem_singleton] at mem
    rcases mem with old | rfl
    · exact within most isLimit term old
    · exact room most isLimit

end Immediate

/-! ## What is accepted as an immediate byte -/

/-- The text is an immediate byte as it is written, with blanks around it, and the byte stands for its
value. -/
structure Immediate.Read (limit : DigitLimit) (text : List Char) (v : UInt8) (i : Immediate) :
    Prop where
  shape : ∃ lead trail : Blanks, text = lead.text ++ i.text ++ trail.text
  within : i.Within limit
  inRange : -128 ≤ i.value ∧ i.value ≤ 255
  byte : v = Bits.toByte i.value

section Classify

variable {limit : DigitLimit} {text : List Char} {v : UInt8}

theorem mapError_eq_ok_iff {ε δ α : Type} {f : ε → δ} {result : Except ε α} {value : α} :
    result.mapError f = .ok value ↔ result = .ok value := by
  cases result <;> simp [Except.mapError]

theorem immediateOf_ok_iff {value : Int} :
    Operand.immediateOf text value = .ok (.immediate v) ↔
      (-128 ≤ value ∧ value ≤ 255) ∧ v = Bits.toByte value := by
  rw [Operand.immediateOf]
  split
  · next inRange => simp [inRange, eq_comm]
  · next outside => simp [outside, Operand.reject]

/-- Nothing in brackets is an immediate byte. -/
theorem classifyMemory_shape (inner : List Char) :
    Reading limit (fun operand => operand.shape ≠ .immediate)
      (Operand.classifyMemory limit inner) := by
  -- every way through the brackets ends in an address, a pointer or a name
  unfold Operand.classifyMemory
  split
  · exact .ok nofun
  · split
    · refine .bind (Operand.number_reading _) fun value _ => ?_
      cases value with
      | none => exact .wrong _
      | some value =>
        refine .ite (fun _ => ?_) fun _ => ?_
        · exact .ite (fun _ => .ok nofun) fun _ => .wrong _
        · exact .ite (fun _ => .ok nofun) fun _ => .wrong _
    · refine .bind (Operand.number_reading _) fun value _ => ?_
      cases value with
      | some value => exact .ite (fun _ => .ok nofun) fun _ => .wrong _
      | none => exact .ite (fun _ => .ok nofun) fun _ => .wrong _

/-- An expression that is accepted is a sum. -/
theorem exists_sum {value : Int} (isValue : Operand.expression limit text = .ok (some value))
    (accepted : Operand.immediateOf text value = .ok (.immediate v)) :
    ∃ e, Immediate.Read limit text v (.sum e) := by
  have read : read limit text = .ok (some value) := mapError_eq_ok_iff.1 isValue
  -- the reader has found terms, so the text has the form of a sum
  have isSome : (value? text).isSome := by
    rw [value?, Option.isSome_map]
    cases parsed : parse? text with
    | some terms => rfl
    | none =>
      rw [Expression.read, parsed] at read
      cases read
  obtain ⟨lead, trail, e, rfl⟩ := exists_written isSome
  -- within the limit it means its value, which has been accepted as an immediate
  obtain ⟨within, same⟩ := (e.read_ok_iff lead trail).1 read
  obtain rfl := Option.some.inj same
  obtain ⟨inRange, isByte⟩ := immediateOf_ok_iff.1 accepted
  exact ⟨e, ⟨lead, trail, rfl⟩, within, inRange, isByte⟩

/-- A number that is accepted is one as it is written. -/
theorem exists_number {value : Int} (isValue : Operand.number limit text = .ok (some value))
    (accepted : Operand.immediateOf text value = .ok (.immediate v)) :
    ∃ n, Immediate.Read limit text v (.number n) := by
  obtain ⟨parsed, room⟩ := Numeral.read_eq_ok_iff.1 (mapError_eq_ok_iff.1 isValue)
  obtain ⟨lead, trail, blankLead, blankTrail, trimmed, split⟩ := exists_eq_append_trim text
  obtain ⟨n, shape⟩ :=
    (Numeral.isSome_parse?_iff.1 (Option.isSome_of_eq_some parsed)).exists_integer
  -- a number is read without the blanks around it
  have core : trim n.text = trim text := by rw [shape, trim_of_trimmed trimmed]
  have value : n.value = value := by
    have same := n.parse?_text
    rw [Numeral.parse?, core] at same
    exact Option.some.inj (same.symm.trans parsed)
  have digits : Numeral.decimalLength text = n.magnitude.decimals := by
    rw [← n.decimalLength_text, Numeral.decimalLength, Numeral.decimalLength, core]
  obtain ⟨inRange, isByte⟩ := immediateOf_ok_iff.1 accepted
  rw [← value] at inRange isByte
  refine ⟨n, ⟨⟨lead, blankLead⟩, ⟨trail, blankTrail⟩, ?_⟩, fun most isLimit => ?_, inRange, isByte⟩
  · show text = lead ++ n.text ++ trail
    rw [shape]
    exact split
  · rw [← digits]
    exact room rfl most isLimit

/-- A character that is accepted is one in single quotes, which may be a quote itself. -/
theorem exists_character (starts : text.head? = some '\'')
    (accepted : Operand.classifyCharacter text = .ok (.immediate v)) (other : text ≠ "'''".toList) :
    ∃ c notQuote, Immediate.Read limit text v (.character c notQuote) := by
  unfold Operand.classifyCharacter at accepted
  split at accepted
  · next first c =>
    -- the text opens with a quote, so one character stands between two of them
    obtain rfl : first = '\'' := Option.some.inj starts
    split at accepted
    · cases accepted
    · next narrow =>
      have notQuote : c ≠ '\'' := by
        rintro rfl
        exact other rfl
      cases accepted
      refine ⟨c, notQuote, ⟨⟨[], AllBlank.nil⟩, ⟨[], AllBlank.nil⟩, rfl⟩, trivial, ?_, ?_⟩
      · show -128 ≤ (c.toNat : Int) ∧ (c.toNat : Int) ≤ 255
        omega
      · exact (Operand.toByte_natCast c.toNat).symm
  · cases accepted

/-- A word that is accepted is a number. -/
theorem exists_number_of_word
    (accepted : Operand.classifyWord limit text = .ok (.immediate v)) :
    ∃ n, Immediate.Read limit text v (.number n) := by
  rw [Operand.classifyWord] at accepted
  split at accepted
  · cases accepted
  · cases accepted
  · split at accepted
    · cases accepted
    · obtain ⟨value, isValue, accepted⟩ := bind_ok_iff.1 accepted
      cases value with
      | none => cases accepted
      | some value => exact exists_number isValue accepted

/-- **What is accepted as an immediate byte is written as one**, unless it is a quoted quote. -/
theorem exists_immediate (accepted : Operand.classify limit text = .ok (.immediate v))
    (other : text ≠ "'''".toList) : ∃ i, Immediate.Read limit text v i := by
  -- the forms of an operand, of which three are read as an immediate
  unfold Operand.classify at accepted
  split at accepted
  · cases accepted
  · split at accepted
    · exact absurd rfl ((classifyMemory_shape _).value accepted)
    · cases accepted
  · next rest =>
    rw [Operand.classifyText] at accepted
    split at accepted
    · cases accepted
    · split at accepted <;> cases accepted
  -- a sum is tried before anything else, so numbers and characters come behind it
  · next first rest _ _ =>
    obtain ⟨value, isValue, accepted⟩ := bind_ok_iff.1 accepted
    cases value with
    | some value =>
      obtain ⟨e, isSum⟩ := exists_sum isValue accepted
      exact ⟨_, isSum⟩
    | none =>
      simp only at accepted
      split at accepted
      · next isQuote =>
        have starts : (first :: rest).head? = some '\'' := by rw [isQuote]; rfl
        obtain ⟨c, notQuote, isCharacter⟩ : ∃ c notQuote,
            Immediate.Read limit (first :: rest) v (.character c notQuote) :=
          exists_character starts accepted other
        exact ⟨_, isCharacter⟩
      · obtain ⟨n, isNumber⟩ := exists_number_of_word accepted
        exact ⟨_, isNumber⟩

end Classify

/-! ## Carrying on -/

section CarryOn

variable {limit : DigitLimit} {text : List Char} {v : UInt8}

/-- A sum is an immediate byte with blanks around it as well. -/
theorem Written.classify_padded {e : Written} (accepted : e.Accepted limit) (lead trail : Blanks) :
    Operand.classify limit (lead.text ++ e.text ++ trail.text) = .ok (.immediate e.byte) := by
  -- it starts with a blank, or as the sum does
  obtain ⟨c, more, shape, noBracket, noText⟩ : ∃ c more,
      lead.text ++ e.text ++ trail.text = c :: more ∧ c ≠ '[' ∧ c ≠ '"' := by
    obtain ⟨_ | ⟨blank, blanks⟩, isBlank⟩ := lead
    · obtain ⟨c, more, shape, -, other⟩ := e.exists_cons_text
      simp only [List.mem_cons, List.not_mem_nil, or_false, not_or] at other
      exact ⟨c, more ++ trail.text, by rw [shape]; rfl, other.2⟩
    · have first := isBlank blank List.mem_cons_self
      exact ⟨blank, _, rfl, isBlank_ne first (by decide), isBlank_ne first (by decide)⟩
  have read : read limit (lead.text ++ e.text ++ trail.text) = .ok (some e.value) :=
    (e.read_ok_iff lead trail).2 ⟨accepted.within, rfl⟩
  rw [shape] at read ⊢
  rw [Operand.classify_of_first limit noBracket noText]
  exact bind_ok_iff.2
    ⟨_, mapError_eq_ok_iff.2 read, immediateOf_ok_iff.2 ⟨accepted.inRange, rfl⟩⟩

/-- **An immediate byte can be carried on with a summand**: the two values are added, and the sum is an
immediate byte if it is one. -/
theorem exists_classify_append (accepted : Operand.classify limit text = .ok (.immediate v))
    (other : text ≠ "'''".toList) :
    ∃ value : Int, v = Bits.toByte value ∧ -128 ≤ value ∧ value ≤ 255 ∧
      ∀ summand : Summand, (∀ most ∈ limit, summand.atom.term.digits ≤ most) →
        -128 ≤ value + summand.sign.unit * summand.atom.term.value →
        value + summand.sign.unit * summand.atom.term.value ≤ 255 →
        Operand.classify limit (text ++ summand.text) = .ok (.immediate
          (Bits.toByte (value + summand.sign.unit * summand.atom.term.value))) := by
  obtain ⟨i, isRead⟩ := exists_immediate accepted other
  obtain ⟨lead, trail, rfl⟩ := isRead.shape
  refine ⟨i.value, isRead.byte, isRead.inRange.1, isRead.inRange.2, fun summand room low high => ?_⟩
  -- the blanks behind the byte come to stand in front of the sign
  let behind : Summand :=
    { summand with
      lead := ⟨trail.text ++ summand.lead.text, fun c mem =>
        (List.mem_append.1 mem).elim (trail.blank c) (summand.lead.blank c)⟩ }
  have shape : lead.text ++ i.text ++ trail.text ++ summand.text =
      lead.text ++ (i.plus behind).text ++ [] := by
    rw [i.text_plus]
    simp [behind, Summand.text]
  have value : (i.plus behind).value =
      i.value + summand.sign.unit * summand.atom.term.value := i.value_plus behind
  rw [← value] at low high ⊢
  rw [shape]
  exact Written.classify_padded ⟨i.within_plus behind isRead.within room, low, high⟩ lead
    ⟨[], AllBlank.nil⟩

/-- Zero, added with spaces around the sign. -/
def plusZero : Summand where
  lead := ⟨[' '], allBlank_space⟩
  sign := .plus
  gap := ⟨[' '], allBlank_space⟩
  atom := .number (.decimal ['0'] (by decide) (List.all_eq_true.1 (by decide)))

/-- A quoted quote ends no term, so nothing goes on behind it. -/
theorem classify_quote_plus_zero (limit : DigitLimit) :
    Operand.classify limit ("'''".toList ++ " + 0".toList) =
      .error (.wrong (.badCharacter ("'''".toList ++ " + 0".toList))) :=
  Operand.classify_of_single limit (by decide) (by decide) (by decide)

/-- **Adding zero to an immediate byte keeps it**, unless it is a quoted quote. -/
theorem classify_plus_zero_iff (room : ∀ most ∈ limit, 1 ≤ most)
    (accepted : Operand.classify limit text = .ok (.immediate v)) :
    Operand.classify limit (text ++ " + 0".toList) = .ok (.immediate v) ↔
      text ≠ "'''".toList := by
  constructor
  · rintro same rfl
    rw [classify_quote_plus_zero] at same
    cases same
  · intro other
    -- the text may be carried on by any summand that stays in range, and zero does
    obtain ⟨value, rfl, low, high, carriedOn⟩ := exists_classify_append accepted other
    have unchanged : value + plusZero.sign.unit * plusZero.atom.term.value = value := by
      have zero : plusZero.atom.term.value = 0 := by decide
      rw [zero, mul_zero, add_zero]
    have added := carriedOn plusZero room
    rw [unchanged] at added
    exact added low high

/-- A negative number, with blanks around it. -/
theorem classify_plus_zero_iff_negative :
    (∀ most ∈ some digitLimit, 1 ≤ most) ∧
      Operand.classify (some digitLimit) " -5 ".toList = .ok (.immediate 251) ∧
      (Operand.classify (some digitLimit) (" -5 ".toList ++ " + 0".toList) =
          .ok (.immediate 251) ↔
        " -5 ".toList ≠ "'''".toList) := by
  have room : ∀ most ∈ some digitLimit, 1 ≤ most := by decide
  have accepted : Operand.classify (some digitLimit) " -5 ".toList = .ok (.immediate 251) := by
    decide +kernel
  exact ⟨room, accepted, classify_plus_zero_iff room accepted⟩

/-- The single quote in single quotes is an immediate byte, but adding zero to it is not accepted. -/
theorem exists_immediate_no_term :
    ¬∀ text v, Operand.classify (some digitLimit) text = .ok (.immediate v) →
      Operand.classify (some digitLimit) (text ++ " + 0".toList) = .ok (.immediate v) := by
  intro claim
  have same := claim "'''".toList 39 (by decide +kernel)
  rw [classify_quote_plus_zero] at same
  cases same

end CarryOn

end Expression

end EightBit
