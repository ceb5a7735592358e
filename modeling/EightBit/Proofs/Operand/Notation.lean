import EightBit.Operand.Basic
import EightBit.Proofs.Numeral.ReadBack

/-!
# Reading Written Operands

Every notation of an operand is read as what it was written for: numbers, addresses in brackets, and
registers in brackets with an offset.

## Main Statements

- `classify_number`, `classify_byte`: a number is an immediate byte.
- `classify_number_memory`, `classify_byte_memory`: a number in brackets is an address.
- `classify_offset`: a register in brackets with an offset, whatever its sign.
-/

namespace EightBit.Operand

open Text Numeral

/-! ## Texts that are no expression -/

/-- A single term is no expression. -/
theorem parse?_of_term {text : List Char} (trimmed : Trimmed text)
    (noSign : Expression.sign? text = none)
    (one : ∀ term rest, Expression.term? text = some (term, rest) → rest = []) :
    Expression.parse? text = none := by
  rw [Expression.parse?, trim_of_trimmed trimmed, noSign]
  show (Expression.term? (trimStart text)).bind _ = none
  rw [trimStart_of_first trimmed.first]
  cases found : Expression.term? text with
  | none => rfl
  | some parts =>
    obtain ⟨term, rest⟩ := parts
    rw [one term rest found]
    rfl

/-- A text whose first character is no digit, sign or quote is no expression. -/
theorem parse?_of_first {c : Char} {text : List Char} (trimmed : Trimmed (c :: text))
    (noDigit : isDigit c = false) (noSign : c ≠ '+' ∧ c ≠ '-') (noQuote : c ≠ '\'') :
    Expression.parse? (c :: text) = none := by
  have zero : c ≠ '0' := by
    rintro rfl
    cases noDigit
  refine parse?_of_term trimmed ?_ ?_
  · simp [Expression.sign?, noSign]
  · intro term rest found
    -- no term starts here: no character, no marker, no digit
    have noTerm : Expression.term? (c :: text) = none := by
      unfold Expression.term?
      split
      · next eq => exact absurd (List.cons.inj eq).1 noQuote
      · next eq => exact absurd (List.cons.inj eq).1 zero
      · simp [Expression.decimal?, noDigit, natural?]
    rw [noTerm] at found
    cases found

/-- Digits alone are no expression. -/
theorem parse?_of_digits {text : List Char}
    (digits : ∀ c ∈ text, isDigit c = true ∧ isBlank c = false ∧ c ≠ 'x' ∧ c ≠ 'X') :
    Expression.parse? text = none := by
  have trimmed : Trimmed text := NoBlank.trimmed fun c mem => (digits c mem).2.1
  have ne : ∀ d, isDigit d = false → ∀ c ∈ text, c ≠ d := by
    rintro d noDigit c mem rfl
    rw [(digits c mem).1] at noDigit
    cases noDigit
  refine parse?_of_term trimmed ?_ ?_
  · unfold Expression.sign?
    split
    · exact absurd rfl (ne '+' (by decide) '+' (by simp))
    · exact absurd rfl (ne '-' (by decide) '-' (by simp))
    · rfl
  · intro term rest found
    -- the term is a decimal number, and it takes all of the text
    have decimal : Expression.term? text = Expression.decimal? text := by
      unfold Expression.term?
      split
      · exact absurd rfl (ne '\'' (by decide) '\'' (by simp))
      · next x more =>
        have noMarker := (digits x (by simp)).2.2
        rw [if_neg (by simpa using noMarker)]
      · rfl
    have all : text.dropWhile isDigit = [] :=
      List.dropWhile_eq_nil_iff.2 fun c mem => (digits c mem).1
    rw [decimal, Expression.decimal?, all] at found
    obtain ⟨value, -, eq⟩ := Option.map_eq_some_iff.1 found
    exact (Prod.mk.inj eq).2.symm

/-- Hexadecimal digits behind their marker are no expression. -/
theorem parse?_of_hexDigits {text : List Char}
    (digits : ∀ c ∈ text, isHexDigit c = true ∧ isBlank c = false) :
    Expression.parse? ('0' :: 'x' :: text) = none := by
  have noBlank : NoBlank ('0' :: 'x' :: text) := by
    intro c mem
    simp only [List.mem_cons] at mem
    rcases mem with rfl | rfl | inText
    · decide
    · decide
    · exact (digits c inText).2
  refine parse?_of_term noBlank.trimmed rfl ?_
  intro term rest found
  have all : text.dropWhile isHexDigit = [] :=
    List.dropWhile_eq_nil_iff.2 fun c mem => (digits c mem).1
  -- behind the marker, the term takes all of the text
  have hexadecimal : Expression.term? ('0' :: 'x' :: text) = Expression.hexadecimal? text := by
    simp [Expression.term?]
  rw [hexadecimal, Expression.hexadecimal?, all] at found
  obtain ⟨value, -, eq⟩ := Option.map_eq_some_iff.1 found
  exact (Prod.mk.inj eq).2.symm

/-! ## Words -/

theorem toByte_natCast (n : Nat) : Bits.toByte n = UInt8.ofNat n := by
  have low : ((n : Int) % 256).toNat = n % 256 := by omega
  rw [Bits.toByte, low]
  apply UInt8.toNat_inj.1
  simp

/-- A text that is neither in brackets nor in double quotes is an expression, a character or a word. -/
theorem classify_of_first (limit : DigitLimit) {c : Char} {text : List Char} (noBracket : c ≠ '[')
    (noText : c ≠ '"') :
    classify limit (c :: text) = expression limit (c :: text) >>= fun
      | some value => immediateOf (c :: text) value
      | none =>
        if c = '\'' then classifyCharacter (c :: text) else classifyWord limit (c :: text) := by
  unfold classify
  -- by the first character, of which only the last case is left
  split
  · next eq => cases eq
  · next eq => exact absurd (List.cons.inj eq).1 noBracket
  · next eq => exact absurd (List.cons.inj eq).1 noText
  · next first more _ _ eq =>
    obtain ⟨rfl, rfl⟩ := List.cons.inj eq
    rfl

/-- What is no expression is classified as a character or as a word. -/
theorem classify_of_single (limit : DigitLimit) {c : Char} {text : List Char} (noBracket : c ≠ '[')
    (noText : c ≠ '"') (single : Expression.parse? (c :: text) = none) :
    classify limit (c :: text) =
      if c = '\'' then classifyCharacter (c :: text) else classifyWord limit (c :: text) := by
  have read : expression limit (c :: text) = .ok none := by
    rw [expression, Expression.read, single]
    rfl
  rw [classify_of_first limit noBracket noText, read]
  rfl

/-- A text that is neither in brackets nor in quotes, and no expression, is a word. -/
theorem classify_word (limit : DigitLimit) {c : Char} {text : List Char} (noBracket : c ≠ '[')
    (noText : c ≠ '"') (noQuote : c ≠ '\'') (single : Expression.parse? (c :: text) = none) :
    classify limit (c :: text) = classifyWord limit (c :: text) := by
  rw [classify_of_single limit noBracket noText single, if_neg noQuote]

/-- A text that starts with a character that starts no register names none. -/
theorem ofText?_of_first {c : Char} (text : List Char) (same : upperChar c = [c])
    (other : c ∉ ['A', 'B', 'C', 'D', 'S']) : Pointer.ofText? (c :: text) = none := by
  have start : upper (c :: text) = c :: upper text := by
    simp [upper, same]
  simp only [List.mem_cons, List.not_mem_nil, or_false, not_or] at other
  simp [Pointer.ofText?, Pointer.all, Register.all, Pointer.name, Register.name, start,
    Ne.symm other.1, Ne.symm other.2.1, Ne.symm other.2.2.1, Ne.symm other.2.2.2.1,
    Ne.symm other.2.2.2.2]

/-- A digit starts no name. -/
theorem digit_start {c : Char} (digit : ∃ d < 10, c = d.digitChar) :
    upperChar c = [c] ∧ c ∉ ['A', 'B', 'C', 'D', 'S'] ∧ startsName c = false ∧ c ≠ '[' ∧
      c ≠ '"' ∧ c ≠ '\'' ∧ isBlank c = false ∧ c ≠ ']' := by
  obtain ⟨d, small, rfl⟩ := digit
  interval_cases d <;> decide

/-- A numeral that starts with a digit and is no expression is an immediate byte. -/
theorem classify_numeral {limit : DigitLimit} {c : Char} {text : List Char}
    (digit : ∃ d < 10, c = d.digitChar) (single : Expression.parse? (c :: text) = none)
    {value : Int} (isValue : Numeral.read limit (c :: text) = .ok (some value))
    (low : 0 ≤ value) (high : value ≤ 255) :
    classify limit (c :: text) = .ok (.immediate (Bits.toByte value)) := by
  -- a digit starts no register, no name, no bracket and no quote
  obtain ⟨same, noRegister, noName, noBracket, noText, noQuote, -⟩ := digit_start digit
  have read : number limit (c :: text) = .ok (some value) := by
    rw [number, isValue]
    rfl
  have name : isName (c :: text) = false := by
    simp [isName, noName]
  rw [classify_word limit noBracket noText noQuote single, classifyWord,
    ofText?_of_first text same noRegister, name, read]
  show immediateOf (c :: text) value = _
  rw [immediateOf, if_pos (by omega)]

theorem exists_toDigits (n : Nat) :
    ∃ c text, Nat.toDigits 10 n = c :: text ∧ ∃ d < 10, c = d.digitChar := by
  obtain ⟨c, text, shape⟩ := List.exists_cons_of_ne_nil (Nat.toDigits_ne_nil (b := 10) (n := n))
  exact ⟨c, text, shape, mem_toDigits (by decide) (shape ▸ List.mem_cons_self)⟩

/-- **A decimal number is an immediate byte.** -/
theorem classify_number {limit : DigitLimit} (room : limit.check 3 = .ok ()) {n : Nat}
    (small : n < 256) : classify limit (Nat.toDigits 10 n) = .ok (.immediate (UInt8.ofNat n)) := by
  obtain ⟨c, text, shape, digit⟩ := exists_toDigits n
  have single : Expression.parse? (Nat.toDigits 10 n) = none :=
    parse?_of_digits (forall_mem_decimal (by decide) n)
  have isValue := read_toDigits room (show n < 1000 by omega)
  rw [shape] at single isValue ⊢
  rw [classify_numeral digit single isValue (by omega) (by omega), toByte_natCast]

/-- **A hexadecimal number is an immediate byte**, within every limit. -/
theorem classify_byte (limit : DigitLimit) {n : Nat} (small : n < 256) :
    classify limit ('0' :: 'x' :: hexByte n) = .ok (.immediate (UInt8.ofNat n)) := by
  have single : Expression.parse? ('0' :: 'x' :: hexByte n) = none :=
    parse?_of_hexDigits (forall_mem_hexByte (by decide) n)
  have zero : ∃ d < 10, '0' = d.digitChar := ⟨0, by decide, rfl⟩
  rw [classify_numeral zero single (read_hexByte limit n) (by omega) (by omega), toByte_natCast]

/-! ## Brackets -/

/-- What stands between brackets, without the blanks there. -/
theorem classify_brackets (limit : DigitLimit) (inner : List Char) :
    classify limit ('[' :: inner ++ [']']) = classifyMemory limit (trim inner) := by
  have ends : ('[' :: inner ++ [']']).getLast? = some ']' := List.getLast?_concat ..
  have inside : between ('[' :: inner ++ [']']) = inner := by
    simp [between]
  show (if ('[' :: inner ++ [']']).getLast? = some ']' then _ else _) = _
  rw [if_pos ends, inside]

/-- A numeral that starts with a digit is an address. -/
theorem classifyMemory_numeral {limit : DigitLimit} {c : Char} {text : List Char}
    (digit : ∃ d < 10, c = d.digitChar) {value : Int}
    (isValue : Numeral.read limit (c :: text) = .ok (some value)) (low : 0 ≤ value)
    (high : value ≤ 255) :
    classifyMemory limit (c :: text) = .ok (.address (Bits.toByte value)) := by
  -- a digit begins neither the name of a register nor an offset from one
  obtain ⟨same, noRegister, -⟩ := digit_start digit
  have read : number limit (c :: text) = .ok (some value) := by
    rw [number, isValue]
    rfl
  have noOffset : registerOffset? (c :: text) = none := by
    cases text with
    | nil => rfl
    | cons d rest =>
      rw [registerOffset?, ofText?_of_first [d] same noRegister]
      rfl
  rw [classifyMemory, ofText?_of_first text same noRegister, noOffset, read]
  show (if 0 ≤ value ∧ value ≤ 255 then _ else _) = _
  rw [if_pos ⟨low, high⟩]

/-- **A decimal number in brackets is an address.** -/
theorem classify_number_memory {limit : DigitLimit} (room : limit.check 3 = .ok ()) {n : Nat}
    (small : n < 256) :
    classify limit ('[' :: Nat.toDigits 10 n ++ [']']) = .ok (.address (UInt8.ofNat n)) := by
  have isValue := read_toDigits room (show n < 1000 by omega)
  rw [classify_brackets, trim_of_trimmed (noBlank_toDigits n).trimmed]
  obtain ⟨c, text, shape, digit⟩ := exists_toDigits n
  rw [shape] at isValue ⊢
  rw [classifyMemory_numeral digit isValue (by omega) (by omega), toByte_natCast]

/-- **A hexadecimal number in brackets is an address**, within every limit. -/
theorem classify_byte_memory (limit : DigitLimit) {n : Nat} (small : n < 256) :
    classify limit ('[' :: ('0' :: 'x' :: hexByte n) ++ [']']) = .ok (.address (UInt8.ofNat n)) := by
  have zero : ∃ d < 10, '0' = d.digitChar := ⟨0, by decide, rfl⟩
  rw [classify_brackets, trim_of_trimmed (noBlank_markedByte n).trimmed,
    classifyMemory_numeral zero (read_hexByte limit n) (by omega) (by omega), toByte_natCast]

/-! ## Registers -/

theorem ofText?_name (pointer : Pointer) :
    Pointer.ofText? pointer.name.toList = some pointer := by
  cases pointer with
  | general register => cases register <;> decide
  | stack => decide

/-- The name of a register is two letters. -/
theorem exists_name (pointer : Pointer) :
    ∃ c d, pointer.name.toList = [c, d] ∧ upperChar c = [c] ∧ upperChar d = [d] ∧
      isBlank c = false ∧ isBlank d = false := by
  cases pointer with
  | general register => cases register <;> exact ⟨_, _, rfl, by decide⟩
  | stack => exact ⟨_, _, rfl, by decide⟩

/-- A general register is read from its name. -/
theorem classify_register (limit : DigitLimit) (register : Register) :
    classify limit register.name.toList = .ok (.register register) := by
  have named : Pointer.ofText? register.name.toList = some (.general register) :=
    ofText?_name (.general register)
  -- what makes a name a word is the same for every register
  have word : ∀ {c d : Char}, register.name.toList = [c, d] → isDigit c = false →
      isBlank c = false ∧ isBlank d = false → c ∉ ['+', '-', '\'', '[', '"'] →
      classify limit register.name.toList = classifyWord limit register.name.toList := by
    intro c d shape noDigit ⟨first, last⟩ other
    have trimmed : Trimmed [c, d] := trimmed_of_ends (show [c, d] = c :: [] ++ [d] from rfl) first last
    simp only [List.mem_cons, List.not_mem_nil, or_false, not_or] at other
    obtain ⟨noPlus, noMinus, noQuote, noBracket, noText⟩ := other
    rw [shape]
    exact classify_word limit noBracket noText noQuote
      (parse?_of_first trimmed noDigit ⟨noPlus, noMinus⟩ noQuote)
  have isWord : classify limit register.name.toList = classifyWord limit register.name.toList := by
    cases register <;> exact word rfl (by decide) ⟨by decide, by decide⟩ (by decide)
  rw [isWord, classifyWord, named]

/-- A register in brackets. -/
theorem classify_pointer (limit : DigitLimit) (pointer : Pointer) :
    classify limit ('[' :: pointer.name.toList ++ [']']) = .ok (.indirect pointer 0) := by
  obtain ⟨c, d, shape, -, -, noBlankFirst, noBlankLast⟩ := exists_name pointer
  have noBlank : NoBlank pointer.name.toList := by
    rw [shape]
    simp [NoBlank, noBlankFirst, noBlankLast]
  rw [classify_brackets, trim_of_trimmed noBlank.trimmed, classifyMemory, ofText?_name]

/-- A number with its sign is a sign and digits. -/
theorem exists_withSign (value : Int) :
    ∃ c sign, withSign value = c :: Nat.toDigits 10 value.natAbs ∧
      Expression.sign? (withSign value) = some (sign, Nat.toDigits 10 value.natAbs) ∧
      sign * value.natAbs = value ∧ isBlank c = false ∧ upperChar c = [c] := by
  by_cases negative : value < 0
  · have text : withSign value = '-' :: Nat.toDigits 10 value.natAbs := by
      rw [withSign, if_pos negative, decimal_of_neg negative]
    exact ⟨'-', -1, text, by rw [text]; rfl, by omega, by decide⟩
  · have text : withSign value = '+' :: Nat.toDigits 10 value.natAbs := by
      rw [withSign, if_neg negative, ← decimal_natCast, Int.natAbs_of_nonneg (by omega)]
    exact ⟨'+', 1, text, by rw [text]; rfl, by omega, by decide⟩

theorem noBlank_withSign (value : Int) : NoBlank (withSign value) := by
  obtain ⟨c, _, text, _, _, noBlank, _⟩ := exists_withSign value
  rw [text]
  intro d mem
  rcases List.mem_cons.1 mem with rfl | digit
  · exact noBlank
  · exact noBlank_toDigits _ d digit

/-- The sign of an offset is taken off, and digits without blanks are left. -/
theorem signedOffset?_withSign {offset sign : Int}
    (isSign : Expression.sign? (withSign offset) = some (sign, Nat.toDigits 10 offset.natAbs)) :
    signedOffset? (withSign offset) = some (sign, Nat.toDigits 10 offset.natAbs) := by
  have digits := noBlank_toDigits offset.natAbs
  have none_blank : (Nat.toDigits 10 offset.natAbs).any isBlank = false := by
    rw [List.any_eq_false]
    exact fun x mem => by simp [digits x mem]
  have nonempty : (Nat.toDigits 10 offset.natAbs).isEmpty = false := by
    simp [Nat.toDigits_ne_nil]
  rw [signedOffset?, trimStart_of_first (noBlank_withSign offset).trimmed.first, isSign]
  show (if _ then _ else _) = _
  rw [trimStart_of_first digits.trimmed.first, none_blank, nonempty]
  rfl

theorem noBlank_offset (pointer : Pointer) (offset : Int) :
    NoBlank (pointer.name.toList ++ withSign offset) := by
  obtain ⟨c, d, name, -, -, noBlankFirst, noBlankLast⟩ := exists_name pointer
  intro x mem
  rcases List.mem_append.1 mem with inName | inOffset
  · rw [name] at inName
    simp only [List.mem_cons, List.not_mem_nil, or_false] at inName
    exact inName.elim (fun eq => eq ▸ noBlankFirst) fun eq => eq ▸ noBlankLast
  · exact noBlank_withSign offset x inOffset

/-- **A register in brackets with an offset** is read as that register and that offset. -/
theorem classify_offset {limit : DigitLimit} (room : limit.check 3 = .ok ()) (pointer : Pointer)
    {offset : Int} (small : offset.natAbs < 1000) :
    classify limit ('[' :: (pointer.name.toList ++ withSign offset) ++ [']']) =
      offsetFrom (pointer.name.toList ++ withSign offset) pointer offset := by
  obtain ⟨c, d, name, sameFirst, sameLast, -, -⟩ := exists_name pointer
  obtain ⟨s, sign, text, isSign, product, -, sameSign⟩ := exists_withSign offset
  have named : Pointer.ofText? [c, d] = some pointer := by
    rw [← name]
    exact ofText?_name pointer
  -- three characters or more are no register
  have noRegister : Pointer.ofText? (pointer.name.toList ++ withSign offset) = none := by
    have long : upper (pointer.name.toList ++ withSign offset) =
        c :: d :: s :: upper (Nat.toDigits 10 offset.natAbs) := by
      rw [name, text]
      simp [upper, sameFirst, sameLast, sameSign]
    rw [Pointer.ofText?, long]
    simp [Pointer.all, Register.all, Pointer.name, Register.name]
  have found : registerOffset? (pointer.name.toList ++ withSign offset) =
      some (pointer, sign, Nat.toDigits 10 offset.natAbs) := by
    rw [name]
    show (Pointer.ofText? [c, d]).bind _ = _
    rw [named]
    show (signedOffset? (withSign offset)).bind _ = _
    rw [signedOffset?_withSign isSign]
    rfl
  have read : number limit (Nat.toDigits 10 offset.natAbs) = .ok (some (offset.natAbs : Int)) := by
    rw [number, read_toDigits room small]
    rfl
  rw [classify_brackets, trim_of_trimmed (noBlank_offset pointer offset).trimmed, classifyMemory,
    noRegister, found]
  simp only [read]
  show offsetFrom _ pointer (sign * offset.natAbs) = _
  rw [product]

end EightBit.Operand
