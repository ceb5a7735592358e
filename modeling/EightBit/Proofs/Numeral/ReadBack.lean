import EightBit.Numeral
import EightBit.Parameters
import EightBit.Proofs.Text.Blank
import Mathlib.Data.List.Basic
import Mathlib.Tactic.IntervalCases

/-!
# Reading Back What Was Written

A number that is written with digits of some base is read as itself. This holds for the decimal
texts and for the hexadecimal bytes that the disassembler prints, and it is what makes an address
written as a number mean that address.

## Main Statements

- `natural?_toDigits`: reading inverts `Nat.toDigits`, for every base and every reader of digits.
- `parse?_toDigits`: the digits of a number are read as the number.
- `read_toDigits`, `read_hexByte`: the two notations of addresses, within a digit limit.
-/

namespace EightBit

/-- A computation that can fail succeeds if its first step and what follows do. -/
theorem bind_ok_iff {ε α β : Type} {first : Except ε α} {next : α → Except ε β} {result : β} :
    first >>= next = .ok result ↔ ∃ middle, first = .ok middle ∧ next middle = .ok result := by
  cases first with
  | error e => simp [bind, Except.bind]
  | ok middle => simp [bind, Except.bind]

end EightBit

namespace EightBit.Numeral

open Text

/-! ## Digits -/

/-- A decimal digit is read as its value. -/
theorem digitValue?_digitChar {d : Nat} (h : d < 10) : digitValue? d.digitChar = some d := by
  interval_cases d <;> rfl

/-- A hexadecimal digit in upper case is read as its value. -/
theorem hexValue?_toUpper_digitChar {d : Nat} (h : d < 16) :
    hexValue? d.digitChar.toUpper = some d := by
  interval_cases d <;> rfl

/-- Appending a digit multiplies the value by the base. -/
theorem ofDigits_append_singleton (base : Nat) (digits : List Nat) (d : Nat) :
    ofDigits base (digits ++ [d]) = ofDigits base digits * base + d := by
  simp [ofDigits]

/-- The digits of a number, each read by `digit?`, have the value of the number. -/
theorem mapM_toDigits {base : Nat} {digit? : Char → Option Nat} (one_lt : 1 < base)
    (reads : ∀ d < base, digit? d.digitChar = some d) (n : Nat) :
    ∃ digits, (Nat.toDigits base n).mapM digit? = some digits ∧ ofDigits base digits = n := by
  -- the last digit is taken off, which leaves the quotient by the base
  induction n using Nat.strong_induction_on with
  | _ n ih =>
    rw [Nat.toDigits_eq_if one_lt]
    split
    · next small =>
      exact ⟨[n], by simp [reads n small], by simp [ofDigits]⟩
    · next large =>
      have smaller : n / base < n := Nat.div_lt_self (by omega) one_lt
      obtain ⟨digits, read, value⟩ := ih (n / base) smaller
      refine ⟨digits ++ [n % base], ?_, ?_⟩
      · rw [List.mapM_append, read]
        simp [reads (n % base) (Nat.mod_lt _ (by omega))]
      · rw [ofDigits_append_singleton, value, Nat.mul_comm]
        exact Nat.div_add_mod n base

/-- **Reading inverts writing**, for every base and every reader of its digits. -/
theorem natural?_toDigits {base : Nat} {digit? : Char → Option Nat} (one_lt : 1 < base)
    (reads : ∀ d < base, digit? d.digitChar = some d) (n : Nat) :
    natural? base digit? (Nat.toDigits base n) = some n := by
  obtain ⟨digits, read, value⟩ := mapM_toDigits one_lt reads n
  simp [natural?, Nat.toDigits_ne_nil, read, value]

/-- Changing the characters of a text first changes the reader of its digits. -/
theorem natural?_map (base : Nat) (digit? : Char → Option Nat) (f : Char → Char)
    (text : List Char) :
    natural? base digit? (text.map f) = natural? base (digit? ∘ f) text := by
  simp [natural?, List.mapM_map, Function.comp_def]

/-- Zeros in front of digits do not count. -/
theorem natural?_zeros {base : Nat} {digit? : Char → Option Nat} (zero : digit? '0' = some 0)
    (count : Nat) {text : List Char} (nonempty : text ≠ []) :
    natural? base digit? (List.replicate count '0' ++ text) = natural? base digit? text := by
  induction count with
  | zero => rfl
  | succ count ih =>
    rw [← ih]
    have inner : List.replicate count '0' ++ text ≠ [] := by simp [nonempty]
    -- a zero in front adds nothing to the value of the digits, and spoils nothing where they have none
    cases read : (List.replicate count '0' ++ text).mapM digit? <;>
      simp [natural?, List.replicate_succ, zero, read, ofDigits, nonempty]

/-! ## The characters of digits -/

/-- Every character of a number is a digit of its base. -/
theorem mem_toDigits {base n : Nat} (one_lt : 1 < base) {c : Char}
    (mem : c ∈ Nat.toDigits base n) : ∃ d < base, c = d.digitChar := by
  induction n using Nat.strong_induction_on with
  | _ n ih =>
    rw [Nat.toDigits_eq_if one_lt] at mem
    split at mem
    · next small => exact ⟨n, small, List.mem_singleton.1 mem⟩
    · next large =>
      rcases List.mem_append.1 mem with front | last
      · exact ih (n / base) (Nat.div_lt_self (by omega) one_lt) front
      · exact ⟨n % base, Nat.mod_lt _ (by omega), List.mem_singleton.1 last⟩

/-- A number whose digits all have a property has it. -/
theorem forall_mem_toDigits {base : Nat} (one_lt : 1 < base) {P : Char → Prop}
    (digits : ∀ d < base, P d.digitChar) (n : Nat) : ∀ c ∈ Nat.toDigits base n, P c := by
  intro c mem
  obtain ⟨d, small, rfl⟩ := mem_toDigits one_lt mem
  exact digits d small

/-- Decimal digits have a property if the ten of them have it. -/
theorem forall_mem_decimal {P : Char → Prop} (digits : ∀ d < 10, P d.digitChar) (n : Nat) :
    ∀ c ∈ Nat.toDigits 10 n, P c :=
  forall_mem_toDigits (by decide) digits n

/-- A hexadecimal byte has a property if the sixteen digits have it. -/
theorem forall_mem_hexByte {P : Char → Prop} (digits : ∀ d < 16, P d.digitChar.toUpper)
    (n : Nat) : ∀ c ∈ hexByte n, P c := by
  intro c mem
  obtain ⟨small, inDigits, rfl⟩ := List.mem_map.1 mem
  simp only [write, List.mem_append, List.mem_replicate] at inDigits
  -- a byte has no sign and no marker, only zeros and digits
  rcases inDigits with ((sign | marker) | zero) | digit
  · rw [if_neg (by omega)] at sign
    cases sign
  · cases marker
  · rw [zero.2]
    exact digits 0 (by decide)
  · obtain ⟨d, lt, rfl⟩ := mem_toDigits (by decide) digit
    exact digits d lt

/-! ## Decimal numbers -/

/-- A natural number is its digits. -/
theorem decimal_natCast (n : Nat) : decimal n = Nat.toDigits 10 n := by
  have positive : ¬ (n : Int) < 0 := by omega
  simp [decimal, write, positive]

/-- A negative number is a sign and the digits of its absolute value. -/
theorem decimal_of_neg {value : Int} (negative : value < 0) :
    decimal value = '-' :: Nat.toDigits 10 value.natAbs := by
  simp [decimal, write, negative]

/-- A text without an `x` is read as decimal digits. -/
theorem magnitude?_of_no_marker {text : List Char} (plain : ∀ c ∈ text, c ≠ 'x' ∧ c ≠ 'X') :
    magnitude? text = natural? 10 digitValue? text := by
  unfold magnitude?
  split
  · exact absurd rfl (plain 'x' (by simp)).1
  · exact absurd rfl (plain 'X' (by simp)).2
  · rfl

theorem magnitude?_toDigits (n : Nat) : magnitude? (Nat.toDigits 10 n) = some n := by
  rw [magnitude?_of_no_marker (forall_mem_decimal (by decide) n)]
  exact natural?_toDigits (by decide) (fun d => digitValue?_digitChar) n

theorem noBlank_toDigits (n : Nat) : NoBlank (Nat.toDigits 10 n) :=
  forall_mem_decimal (by decide) n

/-- Digits are no number with a sign. -/
theorem signed?_toDigits (n : Nat) : signed? (Nat.toDigits 10 n) = some (n : Int) := by
  have plain := forall_mem_decimal (P := fun c => c ≠ '-') (by decide) n
  unfold signed?
  split
  -- no digit is a sign
  · next eq => exact absurd rfl (plain '-' (by simp [eq]))
  · rw [magnitude?_toDigits]
    rfl

/-- The text of digits is read as the number. -/
theorem parse?_toDigits (n : Nat) : parse? (Nat.toDigits 10 n) = some (n : Int) := by
  rw [parse?, trim_of_trimmed (noBlank_toDigits n).trimmed, signed?_toDigits]

/-! ## Hexadecimal bytes -/

theorem noBlank_markedByte (n : Nat) : NoBlank ('0' :: 'x' :: hexByte n) := by
  intro c mem
  rcases List.mem_cons.1 mem with rfl | later
  · decide
  · rcases List.mem_cons.1 later with rfl | digit
    · decide
    · exact forall_mem_hexByte (P := fun c => isBlank c = false) (by decide) n c digit

/-- The digits of a byte are read as the number. -/
theorem natural?_hexByte (n : Nat) : natural? 16 hexValue? (hexByte n) = some n := by
  have positive : ¬ (n : Int) < 0 := by omega
  simp only [hexByte, write, positive, if_false, natural?_map, Int.natAbs_natCast, List.nil_append]
  -- a zero may stand in front to make two digits
  rw [natural?_zeros rfl _ Nat.toDigits_ne_nil]
  exact natural?_toDigits (by decide) (fun d => hexValue?_toUpper_digitChar) n

/-- A byte after its `0x` is read as the number. -/
theorem parse?_hexByte (n : Nat) : parse? ('0' :: 'x' :: hexByte n) = some (n : Int) := by
  rw [parse?, trim_of_trimmed (noBlank_markedByte n).trimmed]
  simp [signed?, magnitude?, natural?_hexByte]

/-- A byte has two digits. -/
theorem length_hexByte {n : Nat} (small : n < 256) : (hexByte n).length = 2 := by
  have digits : (Nat.toDigits 16 n).length ≤ 2 :=
    (Nat.length_toDigits_le_iff (by decide) (by decide)).2 small
  have positive : ¬ (n : Int) < 0 := by omega
  simp only [hexByte, write, positive, if_false, List.length_map, List.length_append,
    List.length_replicate, List.length_nil, Int.natAbs_natCast]
  omega

/-! ## Digit limits -/

/-- A smaller count passes wherever a larger one does. -/
theorem check_of_le {limit : DigitLimit} {few many : Nat} (room : limit.check many = .ok ())
    (le : few ≤ many) : limit.check few = .ok () := by
  rw [DigitLimit.check_eq_ok_iff] at room ⊢
  exact fun most eq => le.trans (room most eq)

/-- A numeral is read if its digits are within the limit. -/
theorem read_of_parse? {limit : DigitLimit} {text : List Char} {value : Int}
    (parsed : parse? text = some value) (room : limit.check (decimalLength text) = .ok ()) :
    read limit text = .ok (some value) := by
  rw [read_eq_ok_iff]
  exact ⟨parsed, fun _ => (DigitLimit.check_eq_ok_iff ..).1 room⟩

/-- A text that is no numeral is read as none, whatever the limit. -/
theorem read_of_not_parse? {limit : DigitLimit} {text : List Char} (parsed : parse? text = none) :
    read limit text = .ok none := by
  rw [read_eq_ok_iff]
  exact ⟨parsed, by simp⟩

theorem decimalLength_toDigits (n : Nat) :
    decimalLength (Nat.toDigits 10 n) = (Nat.toDigits 10 n).length := by
  have plain := forall_mem_decimal (P := fun c => c ≠ '-' ∧ c ≠ 'x' ∧ c ≠ 'X') (by decide) n
  unfold decimalLength
  rw [trim_of_trimmed (noBlank_toDigits n).trimmed]
  split <;> simp_all

/-- Hexadecimal digits are not counted. -/
theorem decimalLength_hexByte (n : Nat) : decimalLength ('0' :: 'x' :: hexByte n) = 0 := by
  simp [decimalLength, trim_of_trimmed (noBlank_markedByte n).trimmed]

/-- A hexadecimal byte is read within every limit. -/
theorem read_hexByte (limit : DigitLimit) (n : Nat) :
    read limit ('0' :: 'x' :: hexByte n) = .ok (some (n : Int)) := by
  refine read_of_parse? (parse?_hexByte n) ?_
  rw [decimalLength_hexByte]
  exact (DigitLimit.check_eq_ok_iff ..).2 fun _ _ => Nat.zero_le _

/-- The room that the usual limit leaves. -/
theorem check_digitLimit : DigitLimit.check (some digitLimit) 3 = .ok () := by
  decide

/-- **A number of at most three digits is read** within every limit that has room for them. -/
theorem read_toDigits {limit : DigitLimit} (room : limit.check 3 = .ok ()) {n : Nat}
    (small : n < 1000) : read limit (Nat.toDigits 10 n) = .ok (some (n : Int)) := by
  refine read_of_parse? (parse?_toDigits n) (check_of_le room ?_)
  rw [decimalLength_toDigits, Nat.length_toDigits_le_iff (by decide) (by decide)]
  exact small

end EightBit.Numeral
