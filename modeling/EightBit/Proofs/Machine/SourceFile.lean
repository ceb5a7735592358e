import EightBit.Machine.Run
import EightBit.Proofs.Text.Lines
import EightBit.Text.Utf8
import Mathlib.Data.List.TakeWhile

/-!
# Source Text and Source File

A source can be handed over as a text or as a file. Every text can be written as UTF-8, and reading the bytes
gives the text again: a character is written as a leading byte and up to three bytes that continue it, the
leading byte announces how many there are, and the guards against surrogates and overlong forms let every
character pass.

On the way through a file the line ends of a source are made uniform before it is cut into lines; cutting the
text itself knows every kind of line end. Both ways lead to the same lines, so a file is assembled, or rejected,
as its text is.

## Main Definitions

- `utf8Bytes`: the bytes of a text.
- `Sequence`: a leading byte with the bytes that continue it properly.
- `Spells`: a sequence that stands for a code point.

## Main Statements

- `exists_spells`: a character is written as a sequence that stands for it.
- `decodeUtf8_utf8Bytes`: what was written is read back.
- `splitLines_normalizeNewlines`: making the line ends uniform moves no line.
- `assembleText_congr`: a source is assembled by its lines alone.
- `loadFile_utf8Bytes`: loading a file that holds a text is assembling the text.
-/

namespace EightBit.Text

/-- The text as the bytes of its UTF-8 form. -/
def utf8Bytes (text : List Char) : List UInt8 :=
  (String.ofList text).toUTF8.data.toList

theorem utf8Bytes_eq_flatMap (text : List Char) :
    utf8Bytes text = text.flatMap String.utf8EncodeChar := by
  simp [utf8Bytes, List.utf8Encode]

/-! ## The tests on bytes as bounds -/

theorem isContinuation_iff (b : UInt8) :
    isContinuation b = true ↔ 128 ≤ b.toNat ∧ b.toNat < 192 := by
  simp [isContinuation, UInt8.le_iff_toNat_le, UInt8.lt_iff_toNat_lt]

theorem isSecond_iff (lead second : UInt8) :
    isSecond lead second = true ↔ isContinuation second = true ∧
      (lead.toNat = 224 → 160 ≤ second.toNat) ∧ (lead.toNat = 237 → second.toNat < 160) ∧
      (lead.toNat = 240 → 144 ≤ second.toNat) ∧ (lead.toNat = 244 → second.toNat < 144) := by
  simp [isSecond, UInt8.le_iff_toNat_le, UInt8.lt_iff_toNat_lt, ← UInt8.toNat_inj, and_assoc,
    ← imp_iff_not_or]

theorem sequenceLength?_eq (lead : UInt8) :
    sequenceLength? lead =
      if lead.toNat < 128 then some 1 else if lead.toNat < 194 then none
      else if lead.toNat < 224 then some 2 else if lead.toNat < 240 then some 3
      else if lead.toNat < 245 then some 4 else none := by
  simp [sequenceLength?, UInt8.lt_iff_toNat_lt]

/-- A continuation byte carries six bits. -/
def continuation (bits : Nat) : UInt8 :=
  UInt8.ofNat (bits % 64 + 128)

theorem toNat_continuation (bits : Nat) : (continuation bits).toNat = bits % 64 + 128 :=
  UInt8.toNat_ofNat_of_lt' (by show _ < 256; omega)

theorem isContinuation_continuation (bits : Nat) : isContinuation (continuation bits) = true := by
  rw [isContinuation_iff, toNat_continuation]
  omega

/-! ## One sequence -/

/-- The bytes continue the leading byte properly, and are as many as it announces. -/
structure Sequence (lead : UInt8) (more : List UInt8) : Prop where
  announced : sequenceLength? lead = some (more.length + 1)
  second : ∀ b ∈ more.head?, isSecond lead b = true
  continued : ∀ b ∈ more.tail, isContinuation b = true

/-- All bytes of a sequence are found good, whatever follows it. -/
theorem Sequence.goodContinuations {lead second : UInt8} {more : List UInt8}
    (sequence : Sequence lead (second :: more)) (rest : List UInt8) :
    goodContinuations lead (second :: more).length (second :: more ++ rest) =
      (second :: more).length := by
  have isSecond : isSecond lead second = true := sequence.second second rfl
  have continued : more.takeWhile isContinuation = more :=
    List.takeWhile_eq_self_iff.2 sequence.continued
  rw [List.cons_append, Text.goodContinuations, if_pos isSecond, List.length_cons,
    Nat.add_sub_cancel, List.take_left, continued, Nat.add_comm]

/-- A sequence is read as one character, and reading goes on behind it. -/
theorem Sequence.decodeUtf8From {lead : UInt8} {more : List UInt8} (sequence : Sequence lead more)
    (position : Nat) (rest : List UInt8) :
    decodeUtf8From position (lead :: more ++ rest) =
      (decodeUtf8From (position + (more.length + 1)) rest).map
        (Char.ofNat (codePoint lead more.length more) :: ·) := by
  -- a sequence has as many continuations as its first byte announces, so all of them are taken
  have good : (if more.length = 0 then 0
      else Text.goodContinuations lead more.length (more ++ rest)) = more.length := by
    cases more with
    | nil => rfl
    | cons second more => exact sequence.goodContinuations rest
  rw [List.cons_append, Text.decodeUtf8From, sequence.announced]
  simp only [Nat.add_sub_cancel]
  rw [if_pos good, List.take_left, List.drop_left]
  cases Text.decodeUtf8From (position + (more.length + 1)) rest <;> rfl

/-! ## The sequence of a character -/

/-- The bytes are a sequence, and stand for the code point. -/
def Spells (lead : UInt8) (more : List UInt8) (point : Nat) : Prop :=
  Sequence lead more ∧ codePoint lead more.length more = point

variable {v : Nat}

theorem spells_one (small : v < 128) : Spells (UInt8.ofNat v) [] v := by
  have lead : (UInt8.ofNat v).toNat = v := UInt8.toNat_ofNat_of_lt' (by show _ < 256; omega)
  refine ⟨⟨?_, by simp, by simp⟩, lead⟩
  rw [sequenceLength?_eq, lead, if_pos small]
  rfl

/-- No overlong form is written: two bytes are only used from 128 on. -/
theorem spells_two (large : 128 ≤ v) (small : v < 2048) :
    Spells (UInt8.ofNat (v / 64 % 32 + 192)) [continuation v] v := by
  -- the leading byte does not overflow
  have lead : (UInt8.ofNat (v / 64 % 32 + 192)).toNat = v / 64 % 32 + 192 :=
    UInt8.toNat_ofNat_of_lt' (by show _ < 256; omega)
  refine ⟨⟨?_, ?_, by simp⟩, ?_⟩
  · rw [sequenceLength?_eq, lead, if_neg (by omega), if_neg (by omega), if_pos (by omega)]
    rfl
  · rintro b ⟨⟩
    refine (isSecond_iff _ _).2 ⟨isContinuation_continuation v, ?_⟩
    rw [lead]
    omega
  · show (UInt8.ofNat (v / 64 % 32 + 192)).toNat % 32 * 64 + (continuation v).toNat % 64 = v
    rw [lead, toNat_continuation]
    omega

/-- The second of three bytes keeps out overlong forms and surrogates. -/
theorem spells_three (large : 2048 ≤ v) (small : v < 65536) (real : v < 55296 ∨ 57343 < v) :
    Spells (UInt8.ofNat (v / 4096 % 16 + 224)) [continuation (v / 64), continuation v] v := by
  have lead : (UInt8.ofNat (v / 4096 % 16 + 224)).toNat = v / 4096 % 16 + 224 :=
    UInt8.toNat_ofNat_of_lt' (by show _ < 256; omega)
  refine ⟨⟨?_, ?_, by simp [isContinuation_continuation]⟩, ?_⟩
  · rw [sequenceLength?_eq, lead, if_neg (by omega), if_neg (by omega), if_neg (by omega),
      if_pos (by omega)]
    rfl
  -- the byte behind it is a continuation, and none of the exceptions of its row
  · rintro b ⟨⟩
    refine (isSecond_iff _ _).2 ⟨isContinuation_continuation _, ?_⟩
    rw [lead, toNat_continuation]
    omega
  · show ((UInt8.ofNat (v / 4096 % 16 + 224)).toNat % 16 * 64 +
        (continuation (v / 64)).toNat % 64) * 64 + (continuation v).toNat % 64 = v
    rw [lead, toNat_continuation, toNat_continuation]
    omega

/-- The second of four bytes keeps out overlong forms and numbers above the last code point. -/
theorem spells_four (large : 65536 ≤ v) (small : v < 1114112) :
    Spells (UInt8.ofNat (v / 262144 % 8 + 240))
      [continuation (v / 4096), continuation (v / 64), continuation v] v := by
  have lead : (UInt8.ofNat (v / 262144 % 8 + 240)).toNat = v / 262144 % 8 + 240 :=
    UInt8.toNat_ofNat_of_lt' (by show _ < 256; omega)
  refine ⟨⟨?_, ?_, by simp [isContinuation_continuation]⟩, ?_⟩
  · rw [sequenceLength?_eq, lead, if_neg (by omega), if_neg (by omega), if_neg (by omega),
      if_neg (by omega), if_pos (by omega)]
    rfl
  · rintro b ⟨⟩
    -- the byte behind it is a continuation within the range of its row
    refine (isSecond_iff _ _).2 ⟨isContinuation_continuation _, ?_⟩
    rw [lead, toNat_continuation]
    omega
  · show (((UInt8.ofNat (v / 262144 % 8 + 240)).toNat % 8 * 64 +
        (continuation (v / 4096)).toNat % 64) * 64 + (continuation (v / 64)).toNat % 64) * 64 +
          (continuation v).toNat % 64 = v
    rw [lead, toNat_continuation, toNat_continuation, toNat_continuation]
    omega

/-- **A character is written as a sequence that stands for it.** -/
theorem exists_spells (c : Char) :
    ∃ lead more, String.utf8EncodeChar c = lead :: more ∧ Spells lead more c.toNat := by
  have valid : c.toNat < 55296 ∨ 57343 < c.toNat ∧ c.toNat < 1114112 := c.valid
  rw [String.utf8EncodeChar]
  simp only [show c.val.toNat = c.toNat from rfl]
  split
  · next one => exact ⟨_, _, rfl, spells_one (by omega)⟩
  split
  · next two => exact ⟨_, _, rfl, spells_two (by omega) (by omega)⟩
  split
  · next three => exact ⟨_, _, rfl, spells_three (by omega) (by omega) (by omega)⟩
  · next four => exact ⟨_, _, rfl, spells_four (by omega) (by omega)⟩

/-! ## A whole text -/

theorem decodeUtf8From_utf8Bytes (position : Nat) (text : List Char) :
    decodeUtf8From position (utf8Bytes text) = .ok text := by
  rw [utf8Bytes_eq_flatMap]
  -- one character after the other, each of them is a sequence of its own
  induction text generalizing position with
  | nil => rw [List.flatMap_nil, decodeUtf8From]
  | cons c text ih =>
    obtain ⟨lead, more, written, sequence, point⟩ := exists_spells c
    rw [List.flatMap_cons, written, sequence.decodeUtf8From, ih, point, Char.ofNat_toNat]
    rfl

/-- **What was written as UTF-8 is read back.** -/
theorem decodeUtf8_utf8Bytes (text : List Char) : decodeUtf8 (utf8Bytes text) = .ok text :=
  decodeUtf8From_utf8Bytes 0 text

end EightBit.Text

namespace EightBit

namespace Text

/-! ## Uniform line ends -/

/-- A return that stands alone becomes a feed. -/
theorem normalizeNewlines_return {rest : List Char} (single : ∀ more, rest ≠ '\n' :: more) :
    normalizeNewlines ('\r' :: rest) = '\n' :: normalizeNewlines rest := by
  rw [normalizeNewlines]
  exact fun more shape => single more shape

/-- Every character but a return stays. -/
theorem normalizeNewlines_cons {c : Char} (other : c ≠ '\r') (rest : List Char) :
    normalizeNewlines (c :: rest) = c :: normalizeNewlines rest := by
  rw [normalizeNewlines]
  · exact fun _ isReturn _ => other isReturn
  · exact other

/-- **Making the line ends uniform moves no line.** A feed in place of a return merges with nothing,
since no return is left that it could belong to. -/
theorem splitLines_normalizeNewlines (text : List Char) :
    splitLines (normalizeNewlines text) = splitLines text := by
  have feed : ∀ rest, splitLines ('\n' :: rest) = [] :: splitLines rest :=
    fun rest => splitLines_break rfl fun isReturn => absurd isReturn (by decide)
  -- the cases are the end, a return with its feed, a return alone, and any other character
  induction text using normalizeNewlines.induct with
  | case1 => rfl
  | case2 rest ih =>
    rw [normalizeNewlines, feed, ih]
    rfl
  | case3 rest single ih =>
    rw [normalizeNewlines_return single, feed, ih, splitLines_break rfl fun _ => single]
  | case4 c rest _ other ih =>
    rw [normalizeNewlines_cons other]
    by_cases breaks : isLineBreak c = true
    · rw [splitLines_break breaks fun isReturn => absurd isReturn other,
        splitLines_break breaks fun isReturn => absurd isReturn other, ih]
    · rw [splitLines_cons (by simpa using breaks), splitLines_cons (by simpa using breaks), ih]

end Text

/-! ## A source and its lines -/

/-- **A source is assembled by its lines alone.** The result, or what is reported with the number and
the text of its line, does not depend on how the lines are ended. -/
theorem assembleText_congr (limit : DigitLimit) {source other : List Char}
    (same : Text.splitLines source = Text.splitLines other) :
    assembleText limit source = assembleText limit other := by
  have start : Layout.start source = Layout.start other := by
    rw [Layout.start, Layout.start, same]
  rw [assembleText, assembleText, Layout.ofSource, Layout.ofSource, start]

namespace Machine

variable {σ : Type}

/-- The text that is read from a file that holds a text. -/
theorem sourceText_utf8Bytes (text : List Char) :
    sourceText (Text.utf8Bytes text) = .ok (Text.normalizeNewlines text) := by
  rw [sourceText, Text.decodeUtf8_utf8Bytes]

theorem assemble_congr (limit : DigitLimit) {source other : List Char}
    (same : Text.splitLines source = Text.splitLines other) :
    (assemble limit source : Action σ Program) = assemble limit other := by
  rw [assemble, assemble, assembleText_congr limit same]

/-- **Loading a file that holds a text is assembling the text.** The program is the same, or else
what is wrong with which line, and the machine is left the same. -/
theorem loadFile_utf8Bytes (limit : DigitLimit) (text : List Char) :
    (loadFile limit (Text.utf8Bytes text) : Action σ Program) = assemble limit text := by
  rw [loadFile, sourceText_utf8Bytes]
  exact assemble_congr limit (Text.splitLines_normalizeNewlines text)

end Machine
end EightBit
