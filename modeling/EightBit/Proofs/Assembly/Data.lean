import EightBit.Proofs.Assembly.Bytes
import EightBit.Proofs.Numeral.Exactness

/-!
# Data

A line of data writes what its items say, byte for byte: numbers, characters and texts, with any
blanks around them. A comma, a semicolon, a bracket or a quote in a literal is data like any other
character, whatever literals stand next to it.

## Main Definitions

- `Datum`: an item of data that is written as a literal.
- `Datum.literal`, `Datum.bytes`: how it is written, and the bytes that it stands for.
- `dataLine`: items in a line.
- `DataItem.Within`: items without too many digits.

## Main Statements

- `Datum.dataItem_literal`: an item is read as its bytes.
- `parse_dataLine`: a line of data is read into its items.
- `assembleText_data`: a line of data is assembled to the bytes of its items.
- `exists_data_refused`: it is refused if there are too many zeros in front of a number.
-/

namespace EightBit

open Layout Source Text

/-! ## Items -/

/-- All characters have codes of eight bits. -/
def Narrow (chars : List Char) : Prop :=
  ∀ c ∈ chars, c.toNat ≤ 255

instance (chars : List Char) : Decidable (Narrow chars) :=
  List.decidableBAll _ chars

/-- An item of data: a number that is a byte with or without sign, a character, or a text.
Characters are no line breaks and have codes of eight bits. -/
inductive Datum
  | number (number : Numeral.Integer) (inRange : -128 ≤ number.value ∧ number.value ≤ 255)
  | character (c : Char) (narrow : c.toNat ≤ 255) (inLine : isLineBreak c = false)
  | text (chars : List Char) (narrow : Narrow chars) (inLine : NoBreak chars)
    (noQuote : '"' ∉ chars)

namespace Datum

/-- How an item is written. -/
def literal : Datum → List Char
  | .number n _ => n.text
  | .character c _ _ => ['\'', c, '\'']
  | .text chars _ _ _ => '"' :: (chars ++ ['"'])

/-- The bytes that an item stands for. -/
def bytes : Datum → List UInt8
  | .number n _ => [UInt8.ofNat (n.value % 256).toNat]
  | .character c _ _ => [UInt8.ofNat c.toNat]
  | .text chars _ _ _ => chars.map fun c => UInt8.ofNat c.toNat

/-- The number of decimal digits in an item. -/
def decimals : Datum → Nat
  | .number n _ => n.magnitude.decimals
  | .character .. | .text .. => 0

variable (datum : Datum)

theorem inert : Inert datum.literal := by
  cases datum with
  | number number inRange => exact number.inert
  | character c narrow inLine => exact inert_literal c
  | text chars narrow inLine noQuote => exact inert_quoted noQuote

theorem noBreak : NoBreak datum.literal := by
  cases datum with
  | number number inRange => exact number.noBreak
  | character c narrow inLine => exact .cons rfl (.cons inLine (.cons rfl .nil))
  | text chars narrow inLine noQuote => exact .cons rfl (inLine.append (.cons rfl .nil))

/-- An item starts with a sign, a digit or a quote. -/
theorem started : ∃ c more, datum.literal = c :: more ∧ isBlank c = false ∧ c ≠ ':' := by
  cases datum with
  | number number inRange =>
    obtain ⟨c, more, shape, start⟩ := number.exists_cons_text
    have noBlank := number.trimmed_text.first c (by rw [shape]; rfl)
    refine ⟨c, more, shape, noBlank, ?_⟩
    rintro rfl
    rcases start with minus | digit
    · cases minus
    · cases digit
  | character c narrow inLine => exact ⟨_, _, rfl, by decide, by decide⟩
  | text chars narrow inLine noQuote => exact ⟨_, _, rfl, by decide, by decide⟩

theorem trimmed : Trimmed datum.literal := by
  cases datum with
  | number number inRange => exact number.trimmed_text
  | character c narrow inLine => exact trimmed_literal c
  | text chars narrow inLine noQuote => exact trimmed_of_ends rfl (by decide) (by decide)

/-- **An item is read as its bytes**, when its digits have been counted. -/
theorem dataItem_literal (limit : DigitLimit) :
    Effect.dataItem limit datum.literal = ((limit.check datum.decimals).mapError .excess >>= fun _ =>
      .ok (datum.bytes.map .byte)) := by
  -- only numbers have digits to count; the other items pass any limit
  have uncounted : limit.check 0 = .ok () := (limit.check_eq_ok_iff 0).2 fun _ _ => Nat.zero_le _
  cases datum with
  | number number inRange =>
    rw [Effect.dataItem, literal, Operand.classify_integer, Operand.immediateOf, if_pos inRange, decimals]
    cases limit.check number.magnitude.decimals <;> rfl
  | character c narrow inLine =>
    rw [Effect.dataItem, literal, Operand.classify_character, Operand.classifyCharacter,
      if_neg (by omega), decimals, uncounted]
    rfl
  | text chars narrow inLine noQuote =>
    rw [Effect.dataItem, literal, Operand.classify_text limit narrow, decimals, uncounted]
    rfl

end Datum

/-- An item between blanks. -/
structure DataItem where
  lead : LineBlanks
  datum : Datum
  trail : LineBlanks

namespace DataItem

/-- The text of an item with its blanks. -/
def text (item : DataItem) : List Char :=
  item.lead.text ++ item.datum.literal ++ item.trail.text

variable (item : DataItem)

theorem isOperand : IsOperand item.text :=
  item.datum.inert.isOperand item.lead.blank item.trail.blank item.datum.started

theorem noBreak : NoBreak item.text :=
  (item.lead.inLine.append item.datum.noBreak).append item.trail.inLine

theorem trim_text : trim item.text = item.datum.literal :=
  trim_between_blanks item.lead.blank item.datum.trimmed item.trail.blank

end DataItem

/-! ## Lines -/

/-- `DB`, blanks, and items with commas between them. -/
def dataLine (gap : LineBlanks) (items : List DataItem) : List Char :=
  "DB".toList ++ gap.text ++ [','].intercalate (items.map DataItem.text)

/-- The bytes of all items. -/
def dataBytes (items : List DataItem) : List UInt8 :=
  items.flatMap fun item => item.datum.bytes

section Line

variable {limit : DigitLimit} {gap : LineBlanks} {items : List DataItem}

theorem noBreak_dataLine : NoBreak (dataLine gap items) := by
  have inDb : NoBreak "DB".toList := by decide
  refine (inDb.append gap.inLine).append (noBreak_intercalate fun operand mem => ?_)
  obtain ⟨item, -, rfl⟩ := List.mem_map.1 mem
  exact item.noBreak

/-- **A line of data is read into its items.** -/
theorem parse_dataLine (apart : gap.text ≠ []) (nonempty : items ≠ []) :
    Line.parse (dataLine gap items) =
      { raw := dataLine gap items
        statement := some ⟨"DB".toList, items.map fun item => item.datum.literal⟩ } := by
  -- the line as a frame around its operands, which is how lines are read
  let frame : Frame :=
    { word := "DB".toList
      gap := gap.text
      isFront := .blanks AllBlank.nil
      isWord := List.all_eq_true.1 (by decide)
      begun := by decide
      blankGap := gap.blank
      apart := apart
      isTail := .inl rfl }
  have isLine : frame.line (items.map DataItem.text) = dataLine gap items := by
    simp [frame, Frame.line, Frame.head, dataLine]
  -- an item with its blanks is an operand, and its literal is what trimming leaves
  have areOperands : ∀ operand ∈ items.map DataItem.text, IsOperand operand := by
    intro operand mem
    obtain ⟨item, -, rfl⟩ := List.mem_map.1 mem
    exact item.isOperand
  have noFeed : '\n' ∉ frame.line (items.map DataItem.text) := by
    rw [isLine]
    intro mem
    cases noBreak_dataLine _ mem
  have parsed := frame.parse_line (by simpa using nonempty) areOperands noFeed
  have upperDb : upper "DB".toList = "DB".toList := by decide
  have literals : (items.map DataItem.text).map trim =
      items.map fun item => item.datum.literal := by
    rw [List.map_map]
    exact List.map_congr_left fun item _ => item.trim_text
  rw [isLine, literals] at parsed
  rw [parsed, ← upperDb]

/-- No number among the items has too many digits. -/
def DataItem.Within (limit : DigitLimit) (items : List DataItem) : Prop :=
  ∀ most ∈ limit, ∀ item ∈ items, item.datum.decimals ≤ most

instance (most : Nat) (items : List DataItem) : Decidable (DataItem.Within (some most) items) :=
  decidable_of_iff (∀ item ∈ items, item.datum.decimals ≤ most)
    ⟨fun within _ isMost => Option.some.inj isMost ▸ within, fun within => within most rfl⟩

/-- The items are worked off one after the other, and then what stands behind them. -/
theorem dataCells_append (within : DataItem.Within limit items) (rest : List (List Char)) :
    Effect.dataCells limit (items.map (fun item => item.datum.literal) ++ rest) =
      ((dataBytes items).map .byte ++ (Effect.dataCells limit rest).1, (Effect.dataCells limit rest).2) := by
  induction items with
  | nil => rfl
  | cons item items ih =>
    have here : limit.check item.datum.decimals = .ok () :=
      (limit.check_eq_ok_iff _).2 fun most isMost => within most isMost item List.mem_cons_self
    have later := ih fun most isMost other among => within most isMost other (List.mem_cons_of_mem _ among)
    rw [List.map_cons, List.cons_append, Effect.dataCells, item.datum.dataItem_literal, here, later]
    simp [dataBytes, Except.mapError, bind, Except.bind]

/-- A line of data has the effect of its items. -/
theorem effect_dataLine (limit : DigitLimit) (apart : gap.text ≠ []) (nonempty : items ≠ []) :
    (Line.parse (dataLine gap items)).label = none ∧ ∃ statement,
      (Line.parse (dataLine gap items)).statement = some statement ∧
        Effect.ofStatement limit statement =
          .emit (Effect.dataCells limit (items.map fun item => item.datum.literal)).1
            (Effect.dataCells limit (items.map fun item => item.datum.literal)).2 := by
  rw [parse_dataLine apart nonempty]
  refine ⟨rfl, _, rfl, ?_⟩
  have isData : (items.map fun item => item.datum.literal).isEmpty = false := by
    simpa using nonempty
  show Effect.ofData limit (items.map fun item => item.datum.literal) = _
  rw [Effect.ofData, isData]
  rfl

/-- A line of data contributes the bytes of its items. -/
theorem contributes_dataLine (apart : gap.text ≠ []) (nonempty : items ≠ [])
    (within : DataItem.Within limit items) :
    Contributes limit (Line.parse (dataLine gap items)) (some (dataBytes items)) := by
  obtain ⟨noLabel, statement, isStatement, effect⟩ := effect_dataLine limit apart nonempty
  refine ⟨noLabel, statement, isStatement, ?_⟩
  have cells := dataCells_append within []
  rw [List.append_nil] at cells
  rw [effect, cells]
  exact congrArg (Effect.emit · none) (List.append_nil _)

section OneLine

variable {raw : List Char} {bytes : List UInt8} {failure : Option (Rejection Problem)}
  (oneLine : splitLines raw = [raw])
  (adds : ∀ layout, addLine limit 1 (Line.parse raw) layout =
    perform 1 (.emit (bytes.map Cell.byte) failure) layout)
include oneLine adds

/-- A source of one line with more bytes than there is room for is rejected. -/
theorem exists_error_of_overflow (full : programLimit < bytes.length) :
    ∃ error, assembleText limit raw = .error (.wrong error) ∧ error.kind = .outOfBounds := by
  -- the line starts at the first address, so nothing but its own bytes can be too many
  have long : ¬(start raw).Fits (bytes.map Cell.byte) := by
    rintro (none | fits)
    · rw [List.map_eq_nil_iff.1 none] at full
      cases full
    · have cursor : (start raw).cursor = 0 := rfl
      rw [List.length_map] at fits
      omega
  obtain ⟨address, after, error⟩ := emit_of_not_fits 1 long
  have stopped : ofSource limit raw = .error ⟨.wrong (.codeTooHigh address), 1, after⟩ := by
    rw [ofSource]
    show addLines limit 1 ((splitLines raw).map Line.parse) _ >>= _ = _
    rw [oneLine, List.map_singleton, addLines, adds, perform, error]
    rfl
  rw [assembleText, stopped]
  exact ⟨_, rfl, rfl⟩

/-- If its bytes fit, what is wrong behind them is reported. -/
theorem assembleText_of_excess {excess : Excess} (fails : failure = some (.excess excess))
    (room : bytes.length ≤ programLimit) : assembleText limit raw = .error (.excess excess) := by
  -- the cells in front of the number fit, so it is the number that stops the first pass
  have fits : (start raw).Fits (bytes.map Cell.byte) := by
    refine .inr ?_
    have cursor : (start raw).cursor = 0 := rfl
    rw [List.length_map]
    omega
  have stopped : ofSource limit raw =
      .error ⟨.excess excess, 1, write 1 (bytes.map Cell.byte) (start raw)⟩ := by
    rw [ofSource]
    show addLines limit 1 ((splitLines raw).map Line.parse) _ >>= _ = _
    rw [oneLine, List.map_singleton, addLines, adds, perform, emit_of_fits 1 fits, fails]
    rfl
  rw [assembleText, stopped]
  rfl

end OneLine

/-- A line of data is a line. -/
theorem splitLines_dataLine : splitLines (dataLine gap items) = [dataLine gap items] :=
  splitLines_of_noBreak noBreak_dataLine (by simp [dataLine])

/-- The first number with too many digits stops a line of data, unless the bytes in front of it do. -/
theorem assembleText_of_beyond (apart : gap.text ≠ []) {most : Nat} {front back : List DataItem}
    {item : DataItem} (within : DataItem.Within (some most) front) (beyond : most < item.datum.decimals) :
    ((dataBytes front).length ≤ 192 →
        assembleText (some most) (dataLine gap (front ++ item :: back)) =
          .error (.excess ⟨most, some item.datum.decimals⟩)) ∧
      (192 < (dataBytes front).length → ∃ error,
        assembleText (some most) (dataLine gap (front ++ item :: back)) = .error (.wrong error) ∧
          error.kind = .outOfBounds) := by
  -- the number is refused where it stands; the items in front of it have been emitted
  have counted : DigitLimit.check (some most) item.datum.decimals =
      .error ⟨most, some item.datum.decimals⟩ := if_neg (Nat.not_le_of_lt beyond)
  have refused : Effect.dataCells (some most)
      (item.datum.literal :: back.map fun item => item.datum.literal) =
        ([], some (.excess ⟨most, some item.datum.decimals⟩)) := by
    rw [Effect.dataCells, item.datum.dataItem_literal, counted]
    rfl
  obtain ⟨noLabel, statement, isStatement, effect⟩ :=
    effect_dataLine (some most) apart (List.append_ne_nil_of_right_ne_nil front
      (List.cons_ne_nil item back))
  rw [List.map_append, List.map_cons, dataCells_append within, refused, List.append_nil] at effect
  have adds : ∀ layout, addLine (some most) 1 (Line.parse (dataLine gap (front ++ item :: back))) layout =
      perform 1 (.emit ((dataBytes front).map .byte)
        (some (.excess ⟨most, some item.datum.decimals⟩))) layout :=
    fun layout => by rw [addLine_eq_perform noLabel isStatement, effect]
  exact ⟨assembleText_of_excess splitLines_dataLine adds rfl,
    exists_error_of_overflow splitLines_dataLine adds⟩

/-- **Data is what is written.** A line with one item or more is assembled to the bytes of its
items, in order: numbers modulo 256, and the codes of characters. If they are more than there is
room for, then the line is rejected. So it is if a number has too many digits: then they are reported, unless
the bytes in front of the first such number are too many. Without a limit, no number has too many. -/
theorem assembleText_data (apart : gap.text ≠ []) (nonempty : items ≠ []) :
    (DataItem.Within limit items →
      ((dataBytes items).length ≤ 192 → ∃ program,
        assembleText limit (dataLine gap items) = .ok program ∧ program.code = dataBytes items) ∧
      (192 < (dataBytes items).length → ∃ error,
        assembleText limit (dataLine gap items) = .error (.wrong error) ∧
          error.kind = .outOfBounds)) ∧
    ∀ most front item back, limit = some most → items = front ++ item :: back →
      DataItem.Within limit front → most < item.datum.decimals →
        ((dataBytes front).length ≤ 192 → assembleText limit (dataLine gap items) =
          .error (.excess ⟨most, some item.datum.decimals⟩)) ∧
        (192 < (dataBytes front).length → ∃ error,
          assembleText limit (dataLine gap items) = .error (.wrong error) ∧
            error.kind = .outOfBounds) := by
  refine ⟨fun within => ⟨fun room => ?_, fun full => ?_⟩, ?_⟩
  · have contribute : List.Forall₂ (Contributes limit)
        ((splitLines (dataLine gap items)).map Line.parse) ([dataBytes items].map some) := by
      rw [splitLines_dataLine]
      exact .cons (contributes_dataLine apart nonempty within) .nil
    simpa using assembleText_accepted contribute (by simpa [programLimit] using room)
  · exact exists_error_of_overflow splitLines_dataLine
      (addLine_bytes (contributes_dataLine apart nonempty within) 1) full
  · rintro most front item back rfl rfl within beyond
    exact assembleText_of_beyond apart within beyond

/-- Quotes, commas, semicolons and brackets as data, next to each other and among numbers. -/
theorem assembleText_data_punctuation :
    ∃ line program, line = "DB \t''' ,',',';','\"',\"a;b,[':\", ']' , -0x80 ,0255".toList ∧
      assembleText (some digitLimit) line = .ok program ∧
      program.code = [39, 44, 59, 34, 97, 59, 98, 44, 91, 39, 58, 93, 128, 255] := by
  let character (c : Char) (narrow : c.toNat ≤ 255) (inLine : isLineBreak c = false) :=
    Datum.character c narrow inLine
  let one (lead : Nat) (datum : Datum) (trail : Nat) : DataItem :=
    ⟨.spaces lead, datum, .spaces trail⟩
  let gap : LineBlanks :=
    { text := [' ', '\t']
      blank := by decide
      inLine := by decide }
  let quoted : Datum :=
    .text "a;b,[':".toList (by decide) (by decide) (by decide)
  let least : Numeral.Integer :=
    ⟨true, .hexadecimal 'x' (.inl rfl) ['8', '0'] (by decide) (List.all_eq_true.1 (by decide))⟩
  let most : Numeral.Integer :=
    ⟨false, .decimal "0255".toList (by decide) (List.all_eq_true.1 (by decide))⟩
  let items : List DataItem :=
    [one 0 (character '\'' (by decide) (by decide)) 1,
      one 0 (character ',' (by decide) (by decide)) 0,
      one 0 (character ';' (by decide) (by decide)) 0,
      one 0 (character '"' (by decide) (by decide)) 0, one 0 quoted 0,
      one 1 (character ']' (by decide) (by decide)) 1, one 1 (.number least (by decide)) 1,
      one 0 (.number most (by decide)) 0]
  -- characters that separate or open something elsewhere, and both ends of the range
  have isLine : dataLine gap items =
      "DB \t''' ,',',';','\"',\"a;b,[':\", ']' , -0x80 ,0255".toList := by decide
  have bytes : dataBytes items = [39, 44, 59, 34, 97, 59, 98, 44, 91, 39, 58, 93, 128, 255] := by
    decide
  have within : DataItem.Within (some digitLimit) items := by decide
  have apart : gap.text ≠ [] := by decide
  obtain ⟨program, assembled, code⟩ :=
    ((assembleText_data apart (by decide)).1 within).1 (by rw [bytes]; decide)
  exact ⟨_, program, rfl, isLine ▸ assembled, code.trans bytes⟩

/-- **Data with zeros in front can be refused**, though its value is a byte and it takes no room. -/
theorem exists_data_refused :
    ∃ (gap : LineBlanks) (item : DataItem), gap.text ≠ [] ∧ dataBytes [item] = [7] ∧
      dataLine gap [item] = "DB ".toList ++ (List.replicate digitLimit '0' ++ ['7']) ∧
      assembleText (some digitLimit) (dataLine gap [item]) =
        .error (.excess ⟨digitLimit, some (digitLimit + 1)⟩) := by
  -- the digits are too many only because of the zeros in front
  obtain ⟨magnitude, -, text, -, value, -, count, -⟩ := Numeral.exists_padded
  have seven : (Numeral.Integer.mk false magnitude).value = 7 := congrArg Int.ofNat value
  -- the value itself is a byte
  let item : DataItem := ⟨.spaces 0, .number ⟨false, magnitude⟩ (by rw [seven]; decide), .spaces 0⟩
  have bytes : dataBytes [item] = [7] := by
    show [UInt8.ofNat ((Numeral.Integer.mk false magnitude).value % 256).toNat] = _
    rw [seven]
    rfl
  have isLine : dataLine (.spaces 1) [item] = "DB ".toList ++ (List.replicate digitLimit '0' ++ ['7']) := by
    rw [← text]
    simp [dataLine, item, DataItem.text, Datum.literal, Numeral.Integer.text, LineBlanks.spaces]
  have beyond : digitLimit < item.datum.decimals := by
    rw [show item.datum.decimals = digitLimit + 1 from count]
    exact Nat.lt_succ_self digitLimit
  have apart : (LineBlanks.spaces 1).text ≠ [] := by decide
  -- nothing stands in front of the item, so there is nothing to be within the limit
  have within : DataItem.Within (some digitLimit) [] := fun _ _ => List.forall_mem_nil _
  have refused : assembleText (some digitLimit) (dataLine (.spaces 1) [item]) =
      .error (.excess ⟨digitLimit, some item.datum.decimals⟩) :=
    (assembleText_of_beyond apart within beyond).1 (by decide)
  rw [show item.datum.decimals = digitLimit + 1 from count] at refused
  exact ⟨.spaces 1, item, apart, bytes, isLine, refused⟩

end Line

end EightBit
