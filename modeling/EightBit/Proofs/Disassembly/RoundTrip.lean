import EightBit.Proofs.Assembly.Bytes
import EightBit.Proofs.Disassembly.Operands
import EightBit.Proofs.Source.Line

/-!
# Assembling Disassembled Code

The texts of disassembled code, one on a line, are a source. It assembles to the code again just when
every instruction in it is canonical, and to nothing when the code is too long.

## Main Definitions

- `Item.Canonical`, `Item.isData`: the operand bytes of an item can be read back; the item is data.
- `listed`: the texts of disassembled code as a source.

## Main Statements

- `flatMap_bytes_disassemble`: no byte is lost.
- `exists_outcome`: what the line of an item contributes.
- `assemble_listed`: the round trip, with its exact condition.
-/

namespace EightBit.Disassembly

open Source Layout

/-! ## Items -/

/-- Where the items of code come from. -/
inductive Item.Origin : Item → Prop
  | data (address : Int) (byte : UInt8) : Item.Origin (dataItem address byte)
  | instr (address : Int) {opcode : UInt8} {instr : Instr} {operands : List UInt8} :
      Instr.decode? opcode.toNat = some instr → operands.length = instr.shapes.length →
      Item.Origin ⟨address, opcode :: operands, instrText instr operands⟩

theorem whole?_eq_some_iff {opcode : UInt8} {operands : List UInt8} {instr : Instr} :
    whole? (opcode :: operands) = some instr ↔
      Instr.decode? opcode.toNat = some instr ∧ instr.shapes.length ≤ operands.length := by
  rw [whole?, Option.filter_eq_some_iff, decide_eq_true_iff]

theorem origin_of_mem_disassemble {address : Int} {code : List UInt8} {item : Item}
    (mem : item ∈ disassemble address code) : item.Origin := by
  -- along the decoder: no code, a byte that starts no instruction, an instruction
  induction address, code using disassemble.induct with
  | case1 address => simp [disassemble] at mem
  | case2 address opcode operands noInstr ih =>
    rw [disassemble, noInstr] at mem
    rcases List.mem_cons.1 mem with rfl | later
    · exact .data address opcode
    · exact ih later
  | case3 address opcode operands instr whole ih =>
    rw [disassemble, whole] at mem
    obtain ⟨decoded, enough⟩ := whole?_eq_some_iff.1 whole
    rcases List.mem_cons.1 mem with rfl | later
    · exact .instr address decoded (by rw [List.length_take]; omega)
    · exact ih later

/-- **No byte is lost.** -/
theorem flatMap_bytes_disassemble (address : Int) (code : List UInt8) :
    (disassemble address code).flatMap Item.bytes = code := by
  induction address, code using disassemble.induct with
  | case1 address => simp [disassemble]
  | case2 address opcode operands noInstr ih =>
    rw [disassemble, noInstr]
    simp only [List.flatMap_cons, ih]
    rfl
  | case3 address opcode operands instr whole ih =>
    rw [disassemble, whole]
    simp only [List.flatMap_cons, ih]
    rw [List.cons_append, List.take_append_drop]

/-! ## Canonical items -/

/-- The item is a line of data. -/
def Item.isData (item : Item) : Bool :=
  "DB ".toList.isPrefixOf item.text

/-- The operand bytes of the item, if it has any, are read back from their texts. -/
def Item.Canonical (item : Item) : Prop :=
  ∀ opcode operands instr, item.bytes = opcode :: operands →
    Instr.decode? opcode.toNat = some instr →
    ∀ pair ∈ instr.shapes.zip operands, Disassembly.Canonical pair.1 pair.2

/-- The texts of operand bytes. -/
def shownAll (pairs : List (Shape × UInt8)) : List (List Char) :=
  pairs.map fun pair => shown pair.1 pair.2

theorem instrText_eq (instr : Instr) (operands : List UInt8) :
    instrText instr operands =
      written instr.mnemonic.toList (shownAll (instr.shapes.zip operands)) :=
  rfl

theorem dataText_eq (address : Int) (byte : UInt8) :
    (dataItem address byte).text = written "DB".toList [shown .immediate byte] := by
  have joined : [',', ' '].intercalate [shown .immediate byte] = byteText byte.toNat := by simp; rfl
  rw [written, joined]
  rfl

/-- A mnemonic is a word in upper case that is no directive. -/
theorem mnemonic_word (instr : Instr) :
    (∀ c ∈ instr.mnemonic.toList, isLabelChar c = true) ∧ instr.mnemonic.toList ≠ [] ∧
      Text.upper instr.mnemonic.toList = instr.mnemonic.toList ∧
      instr.mnemonic.toList ≠ "ORG".toList ∧ instr.mnemonic.toList ≠ "DB".toList := by
  have checked : Instr.all.all (fun instr =>
      let word := instr.mnemonic.toList
      word.all isLabelChar && !word.isEmpty && Text.upper word == word && word != "ORG".toList &&
        word != "DB".toList) = true := by
    decide +kernel
  have := List.all_eq_true.1 checked instr (Instr.mem_all instr)
  simp only [Bool.and_eq_true, List.all_eq_true, Bool.not_eq_true', List.isEmpty_eq_false_iff,
    beq_iff_eq, bne_iff_ne] at this
  obtain ⟨⟨⟨⟨chars, nonempty⟩, same⟩, notOrigin⟩, notData⟩ := this
  exact ⟨chars, nonempty, same, notOrigin, notData⟩

/-- An instruction is not shown as data. -/
theorem isData_instr (address : Int) (bytes : List UInt8) (instr : Instr)
    (operands : List UInt8) :
    (⟨address, bytes, instrText instr operands⟩ : Item).isData = false := by
  have checked : Instr.all.all (fun instr =>
      2 ≤ instr.mnemonic.toList.length && !"DB".toList.isPrefixOf instr.mnemonic.toList) = true := by
    decide +kernel
  have := List.all_eq_true.1 checked instr (Instr.mem_all instr)
  simp only [Bool.and_eq_true, decide_eq_true_iff, Bool.not_eq_true'] at this
  obtain ⟨long, other⟩ := this
  have start : instr.mnemonic.toList <+: instrText instr operands := by
    rw [instrText_eq, written]
    split
    · exact List.prefix_rfl
    · exact List.prefix_append ..
  rw [Item.isData, Bool.eq_false_iff, ne_eq, List.isPrefixOf_iff_prefix]
  -- two prefixes of one text: the shorter one would be a prefix of the mnemonic
  intro isData
  have two : "DB".toList <+: instrText instr operands :=
    (show "DB".toList <+: "DB ".toList from ⟨[' '], rfl⟩).trans isData
  have inWord : "DB".toList <+: instr.mnemonic.toList :=
    List.prefix_of_prefix_length_le two start long
  rw [List.isPrefixOf_iff_prefix.2 inWord] at other
  cases other

/-! ## Reading the operands of an instruction -/

section Reread

variable {limit : DigitLimit} (room : limit.check 3 = .ok ())
include room

/-- Either some operand is rejected, or all of them are read. -/
theorem mapM_classify_shownAll {pairs : List (Shape × UInt8)}
    (encoded : ∀ pair ∈ pairs, pair.1.isEncoded = true) :
    (∃ problem, (shownAll pairs).mapM (Operand.classify limit) = .error (.wrong problem) ∧
        ∃ pair ∈ pairs, ¬Canonical pair.1 pair.2) ∨
      ∃ operands, (shownAll pairs).mapM (Operand.classify limit) = .ok operands ∧
        List.Forall₂ (fun pair operand => Reread pair.1 pair.2 (.ok operand)) pairs operands := by
  induction pairs with
  | nil => exact .inr ⟨[], rfl, .nil⟩
  -- the operands are read one after the other; the first that is rejected decides
  | cons pair pairs ih =>
    have first := reread_classify room (encoded pair List.mem_cons_self) pair.2
    have unfolded : (shownAll (pair :: pairs)).mapM (Operand.classify limit) =
        (do let operand ← Operand.classify limit (shown pair.1 pair.2)
            let operands ← (shownAll pairs).mapM (Operand.classify limit)
            return operand :: operands) := by
      rw [shownAll, List.map_cons, List.mapM_cons]
      rfl
    rw [unfolded]
    generalize Operand.classify limit (shown pair.1 pair.2) = result at first
    cases result with
    -- nothing but an operand that is not canonical is rejected
    | error rejection =>
      cases first with
      | rejected odd => exact .inl ⟨_, rfl, pair, List.mem_cons_self, odd⟩
    | ok operand =>
      rcases ih fun other mem => encoded other (List.mem_cons_of_mem pair mem) with
        ⟨problem, error, other, mem, odd⟩ | ⟨operands, ok, reread⟩
      · refine .inl ⟨problem, ?_, other, List.mem_cons_of_mem pair mem, odd⟩
        rw [error]
        rfl
      · refine .inr ⟨operand :: operands, ?_, .cons first reread⟩
        rw [ok]
        rfl

end Reread

/-! ## What was read -/

/-- The operands, one for each pair of a shape and a byte, are what the texts of the bytes are read
as. -/
abbrev RereadAll (pairs : List (Shape × UInt8)) (operands : List Operand) : Prop :=
  List.Forall₂ (fun pair operand => Reread pair.1 pair.2 (.ok operand)) pairs operands

/-- Every operand is one byte. -/
theorem bytes_of_reread {pairs : List (Shape × UInt8)} {operands : List Operand}
    (reread : RereadAll pairs operands) :
    ∃ values : List UInt8, operands.map Operand.cell = values.map Cell.byte ∧ values.length = pairs.length := by
  -- the cells are bytes because no operand that was shown is a label
  induction reread with
  | nil => exact ⟨[], rfl, rfl⟩
  | @cons pair operand pairs operands first _ ih =>
    obtain ⟨values, cells, length⟩ := ih
    have here : ∃ value, operand.cell = .byte value := by
      cases first with
      | read _ cell _ => exact ⟨_, cell⟩
      | stack _ _ => exact ⟨_, rfl⟩
    obtain ⟨value, cell⟩ := here
    refine ⟨value :: values, ?_, ?_⟩
    · rw [List.map_cons, cell, cells, List.map_cons]
    · rw [List.length_cons, length, List.length_cons]

/-- Canonical bytes are read as themselves. -/
theorem reread_of_canonical {pairs : List (Shape × UInt8)} {operands : List Operand}
    (reread : RereadAll pairs operands)
    (canonical : ∀ pair ∈ pairs, Canonical pair.1 pair.2) :
    operands.map Operand.cell = (pairs.map Prod.snd).map Cell.byte ∧
      operands.map Operand.shape = (pairs.map Prod.fst).map Shape.written := by
  induction reread with
  | nil => exact ⟨rfl, rfl⟩
  | @cons pair operand pairs operands first _ ih =>
    obtain ⟨cells, shapes⟩ := ih fun other mem => canonical other (List.mem_cons_of_mem pair mem)
    have here := canonical pair List.mem_cons_self
    simp only [List.map_cons, cells, shapes]
    cases first with
    | read shape cell value => rw [shape, cell, value.2 here]; exact ⟨rfl, rfl⟩
    | stack _ odd => exact absurd here odd

/-- Bytes that are read as themselves, and as operands that the instruction can be written with, are
canonical. -/
theorem canonical_of_reread {pairs : List (Shape × UInt8)} {operands : List Operand}
    {takesLabel : Bool} (reread : RereadAll pairs operands)
    (spelled : List.Forall₂ (fun shape expected => shape ∈ Instr.slot takesLabel expected)
      (operands.map Operand.shape) (pairs.map Prod.fst))
    (cells : operands.map Operand.cell = (pairs.map Prod.snd).map Cell.byte) :
    ∀ pair ∈ pairs, Canonical pair.1 pair.2 := by
  induction reread with
  | nil => exact fun _ mem => nomatch mem
  | @cons pair operand pairs operands first _ ih =>
    simp only [List.map_cons, List.cons.injEq] at cells
    rw [List.map_cons, List.map_cons] at spelled
    cases spelled with
    | cons inSlot rest =>
      have here : Canonical pair.1 pair.2 := by
        cases first with
        | read _ cell value =>
          rw [cell, Cell.byte.injEq] at cells
          exact value.1 cells.1
        | stack isIndirect _ =>
          -- no instruction takes an offset from the stack pointer for another register
          rw [isIndirect] at inSlot
          cases List.mem_singleton.1 inSlot
      intro other mem
      rcases List.mem_cons.1 mem with rfl | later
      · exact here
      · exact ih rest cells.2 other later

/-! ## Lines of items -/

theorem parse_mnemonic (instr : Instr) {operands : List (List Char)}
    (simple : ∀ operand ∈ operands, Simple operand) :
    Line.parse (written instr.mnemonic.toList operands) =
      { raw := written instr.mnemonic.toList operands
        statement := some ⟨instr.mnemonic.toList, operands⟩ } := by
  obtain ⟨isWord, nonempty, same, -, -⟩ := mnemonic_word instr
  rw [parse_written isWord nonempty simple, same]

theorem instrCells_mnemonic (limit : DigitLimit) (instr : Instr) (sources : List (List Char)) :
    Effect.instrCells limit instr.mnemonic.toList sources =
      sources.mapM (Operand.classify limit) >>= fun operands =>
        match Instr.lookup? instr.mnemonic (operands.map Operand.shape) with
        | some found => .ok (.byte (UInt8.ofNat found.opcode) :: operands.map Operand.cell)
        | none => .error (.wrong (.unsupportedOperands instr.mnemonic.toList sources)) := by
  have known : Instr.mnemonics.contains instr.mnemonic = true :=
    List.contains_iff_mem.2 (Instr.mem_mnemonics instr)
  rw [Effect.instrCells, String.ofList_toList, known]
  rfl

/-- The effect of an instruction whose operands are known. -/
theorem ofInstr_mnemonic {limit : DigitLimit} (instr : Instr) {sources : List (List Char)}
    {operands : List Operand} (ok : sources.mapM (Operand.classify limit) = .ok operands) :
    Effect.ofInstr limit instr.mnemonic.toList sources =
      match Instr.lookup? instr.mnemonic (operands.map Operand.shape) with
      | some found => .emit (.byte (UInt8.ofNat found.opcode) :: operands.map Operand.cell) none
      | none => .fail (.wrong (.unsupportedOperands instr.mnemonic.toList sources)) := by
  have cells := instrCells_mnemonic limit instr sources
  rw [ok] at cells
  change _ = (match Instr.lookup? instr.mnemonic (operands.map Operand.shape) with
    | some found => _
    | none => _) at cells
  rw [Effect.ofInstr, cells]
  cases Instr.lookup? instr.mnemonic (operands.map Operand.shape) <;> rfl

/-- An instruction is found by the shapes that its operands have when they are written. -/
theorem lookup?_written (instr : Instr) :
    Instr.lookup? instr.mnemonic (instr.shapes.map Shape.written) = some instr := by
  refine Instr.lookup?_eq_some_iff.2 ⟨(Instr.canonical_mnemonic instr).symm, ?_⟩
  refine Instr.mem_spellings_iff.2 (.inl ?_)
  rw [List.forall₂_map_left_iff, List.forall₂_same]
  intro shape _
  cases shape <;> cases instr.takesLabel <;> decide

/-- An item and what its line contributes: as many bytes as the item has, if any, and the bytes of
the item just when it is canonical. -/
structure Agrees (item : Item) (outcome : Option (List UInt8)) : Prop where
  length : ∀ chunk ∈ outcome, chunk.length = item.bytes.length
  same : outcome = some item.bytes ↔ item.Canonical

/-- Data has no operand bytes. -/
theorem canonical_dataItem (address : Int) (byte : UInt8) :
    (dataItem address byte).Canonical := by
  intro opcode operands instr bytes _
  cases bytes
  simp

theorem exists_outcome_data (limit : DigitLimit) (address : Int) (byte : UInt8) :
    ∃ outcome, Contributes limit (Line.parse (dataItem address byte).text) outcome ∧
      Agrees (dataItem address byte) outcome := by
  have isWord : ∀ c ∈ "DB".toList, isLabelChar c = true := List.all_eq_true.1 (by decide)
  have simple : ∀ operand ∈ [shown .immediate byte], Simple operand := by
    intro operand mem
    rw [List.mem_singleton.1 mem]
    exact simple_shown rfl byte
  have parsed := parse_written isWord (by decide) simple
  -- a data item is one byte in hexadecimal, and is read as that byte
  have effect : Effect.ofStatement limit ⟨"DB".toList, [shown .immediate byte]⟩ =
      .emit ([byte].map Cell.byte) none := by
    have text : shown .immediate byte = '0' :: 'x' :: Numeral.hexByte byte.toNat := rfl
    have classified := Operand.classify_byte limit byte.toNat_lt
    rw [← text, UInt8.ofNat_toNat] at classified
    have cells : Effect.dataItem limit (shown .immediate byte) = .ok [.byte byte] := by
      rw [Effect.dataItem, classified]
      rfl
    show Effect.ofData limit [shown .immediate byte] = _
    simp only [Effect.ofData, Effect.dataCells, cells]
    rfl
  refine ⟨some [byte], ⟨?_, ⟨"DB".toList, [shown .immediate byte]⟩, ?_, effect⟩, ?_⟩
  · rw [dataText_eq, parsed]
  · rw [dataText_eq, parsed]
    rfl
  · exact
      { length := by
          intro chunk mem
          cases mem
          rfl
        same := ⟨fun _ => canonical_dataItem address byte, fun _ => rfl⟩ }

section Instruction

variable {limit : DigitLimit} {opcode : UInt8} {instr other : Instr} {operands : List UInt8}

theorem canonical_instr_iff (address : Int) (decoded : Instr.decode? opcode.toNat = some instr) :
    (⟨address, opcode :: operands, instrText instr operands⟩ : Item).Canonical ↔
      ∀ pair ∈ instr.shapes.zip operands, Canonical pair.1 pair.2 := by
  constructor
  · exact fun canonical => canonical opcode operands instr rfl decoded
  · intro canonical opcode' operands' instr' bytes decoded'
    cases bytes
    rw [decoded] at decoded'
    cases decoded'
    exact canonical

theorem isEncoded_of_mem_zip {pair : Shape × UInt8} (mem : pair ∈ instr.shapes.zip operands) :
    pair.1.isEncoded = true :=
  Instr.isEncoded_of_mem (List.of_mem_zip mem).1

theorem simple_of_mem_shownAll {operand : List Char}
    (mem : operand ∈ shownAll (instr.shapes.zip operands)) : Simple operand := by
  obtain ⟨pair, inPairs, rfl⟩ := List.mem_map.1 mem
  exact simple_shown (isEncoded_of_mem_zip inPairs) pair.2

/-- A line with an instruction contributes what the instruction does. -/
theorem contributes_instr {outcome : Option (List UInt8)}
    (does : match outcome with
      | some bytes => Effect.ofInstr limit instr.mnemonic.toList
          (shownAll (instr.shapes.zip operands)) = .emit (bytes.map .byte) none
      | none => ∃ problem, Effect.ofInstr limit instr.mnemonic.toList
          (shownAll (instr.shapes.zip operands)) = .fail (.wrong problem)) :
    Contributes limit (Line.parse (instrText instr operands)) outcome := by
  obtain ⟨-, -, -, notOrigin, notData⟩ := mnemonic_word instr
  have effect : Effect.ofStatement limit
      ⟨instr.mnemonic.toList, shownAll (instr.shapes.zip operands)⟩ =
        Effect.ofInstr limit instr.mnemonic.toList (shownAll (instr.shapes.zip operands)) := by
    rw [Effect.ofStatement, if_neg notOrigin, if_neg notData]
  rw [instrText_eq, parse_mnemonic instr fun _ => simple_of_mem_shownAll]
  refine ⟨rfl, _, rfl, ?_⟩
  rw [effect]
  exact does

/-- The same opcode is the same instruction. -/
theorem eq_of_opcode (decoded : Instr.decode? opcode.toNat = some instr)
    (same : UInt8.ofNat other.opcode = opcode) : other = instr := by
  have number : other.opcode = opcode.toNat := by
    rw [← same, other.toNat_ofNat_opcode]
  have again := Instr.decode?_opcode other
  rw [number, decoded, Option.some.injEq] at again
  exact again.symm

/-- Canonical operand bytes are read as themselves, and as operands of the instruction. -/
theorem lookup?_of_canonical {read : List Operand} {values : List UInt8}
    (length : operands.length = instr.shapes.length)
    (reread : RereadAll (instr.shapes.zip operands) read)
    (cells : read.map Operand.cell = values.map Cell.byte)
    (canonical : ∀ pair ∈ instr.shapes.zip operands, Canonical pair.1 pair.2) :
    values = operands ∧ Instr.lookup? instr.mnemonic (read.map Operand.shape) = some instr := by
  obtain ⟨sameCells, shapes⟩ := reread_of_canonical reread canonical
  rw [cells, List.map_snd_zip (by omega)] at sameCells
  rw [shapes, List.map_fst_zip (by omega), lookup?_written]
  exact ⟨List.map_injective_iff.2 (fun _ _ eq => Cell.byte.inj eq) sameCells, rfl⟩

/-- Operand bytes that are read as themselves, and as operands of the instruction, are canonical. -/
theorem canonical_of_lookup? {read : List Operand}
    (length : operands.length = instr.shapes.length)
    (reread : RereadAll (instr.shapes.zip operands) read)
    (cells : read.map Operand.cell = operands.map Cell.byte)
    (found : Instr.lookup? instr.mnemonic (read.map Operand.shape) = some instr) :
    ∀ pair ∈ instr.shapes.zip operands, Canonical pair.1 pair.2 := by
  have fst : (instr.shapes.zip operands).map Prod.fst = instr.shapes :=
    List.map_fst_zip (by omega)
  rcases Instr.mem_spellings_iff.1 (Instr.lookup?_eq_some_iff.1 found).2 with spelled | ⟨isPush, -⟩
  · refine canonical_of_reread reread (by rwa [fst]) ?_
    rw [cells, List.map_snd_zip (by omega)]
  -- the bare label of `PUSH` is an address, and every address is canonical
  · intro pair mem
    have inShapes : pair.1 ∈ instr.shapes := (List.of_mem_zip mem).1
    rw [isPush] at inShapes
    rw [List.mem_singleton.1 inShapes]
    trivial

theorem exists_outcome_instr (room : limit.check 3 = .ok ()) (address : Int)
    (decoded : Instr.decode? opcode.toNat = some instr)
    (length : operands.length = instr.shapes.length) :
    ∃ outcome, Contributes limit (Line.parse (instrText instr operands)) outcome ∧
      Agrees ⟨address, opcode :: operands, instrText instr operands⟩ outcome := by
  have canonicalIff : (⟨address, opcode :: operands, instrText instr operands⟩ : Item).Canonical ↔
      ∀ pair ∈ instr.shapes.zip operands, Canonical pair.1 pair.2 :=
    canonical_instr_iff address decoded
  have encoded : ∀ pair ∈ instr.shapes.zip operands, pair.1.isEncoded = true :=
    fun _ => isEncoded_of_mem_zip
  rcases mapM_classify_shownAll room encoded with
    ⟨problem, error, pair, mem, odd⟩ | ⟨read, ok, reread⟩
  · -- some operand is rejected, and its byte is not canonical
    refine ⟨none, contributes_instr ⟨problem, ?_⟩, ⟨by simp, ?_⟩⟩
    · rw [Effect.ofInstr, instrCells_mnemonic, error]
      rfl
    · exact ⟨by simp, fun canonical => absurd (canonicalIff.1 canonical pair mem) odd⟩
  · obtain ⟨values, cells, count⟩ := bytes_of_reread reread
    have ofCanonical := lookup?_of_canonical length reread cells
    cases found : Instr.lookup? instr.mnemonic (read.map Operand.shape) with
    | none =>
      -- no instruction has operands like these
      refine ⟨none, contributes_instr ⟨.unsupportedOperands instr.mnemonic.toList
        (shownAll (instr.shapes.zip operands)), ?_⟩, ⟨by simp, by simp, fun canonical => ?_⟩⟩
      · rw [ofInstr_mnemonic instr ok, found]
      · rw [(ofCanonical (canonicalIff.1 canonical)).2] at found
        cases found
    | some other =>
      refine ⟨some (UInt8.ofNat other.opcode :: values), contributes_instr ?_, ⟨?_, ?_, ?_⟩⟩
      · show Effect.ofInstr _ _ _ = _
        rw [ofInstr_mnemonic instr ok, found, cells]
        rfl
      · intro chunk mem
        cases mem
        show values.length + 1 = operands.length + 1
        rw [count, List.length_zip, length, Nat.min_self]
      · intro same
        simp only [Option.some.injEq, List.cons.injEq] at same
        obtain ⟨sameOpcode, rfl⟩ := same
        obtain rfl := eq_of_opcode decoded sameOpcode
        exact canonicalIff.2 (canonical_of_lookup? length reread cells found)
      · intro canonical
        obtain ⟨same, isInstr⟩ := ofCanonical (canonicalIff.1 canonical)
        rw [isInstr] at found
        cases found
        rw [same, Instr.opcode_of_decode? decoded, UInt8.ofNat_toNat]

end Instruction

/-- **What the line of an item contributes**, for every item. -/
theorem exists_outcome {limit : DigitLimit} (room : limit.check 3 = .ok ()) {item : Item}
    (origin : item.Origin) :
    ∃ outcome, Contributes limit (Line.parse item.text) outcome ∧ Agrees item outcome := by
  cases origin with
  | data address byte => exact exists_outcome_data limit address byte
  | instr address decoded length => exact exists_outcome_instr room address decoded length

/-! ## The round trip -/

/-- The texts of disassembled code, one on a line. -/
def listed (address : Int) (code : List UInt8) : List Char :=
  Text.joinLines ((disassemble address code).map Item.text)

/-- The text of an item is a line. -/
theorem line_text {item : Item} (origin : item.Origin) :
    Text.NoBreak item.text ∧ item.text ≠ [] := by
  cases origin with
  | data address byte =>
    rw [dataText_eq]
    refine line_written (List.all_eq_true.1 (by decide)) (by decide) fun operand mem => ?_
    rw [List.mem_singleton.1 mem]
    exact simple_shown rfl byte
  | @instr address opcode instr operands decoded length =>
    show Text.NoBreak (instrText instr operands) ∧ instrText instr operands ≠ []
    obtain ⟨isWord, nonempty, -⟩ := mnemonic_word instr
    rw [instrText_eq]
    exact line_written isWord nonempty fun _ => simple_of_mem_shownAll

theorem splitLines_listed (address : Int) (code : List UInt8) :
    Text.splitLines (listed address code) = (disassemble address code).map Item.text := by
  refine Text.splitLines_joinLines (fun line mem => ?_) fun line mem => ?_
  · obtain ⟨item, inItems, rfl⟩ := List.mem_map.1 mem
    exact (line_text (origin_of_mem_disassemble inItems)).1
  · obtain ⟨item, inItems, rfl⟩ := List.mem_map.1 mem
    exact (line_text (origin_of_mem_disassemble inItems)).2

/-- What the lines of items contribute. -/
theorem exists_outcomes {limit : DigitLimit} (room : limit.check 3 = .ok ()) {items : List Item}
    (origins : ∀ item ∈ items, item.Origin) :
    ∃ outcomes, List.Forall₂ (Contributes limit) ((items.map Item.text).map Line.parse) outcomes ∧
      List.Forall₂ Agrees items outcomes := by
  induction items with
  | nil => exact ⟨[], .nil, .nil⟩
  | cons item items ih =>
    obtain ⟨outcome, contributes, agrees⟩ := exists_outcome room (origins item List.mem_cons_self)
    obtain ⟨outcomes, all, allAgree⟩ := ih fun other mem => origins other (List.mem_cons_of_mem item mem)
    exact ⟨outcome :: outcomes, .cons contributes all, .cons agrees allAgree⟩

theorem exists_agrees {items : List Item} {outcomes : List (Option (List UInt8))}
    (agree : List.Forall₂ Agrees items outcomes) {outcome : Option (List UInt8)}
    (mem : outcome ∈ outcomes) : ∃ item ∈ items, Agrees item outcome := by
  induction agree with
  | nil => cases mem
  | @cons item other items outcomes first _ ih =>
    rcases List.mem_cons.1 mem with rfl | later
    · exact ⟨item, List.mem_cons_self, first⟩
    · obtain ⟨found, inItems, agrees⟩ := ih later
      exact ⟨found, List.mem_cons_of_mem item inItems, agrees⟩

/-- Outcomes without rejections are chunks of bytes, as long as the items. -/
theorem exists_chunks {items : List Item} {outcomes : List (Option (List UInt8))}
    (agree : List.Forall₂ Agrees items outcomes) (accepted : none ∉ outcomes) :
    ∃ chunks : List (List UInt8), outcomes = chunks.map some ∧
      chunks.flatten.length = (items.flatMap Item.bytes).length ∧
      (chunks.flatten = items.flatMap Item.bytes ↔ ∀ item ∈ items, item.Canonical) := by
  induction agree with
  | nil => exact ⟨[], rfl, rfl, by simp⟩
  | @cons item outcome items outcomes first _ ih =>
    obtain ⟨chunks, rfl, length, same⟩ := ih fun mem => accepted (List.mem_cons_of_mem _ mem)
    cases outcome with
    | none => exact absurd List.mem_cons_self accepted
    | some chunk =>
      have chunkLength : chunk.length = item.bytes.length := first.length chunk rfl
      have chunkSame : chunk = item.bytes ↔ item.Canonical := by
        rw [← first.same, Option.some.injEq]
      refine ⟨chunk :: chunks, rfl, ?_, ?_⟩
      · rw [List.flatten_cons, List.flatMap_cons, List.length_append, List.length_append, length,
          chunkLength]
      · rw [List.flatten_cons, List.flatMap_cons, List.forall_mem_cons, ← chunkSame, ← same]
        -- the parts have the same lengths, so the whole is the same only part by part
        constructor
        · exact fun whole => List.append_inj whole chunkLength
        · rintro ⟨front, back⟩
          rw [front, back]

/-- A data item is canonical, and an instruction is not shown as data. -/
theorem canonical_of_isData {item : Item} (origin : item.Origin) (isData : item.isData = true) :
    item.Canonical := by
  cases origin with
  | data address byte => exact canonical_dataItem address byte
  | instr address decoded length =>
    rw [isData_instr] at isData
    cases isData

/-- Only instructions can fail to be canonical. -/
theorem canonical_of_instructions {items : List Item} (origins : ∀ item ∈ items, item.Origin)
    (canonical : ∀ item ∈ items, item.isData = false → item.Canonical) :
    ∀ item ∈ items, item.Canonical := by
  intro item mem
  cases isData : item.isData with
  | true => exact canonical_of_isData (origins item mem) isData
  | false => exact canonical item mem isData

/-- **The round trip of disassembled code.** Up to the size of a program, code whose instructions are
all canonical assembles to itself, and other code is rejected or assembles to something else. Code
above that size is rejected. -/
theorem assemble_listed (address : Int) (code : List UInt8) :
    (code.length ≤ 192 →
      ((∀ item ∈ disassemble address code, item.isData = false → item.Canonical) →
        ∃ program, assemble (String.ofList (listed address code)) = .ok program ∧
          program.code = code) ∧
      ((∃ item ∈ disassemble address code, item.isData = false ∧ ¬item.Canonical) →
        (∃ error, assemble (String.ofList (listed address code)) = .error (.wrong error)) ∨
          ∃ program, assemble (String.ofList (listed address code)) = .ok program ∧
            program.code ≠ code)) ∧
      (192 < code.length →
        ∃ error, assemble (String.ofList (listed address code)) = .error (.wrong error)) := by
  have origins : ∀ item ∈ disassemble address code, item.Origin :=
    fun _ mem => origin_of_mem_disassemble mem
  obtain ⟨outcomes, contribute, agree⟩ := exists_outcomes Numeral.check_digitLimit origins
  rw [← splitLines_listed] at contribute
  have text : (String.ofList (listed address code)).toList = listed address code :=
    String.toList_ofList
  have bytes := flatMap_bytes_disassemble address code
  have rejected : none ∈ outcomes ∨ programLimit < (outcomes.filterMap id).flatten.length →
      ∃ error, assemble (String.ofList (listed address code)) = .error (.wrong error) := by
    rw [assemble, text]
    exact assembleText_rejected contribute
  by_cases accepted : none ∈ outcomes
  · refine ⟨fun _ => ⟨fun canonical => ?_, fun _ => .inl (rejected (.inl accepted))⟩,
      fun _ => rejected (.inl accepted)⟩
    -- a rejected item is not canonical
    obtain ⟨item, mem, agrees⟩ := exists_agrees agree accepted
    have isCanonical := canonical_of_instructions origins canonical item mem
    cases agrees.same.2 isCanonical
  · obtain ⟨chunks, rfl, length, same⟩ := exists_chunks agree accepted
    rw [bytes] at length same
    have limits : programLimit = 192 := by decide
    constructor
    · intro short
      have room : chunks.flatten.length ≤ programLimit := by omega
      obtain ⟨program, ok, code_eq⟩ := assembleText_accepted contribute room
      have assembled : assemble (String.ofList (listed address code)) = .ok program := by
        rw [assemble, text, ok]
      constructor
      · intro canonical
        refine ⟨program, assembled, ?_⟩
        rw [code_eq, same]
        exact canonical_of_instructions origins canonical
      · rintro ⟨item, mem, -, notCanonical⟩
        refine .inr ⟨program, assembled, ?_⟩
        rw [code_eq, ne_eq, same]
        exact fun canonical => notCanonical (canonical item mem)
    -- nothing is rejected for itself, but all of it together is too long
    · intro long
      refine rejected (.inr ?_)
      have whole : (chunks.map some).filterMap id = chunks := by simp
      rw [whole]
      omega

end EightBit.Disassembly
