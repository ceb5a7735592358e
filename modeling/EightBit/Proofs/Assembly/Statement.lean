import EightBit.Assembly.Effect
import EightBit.Proofs.Numeral.ReadBack
import EightBit.Proofs.Operand.Reading

/-!
# What Reading a Statement Comes To

An instruction is encoded as its opcode and one cell for each operand. Whatever is wrong with a
statement is a problem of its own text, or an excess of digits if there is a limit.

## Main Definitions

- `Encodes`: the cells are those of an instruction with the given mnemonic.

## Main Statements

- `dataCells_ok_iff`, `instrCells_ok_iff`: the cells of a statement that is accepted.
- `instrCells_reading`: an instruction that is accepted is encoded.
- `ofText_of_ofStatement`: what is wrong with a statement shows in its own text.
-/

namespace EightBit

/-- The cells of an instruction with that mnemonic and with operands that are in range. -/
def Encodes (mnemonic : List Char) (cells : List Cell) : Prop :=
  ∃ (instr : Instr) (operands : List Operand),
    Instr.lookup? (String.ofList mnemonic) (operands.map Operand.shape) = some instr ∧
      (∀ operand ∈ operands, operand.InRange) ∧
      cells = .byte (UInt8.ofNat instr.opcode) :: operands.map Operand.cell

/-- What is read one after the other comes of the texts, and of nothing else. -/
theorem mem_of_mapM_ok {ε α β : Type} {f : α → Except ε β} {sources : List α} {values : List β}
    (ok : sources.mapM f = .ok values) :
    (∀ source ∈ sources, ∃ value ∈ values, f source = .ok value) ∧
      ∀ value ∈ values, ∃ source ∈ sources, f source = .ok value := by
  -- every source has its value and every value its source, one element of the list at a time
  induction sources generalizing values with
  | nil =>
    cases ok
    exact ⟨nofun, nofun⟩
  | cons source rest ih =>
    rw [List.mapM_cons] at ok
    obtain ⟨first, isFirst, ok⟩ := bind_ok_iff.1 ok
    obtain ⟨later, areLater, ok⟩ := bind_ok_iff.1 ok
    cases ok
    obtain ⟨forward, backward⟩ := ih areLater
    simp only [List.forall_mem_cons, List.exists_mem_cons_iff]
    exact ⟨⟨.inl isFirst, fun other mem => .inr (forward other mem)⟩,
      .inl isFirst, fun other mem => .inr (backward other mem)⟩

namespace Effect

variable {limit : DigitLimit}

/-! ## Statements that are accepted -/

/-- **Data is accepted** if every item is, and has the cells of its items in order. -/
theorem dataCells_ok_iff {sources : List (List Char)} {cells : List Cell} :
    dataCells limit sources = (cells, none) ↔
      ∃ items, sources.mapM (dataItem limit) = .ok items ∧ cells = items.flatten := by
  induction sources generalizing cells with
  | nil =>
    constructor
    · rintro ⟨⟩
      exact ⟨[], rfl, rfl⟩
    · rintro ⟨items, ok, rfl⟩
      cases ok
      rfl
  | cons source rest ih =>
    rw [dataCells, List.mapM_cons]
    -- an item that fails ends the list on both sides
    cases first : dataItem limit source with
    | error rejection => simp [bind, Except.bind]
    | ok item =>
      constructor
      · intro ok
        obtain ⟨rfl, noFailure⟩ := Prod.mk.inj ok
        obtain ⟨items, areItems, same⟩ := ih.1 (Prod.ext rfl noFailure)
        refine ⟨item :: items, ?_, by rw [List.flatten_cons, ← same]⟩
        simp [areItems, bind, Except.bind, pure, Except.pure]
      · rintro ⟨items, ok, rfl⟩
        obtain ⟨_, same, ok⟩ := bind_ok_iff.1 ok
        cases same
        obtain ⟨later, areLater, ok⟩ := bind_ok_iff.1 ok
        cases ok
        simp [ih.2 ⟨later, areLater, rfl⟩]

/-- **An instruction is accepted** if it has a mnemonic and operands of a form in the table. -/
theorem instrCells_ok_iff {mnemonic : List Char} {sources : List (List Char)}
    {cells : List Cell} :
    instrCells limit mnemonic sources = .ok cells ↔
      String.ofList mnemonic ∈ Instr.mnemonics ∧
        ∃ operands instr, sources.mapM (Operand.classify limit) = .ok operands ∧
          Instr.lookup? (String.ofList mnemonic) (operands.map Operand.shape) = some instr ∧
          cells = .byte (UInt8.ofNat instr.opcode) :: operands.map Operand.cell := by
  unfold instrCells
  by_cases known : Instr.mnemonics.contains (String.ofList mnemonic) = true
  · simp only [known, Bool.not_true, Bool.false_eq_true, if_false,
      List.contains_iff_mem.1 known, true_and]
    -- behind the known mnemonic both sides read the operands and look up the instruction
    refine bind_ok_iff.trans (exists_congr fun operands => ?_)
    cases found : Instr.lookup? (String.ofList mnemonic) (operands.map Operand.shape) with
    | none => simp [Operand.reject]
    | some instr => simp [pure, Except.pure, eq_comm]
  -- an unknown mnemonic is refused before its operands are read
  · have unknown : String.ofList mnemonic ∉ Instr.mnemonics :=
      fun mem => known (List.contains_iff_mem.2 mem)
    rw [Bool.not_eq_true] at known
    simp only [known, Bool.not_false, if_true, unknown, false_and, iff_false]
    exact nofun

/-! ## Statements that are rejected -/

theorem origin_reading (operand : List Char) :
    Reading limit (fun _ => True) (origin limit operand) := by
  refine .bind (Operand.number_reading _) fun value _ => ?_
  cases value with
  | none => exact .wrong _
  | some value =>
    have written : Reading limit (fun _ => True)
        ((limit.checkWritten value).mapError Rejection.excess) := by
      refine @Reading.mapError limit Unit _ () fun unlimited => ?_
      rw [unlimited]
      rfl
    exact .ite (fun _ => .ok trivial) fun _ => .bind written fun _ _ => .wrong _

theorem dataItem_reading (source : List Char) :
    Reading limit (fun _ => True) (dataItem limit source) := by
  refine .bind (Operand.classify_reading _) fun operand _ => ?_
  cases operand with
  | text codes => exact .ok trivial
  | immediate value => exact .ok trivial
  | label name => exact .ok trivial
  | _ => exact .wrong _

/-- The failure of a data statement is the one of an item. -/
theorem ofText_of_dataCells {sources : List (List Char)} {rejection : Rejection Problem}
    (fails : (dataCells limit sources).2 = some rejection) : rejection.OfText limit := by
  induction sources with
  | nil => cases fails
  | cons source rest ih =>
    rw [dataCells] at fails
    split at fails
    · exact ih fails
    · next rejected =>
      rw [Option.some.inj fails] at rejected
      exact (dataItem_reading source).ofText rejected

/-- **An instruction that is accepted is encoded** as its opcode and its operands. -/
theorem instrCells_reading (mnemonic : List Char) (sources : List (List Char)) :
    Reading limit (Encodes mnemonic) (instrCells limit mnemonic sources) := by
  refine .ite (fun _ => .wrong _) fun _ => ?_
  refine .bind (.mapM Operand.classify_reading sources) fun operands inRange => ?_
  cases found : Instr.lookup? (String.ofList mnemonic) (operands.map Operand.shape) with
  | some instr => exact .ok ⟨instr, operands, found, inRange, rfl⟩
  | none => exact .wrong _

/-- **What is wrong with a statement** shows in its own text. -/
theorem ofText_of_ofStatement {statement : Source.Statement} {cells : List Cell}
    {rejection : Rejection Problem}
    (fails : ofStatement limit statement = .emit cells (some rejection)) :
    rejection.OfText limit := by
  unfold ofStatement at fails
  -- the three kinds of statement, each with what its reader says of rejections
  split at fails
  · rw [ofOrigin.eq_def] at fails
    split at fails
    · split at fails
      · cases fails
      · next rejected =>
        obtain ⟨-, same⟩ := Effect.emit.inj fails
        rw [Option.some.inj same] at rejected
        exact (origin_reading _).ofText rejected
    · cases fails
      nofun
  · split at fails
    · rw [ofData] at fails
      split at fails
      · cases fails
        nofun
      · exact ofText_of_dataCells (Effect.emit.inj fails).2
    · rw [ofInstr] at fails
      split at fails
      · cases fails
      · next rejected =>
        obtain ⟨-, same⟩ := Effect.emit.inj fails
        rw [Option.some.inj same] at rejected
        exact (instrCells_reading _ _).ofText rejected

end Effect

end EightBit
