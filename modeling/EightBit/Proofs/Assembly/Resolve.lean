import EightBit.Proofs.Assembly.Layout
import EightBit.Proofs.Instr.Lookup
import EightBit.Proofs.Operand.Labels
import EightBit.Proofs.Source.Edit

/-!
# Labels as Names of Addresses

A label means its address. In a source that assembles, every operand that names a label can be
replaced by the address of the label, written as a number, and the source still assembles to the
same program: what the second pass patches is what direct encoding would have written.

The sources compared are texts. Everything in them stays where it is, except for the operands that
are replaced.

## Main Definitions

- `resolveOperand`: the number that replaces an operand.
- `resolveSource`: the source with these numbers.
- `Layout.EmitsOnce`: no address is written twice.

## Main Statements

- `ofStatement_resolve`: a statement with numbers for labels writes the patched cells at once.
- `added_resolve`: both sources are laid out alike.
- `assemble_resolveSource`: both sources assemble to the same program.
-/

namespace EightBit

open Source Layout

/-! ## Numbers for labels -/

/-- The cell with the address of its label, if that is known. -/
def Cell.resolve (symbols : List (List Char × Nat)) : Cell → Cell
  | .byte value => .byte value
  | .reference label =>
    match symbols.lookup label with
    | some address => .byte (UInt8.ofNat address)
    | none => .reference label

/-- The number in brackets. -/
def bracketed (address : Nat) : List Char :=
  '[' :: Nat.toDigits 10 address ++ [']']

/-- The text that replaces an operand of the given mnemonic. A label is replaced by its address, which
`PUSH` takes in brackets; any other operand stays as it is. -/
def resolveOperand (limit : DigitLimit) (symbols : List (List Char × Nat))
    (mnemonic source : List Char) : List Char :=
  match Operand.classify limit source with
  | .ok (.label name) =>
    match symbols.lookup name with
    | some address =>
      if mnemonic = "PUSH".toList then bracketed address else Nat.toDigits 10 address
    | none => source
  | .ok (.addressOf name) =>
    match symbols.lookup name with
    | some address => bracketed address
    | none => source
  | _ => source

/-- What the replaced operand is. -/
def Operand.resolve (symbols : List (List Char × Nat)) (mnemonic : List Char) : Operand → Operand
  | .label name =>
    match symbols.lookup name with
    | some target =>
      if mnemonic = "PUSH".toList then .address (UInt8.ofNat target)
      else .immediate (UInt8.ofNat target)
    | none => .label name
  | .addressOf name =>
    match symbols.lookup name with
    | some target => .address (UInt8.ofNat target)
    | none => .addressOf name
  | operand => operand

/-- The statement with its operands replaced. -/
def resolveStatement (limit : DigitLimit) (symbols : List (List Char × Nat))
    (statement : Statement) : Statement :=
  { statement with
    operands := statement.operands.map (resolveOperand limit symbols statement.mnemonic) }

/-- The source with its operands replaced. -/
def resolveSource (limit : DigitLimit) (symbols : List (List Char × Nat))
    (source : List Char) : List Char :=
  Text.mapLines (editLine (resolveOperand limit symbols)) source

section Resolve

variable {limit : DigitLimit} {symbols : List (List Char × Nat)}

/-! ## Operands -/

theorem ink_number (address : Nat) : ∀ c ∈ Nat.toDigits 10 address, isInk c = true :=
  Numeral.forall_mem_decimal (by decide) address

theorem simple_number (address : Nat) :
    Simple (Nat.toDigits 10 address) ∧ Simple (bracketed address) :=
  ⟨simple_of_ink (ink_number address) Nat.toDigits_ne_nil,
    simple_brackets_of_ink (ink_number address)⟩

theorem resolveOperand_of_not_reference {mnemonic source : List Char}
    (plain : ∀ operand, Operand.classify limit source = .ok operand → operand.reference? = none) :
    resolveOperand limit symbols mnemonic source = source := by
  unfold resolveOperand
  split
  · next classified => cases plain _ classified
  · next classified => cases plain _ classified
  · rfl

/-- Replacing operands fits into a line. -/
theorem keepsOperands_resolveOperand (mnemonic : List Char) :
    KeepsOperands (resolveOperand limit symbols mnemonic) := by
  intro core trimmed
  unfold resolveOperand
  split
  · next name classified =>
    cases symbols.lookup name with
    | none => exact .inl rfl
    | some address =>
      right
      -- a name without brackets is the whole operand
      rcases Operand.classify_reference classified rfl with ⟨-, rfl, label⟩ | ⟨impossible, -⟩
      · refine ⟨(Operand.simple_label (Operand.isName_of_isLabel label) trimmed).toLoose, ?_⟩
        show Simple (if mnemonic = "PUSH".toList then _ else _)
        split
        · exact (simple_number address).2
        · exact (simple_number address).1
      · cases impossible
  · next name classified =>
    cases symbols.lookup name with
    | none => exact .inl rfl
    | some address =>
      right
      -- the brackets stay, and blanks inside of them go
      rcases Operand.classify_reference classified rfl with ⟨impossible, -⟩ | ⟨-, label, inner, rfl, rfl⟩
      · cases impossible
      · exact ⟨Operand.loose_addressOf label, (simple_number address).2⟩
  · exact .inl rfl

variable (room : limit.check 3 = .ok ()) (small : ∀ entry ∈ symbols, entry.2 ≤ 255)
include room small

/-- **The operand that replaces another** is what it should be. -/
theorem classify_resolveOperand {mnemonic source : List Char} {operand : Operand}
    (classified : Operand.classify limit source = .ok operand) :
    Operand.classify limit (resolveOperand limit symbols mnemonic source) =
      .ok (operand.resolve symbols mnemonic) := by
  unfold resolveOperand
  rw [classified]
  cases operand with
  | label name =>
    simp only [Operand.resolve]
    cases known : symbols.lookup name with
    | none => exact classified
    | some address =>
      have inMemory : address < 256 := Nat.lt_succ_of_le (le_of_lookup small known)
      simp only
      -- `PUSH` takes the brackets, everything else the bare number
      split
      · exact Operand.classify_number_memory room inMemory
      · exact Operand.classify_number room inMemory
  | addressOf name =>
    simp only [Operand.resolve]
    cases known : symbols.lookup name with
    | none => exact classified
    | some address =>
      exact Operand.classify_number_memory room (Nat.lt_succ_of_le (le_of_lookup small known))
  | register => exact classified
  | immediate => exact classified
  | address => exact classified
  | indirect => exact classified
  | stackOffset => exact classified
  | text => exact classified

theorem mapM_classify_resolve {mnemonic : List Char} {sources : List (List Char)}
    {operands : List Operand} (classified : sources.mapM (Operand.classify limit) = .ok operands) :
    (sources.map (resolveOperand limit symbols mnemonic)).mapM (Operand.classify limit) =
      .ok (operands.map (Operand.resolve symbols mnemonic)) := by
  induction sources generalizing operands with
  | nil =>
    cases classified
    rfl
  | cons source rest ih =>
    rw [List.mapM_cons] at classified
    obtain ⟨first, isFirst, others⟩ := bind_ok_iff.1 classified
    obtain ⟨later, areLater, both⟩ := bind_ok_iff.1 others
    cases both
    rw [List.map_cons, List.mapM_cons, classify_resolveOperand room small isFirst, ih areLater]
    rfl

/-! ## Statements -/

omit room small in
theorem cell_resolve (mnemonic : List Char) (operand : Operand) :
    (operand.resolve symbols mnemonic).cell = operand.cell.resolve symbols := by
  -- only a name can change, and both sides look it up in the same symbols
  cases operand with
  | label name =>
    show (Operand.resolve symbols mnemonic (.label name)).cell = (Cell.reference name).resolve symbols
    rw [Operand.resolve, Cell.resolve]
    cases symbols.lookup name with
    | none => rfl
    | some target =>
      simp only
      split <;> rfl
  | addressOf name =>
    show (Operand.resolve symbols mnemonic (.addressOf name)).cell =
      (Cell.reference name).resolve symbols
    rw [Operand.resolve, Cell.resolve]
    cases symbols.lookup name <;> rfl
  | register => rfl
  | immediate => rfl
  | address => rfl
  | indirect => rfl
  | stackOffset => rfl
  | text => rfl

omit room small in
theorem sameShape_resolve (mnemonic : List Char) (operand : Operand) :
    Instr.SameShape (String.ofList mnemonic) operand.shape
      (operand.resolve symbols mnemonic).shape := by
  -- the table has strings where the source has characters
  have isPush : String.ofList mnemonic = "PUSH" ↔ mnemonic = "PUSH".toList := by
    rw [← String.toList_inj, String.toList_ofList]
  cases operand with
  | label name =>
    rw [Operand.resolve]
    cases symbols.lookup name with
    | none => exact .inl rfl
    | some target =>
      refine .inr ⟨rfl, ?_⟩
      rw [Instr.numberShape]
      simp only [isPush]
      split <;> rfl
  | addressOf name =>
    left
    rw [Operand.resolve]
    cases symbols.lookup name <;> rfl
  | register => exact .inl rfl
  | immediate => exact .inl rfl
  | address => exact .inl rfl
  | indirect => exact .inl rfl
  | stackOffset => exact .inl rfl
  | text => exact .inl rfl

/-- An instruction with numbers for labels is the same instruction. -/
theorem instrCells_resolve {mnemonic : List Char} {sources : List (List Char)} {cells : List Cell}
    (ok : Effect.instrCells limit mnemonic sources = .ok cells) :
    Effect.instrCells limit mnemonic (sources.map (resolveOperand limit symbols mnemonic)) =
      .ok (cells.map (Cell.resolve symbols)) := by
  unfold Effect.instrCells at ok ⊢
  by_cases known : Instr.mnemonics.contains (String.ofList mnemonic) = true
  · simp only [known, Bool.not_true, Bool.false_eq_true, if_false] at ok ⊢
    obtain ⟨operands, classified, chosen⟩ := bind_ok_iff.1 ok
    rw [mapM_classify_resolve room small classified]
    split at chosen
    · next instr found =>
      cases chosen
      -- the table picks the same instruction for shapes that differ as these do
      have shapes : List.Forall₂ (Instr.SameShape (String.ofList mnemonic))
          (operands.map Operand.shape)
          ((operands.map (Operand.resolve symbols mnemonic)).map Operand.shape) := by
        rw [List.map_map, List.forall₂_map_left_iff, List.forall₂_map_right_iff]
        exact List.forall₂_same.2 fun operand _ => sameShape_resolve mnemonic operand
      have again := Instr.lookup?_numbers found shapes
      have sameCells : (operands.map (Operand.resolve symbols mnemonic)).map Operand.cell =
          (operands.map Operand.cell).map (Cell.resolve symbols) := by
        rw [List.map_map, List.map_map]
        exact List.map_congr_left fun operand _ => cell_resolve mnemonic operand
      simp only [bind, Except.bind]
      rw [again, List.map_cons, sameCells]
      rfl
    · cases chosen
  · simp only [Bool.not_eq_true] at known
    simp only [known, Bool.not_false, if_true] at ok
    cases ok

theorem dataItem_resolve {source : List Char} {cells : List Cell}
    (ok : Effect.dataItem limit source = .ok cells) :
    Effect.dataItem limit (resolveOperand limit symbols "DB".toList source) =
      .ok (cells.map (Cell.resolve symbols)) := by
  obtain ⟨operand, classified, chosen⟩ := bind_ok_iff.1 ok
  rw [Effect.dataItem, classify_resolveOperand room small classified]
  cases operand with
  | text codes =>
    cases chosen
    show Except.ok _ = _
    rw [List.map_map]
    rfl
  | immediate value =>
    cases chosen
    rfl
  | label name =>
    cases chosen
    rw [Operand.resolve, List.map_singleton, Cell.resolve]
    cases symbols.lookup name with
    | none => rfl
    | some target =>
      -- data is no `PUSH`, so the number stands without brackets
      simp only [show "DB".toList ≠ "PUSH".toList by decide, if_false]
      rfl
  | register => cases chosen
  | address => cases chosen
  | addressOf => cases chosen
  | indirect => cases chosen
  | stackOffset => cases chosen

theorem dataCells_resolve {sources : List (List Char)} {cells : List Cell}
    (ok : Effect.dataCells limit sources = (cells, none)) :
    Effect.dataCells limit (sources.map (resolveOperand limit symbols "DB".toList)) =
      (cells.map (Cell.resolve symbols), none) := by
  induction sources generalizing cells with
  | nil =>
    cases ok
    rfl
  | cons source rest ih =>
    rw [Effect.dataCells] at ok
    split at ok
    -- the resolved item has the resolved cells, so the rest goes on as before
    · next first isFirst =>
      obtain ⟨rfl, noFailure⟩ := Prod.mk.inj ok
      have later := ih (Prod.ext rfl noFailure)
      rw [List.map_cons, Effect.dataCells, dataItem_resolve room small isFirst, later,
        List.map_append]
    · next failed =>
      cases ok

/-- **A statement with numbers for labels** writes at once what would be patched later. -/
theorem ofStatement_resolve_emit {statement : Statement} {cells : List Cell}
    (emits : Effect.ofStatement limit statement = .emit cells none) :
    Effect.ofStatement limit (resolveStatement limit symbols statement) =
      .emit (cells.map (Cell.resolve symbols)) none := by
  rcases emits_iff.1 emits with ⟨isData, nonempty, ok⟩ | ⟨other, ok⟩
  · refine emits_iff.2 (.inl ⟨isData, by simpa [resolveStatement] using nonempty, ?_⟩)
    show Effect.dataCells limit
      (statement.operands.map (resolveOperand limit symbols statement.mnemonic)) = _
    rw [isData, dataCells_resolve room small ok]
  · exact emits_iff.2 (.inr ⟨other, instrCells_resolve room small ok⟩)

omit room small in
/-- `ORG` takes no label. -/
theorem resolveStatement_of_moveTo {statement : Statement} {address : Nat}
    (moves : Effect.ofStatement limit statement = .moveTo address) :
    resolveStatement limit symbols statement = statement := by
  obtain ⟨-, operand, single, value, isNumber, -⟩ := exists_of_moveTo moves
  have same : resolveOperand limit symbols statement.mnemonic operand = operand :=
    resolveOperand_of_not_reference fun _ ok => Operand.not_label_of_number isNumber ok
  rw [resolveStatement, single, List.map_singleton, same, ← single]

/-! ## Lines -/

omit room small in
/-- The mnemonic of a statement without mistakes could be a label. -/
theorem isLabelChar_of_performed {number : Nat} {statement : Statement} {layout after : Layout}
    (performed : Performed number (Effect.ofStatement limit statement) layout after) :
    ∀ c ∈ statement.mnemonic, isLabelChar c = true := by
  rcases performed with ⟨address, moves, -⟩ | ⟨cells, emits, -⟩
  · rw [(exists_of_moveTo moves).1]
    exact List.all_eq_true.1 (by decide)
  · rcases emits_iff.1 emits with ⟨isData, -⟩ | ⟨-, ok⟩
    · rw [isData]
      exact List.all_eq_true.1 (by decide)
    -- an unknown mnemonic is a mistake, and the known ones are checked one by one
    · have known : Instr.mnemonics.contains (String.ofList statement.mnemonic) = true := by
        by_contra unknown
        rw [Effect.instrCells, Bool.not_eq_true] at *
        simp only [unknown, Bool.not_false, if_true] at ok
        cases ok
      have checked : Instr.mnemonics.all (fun name => name.toList.all isLabelChar) = true := by
        decide +kernel
      have inName := List.all_eq_true.1 checked _ (List.contains_iff_mem.1 known)
      rw [String.toList_ofList] at inName
      exact List.all_eq_true.1 inName

omit room small in
/-- **A line without mistakes, with numbers for labels**, is read as the line with its operands
replaced. -/
theorem parse_resolve {number : Nat} {raw : List Char} {layout after : Layout}
    (noBreak : Text.NoBreak raw) (added : Added limit number (Line.parse raw) layout after) :
    Line.parse (editLine (resolveOperand limit symbols) raw) =
      { raw := editLine (resolveOperand limit symbols) raw
        label := (Line.parse raw).label
        statement := (Line.parse raw).statement.map (resolveStatement limit symbols) } := by
  refine parse_editLine keepsOperands_resolveOperand noBreak (isLabelChar_of_upper ?_)
  obtain ⟨labelled, -, performed⟩ := added
  rw [parse_eq_site fun mem => Bool.noConfusion (noBreak _ mem)] at performed
  by_cases noWord : (site raw).word = []
  · rw [noWord]
    exact nofun
  · have statement : (site raw).statement =
        some ⟨Text.upper (site raw).word, operandList (site raw).operands⟩ := by
      rw [Site.statement, statementOf, if_neg noWord]
    simp only [statement] at performed
    exact isLabelChar_of_performed performed

/-! ## Layouts -/

/-- What is written when the address of a label is known in advance. -/
def Emission.resolve (symbols : List (List Char × Nat)) (emission : Emission) : Emission :=
  { emission with cell := emission.cell.resolve symbols }

/-- The layout of the source with its operands replaced, whose lines are given. -/
def Layout.resolve (symbols : List (List Char × Nat)) (lines : List Line) (layout : Layout) :
    Layout :=
  { layout with lines, emitted := layout.emitted.map (Emission.resolve symbols) }

omit room small in
theorem placed_resolve (number start : Nat) (cells : List Cell) :
    (placed number start cells).map (Emission.resolve symbols) =
      placed number start (cells.map (Cell.resolve symbols)) := by
  induction cells generalizing start with
  | nil => rfl
  | cons cell cells ih =>
    rw [placed, List.map_cons, ih, List.map_cons, placed]
    rfl

omit room small in
theorem writeSegment_resolve (number : Nat) (cells : List Cell) (lines : List Line)
    (layout : Layout) :
    (writeSegment number cells layout).resolve symbols lines =
      writeSegment number (cells.map (Cell.resolve symbols)) (layout.resolve symbols lines) := by
  simp [writeSegment, Layout.write, Layout.resolve, ← placed_resolve]

theorem performed_resolve {number : Nat} {statement : Statement} {layout after : Layout}
    (performed : Performed number (Effect.ofStatement limit statement) layout after)
    (lines : List Line) :
    Performed number (Effect.ofStatement limit (resolveStatement limit symbols statement))
      (layout.resolve symbols lines) (after.resolve symbols lines) := by
  rcases performed with ⟨address, moves, rfl⟩ | ⟨cells, emits, fits, rfl⟩
  · rw [resolveStatement_of_moveTo moves]
    exact .inl ⟨address, moves, rfl⟩
  · refine .inr ⟨_, ofStatement_resolve_emit room small emits, ?_, writeSegment_resolve ..⟩
    -- as many cells as before, so they fit as before
    rw [Fits, List.length_map, List.map_eq_nil_iff]
    exact fits

/-- One line of both sources. -/
theorem added_resolve {number : Nat} {raw : List Char} {layout after : Layout}
    (noBreak : Text.NoBreak raw) (added : Added limit number (Line.parse raw) layout after)
    (lines : List Line) :
    Added limit number (Line.parse (editLine (resolveOperand limit symbols) raw))
      (layout.resolve symbols lines) (after.resolve symbols lines) := by
  rw [parse_resolve noBreak added]
  obtain ⟨labelled, isLabelled, performed⟩ := added
  refine ⟨labelled.resolve symbols lines, ?_, ?_⟩
  -- the label of the line is the same, and so is its address
  · obtain ⟨checked, rfl⟩ := labelled_iff.1 isLabelled
    exact labelled_iff.2 ⟨checked, rfl⟩
  · cases isStatement : (Line.parse raw).statement with
    | none =>
      simp only [isStatement] at performed
      rw [performed]
      rfl
    | some statement =>
      simp only [isStatement] at performed
      exact performed_resolve room small performed lines

/-- **Both sources are laid out alike**, line by line. -/
theorem addedLines_resolve {number : Nat} {raws : List (List Char)} {layout after : Layout}
    (noBreak : ∀ raw ∈ raws, Text.NoBreak raw)
    (run : AddedLines limit number (raws.map Line.parse) layout after) (lines : List Line) :
    AddedLines limit number
      ((raws.map (editLine (resolveOperand limit symbols))).map Line.parse)
      (layout.resolve symbols lines) (after.resolve symbols lines) := by
  induction raws generalizing number layout with
  | nil =>
    have same : after = layout := run
    rw [same]
    rfl
  | cons raw rest ih =>
    obtain ⟨middle, first, later⟩ := run
    exact ⟨middle.resolve symbols lines,
      added_resolve room small (noBreak raw List.mem_cons_self) first lines,
      ih (fun other mem => noBreak other (List.mem_cons_of_mem _ mem)) later⟩

omit room small in
theorem parse_resolve_of_mem {number : Nat} {raws : List (List Char)} {layout after : Layout}
    (noBreak : ∀ raw ∈ raws, Text.NoBreak raw)
    (run : AddedLines limit number (raws.map Line.parse) layout after) :
    ∀ raw ∈ raws, Line.parse (editLine (resolveOperand limit symbols) raw) =
      { raw := editLine (resolveOperand limit symbols) raw
        label := (Line.parse raw).label
        statement := (Line.parse raw).statement.map (resolveStatement limit symbols) } := by
  induction raws generalizing number layout with
  | nil => exact nofun
  | cons raw rest ih =>
    obtain ⟨middle, first, later⟩ := run
    exact List.forall_mem_cons.2 ⟨parse_resolve (noBreak raw List.mem_cons_self) first,
      ih (fun other mem => noBreak other (List.mem_cons_of_mem _ mem)) later⟩

end Resolve

/-! ## Programs -/

/-- No address is written twice. -/
def Layout.EmitsOnce (layout : Layout) : Prop :=
  (layout.emitted.map Emission.address).Nodup

instance (layout : Layout) : Decidable layout.EmitsOnce :=
  inferInstanceAs (Decidable (List.Nodup _))

/-- Where no address is written twice, a reference is never hidden. -/
theorem Layout.EmitsOnce.reference? {layout : Layout} (once : layout.EmitsOnce) (address : Nat) :
    layout.reference? address =
      (layout.emission? address).bind fun emission => emission.cell.label? := by
  unfold EmitsOnce at once
  unfold Layout.reference? emission?
  generalize layout.emitted = emitted at once ⊢
  induction emitted with
  | nil => rfl
  | cons emission rest ih =>
    rw [List.map_cons, List.nodup_cons] at once
    rw [List.findSome?_cons, List.find?_cons]
    by_cases here : emission.address = address
    · -- no other cell is at this address
      have noOther : rest.findSome? (fun emission =>
          if emission.address = address then emission.cell.label? else none) = none := by
        rw [List.findSome?_eq_none_iff]
        intro other mem
        refine if_neg fun same => once.1 ?_
        rw [here, ← same]
        exact List.mem_map_of_mem mem
      rw [if_pos here, show (emission.address == address) = true by simp [here]]
      show _ = emission.cell.label?
      cases emission.cell.label? with
      | none => exact noOther
      | some label => rfl
    · rw [if_neg here, show (emission.address == address) = false by simp [here]]
      exact ih once.2

section Program

variable {symbols : List (List Char × Nat)} {layout : Layout}

theorem emission?_resolve (lines : List Line) (address : Nat) :
    (layout.resolve symbols lines).emission? address =
      (layout.emission? address).map (Emission.resolve symbols) := by
  rw [Layout.emission?, Layout.resolve, List.find?_map]
  rfl

theorem extent_resolve (lines : List Line) :
    (layout.resolve symbols lines).extent = layout.extent := by
  rw [extent, Layout.resolve, List.foldl_map]
  rfl

/-- If every label is known, every cell becomes a byte. -/
theorem exists_byte_of_known
    (known : ∀ reference ∈ layout.references, (symbols.lookup reference.2).isSome)
    {emission : Emission} (mem : emission ∈ layout.emitted) :
    ∃ byte, emission.cell.resolve symbols = .byte byte := by
  cases isCell : emission.cell with
  | byte value => exact ⟨value, rfl⟩
  | reference label =>
    obtain ⟨target, isTarget⟩ := Option.isSome_iff_exists.1
      (known (emission.address, label) (mem_references_iff.2 ⟨emission, mem, rfl, isCell⟩))
    simp only at isTarget
    exact ⟨UInt8.ofNat target, by rw [Cell.resolve, isTarget]⟩

/-- If every label is known, nothing is left to patch. -/
theorem references_resolve
    (known : ∀ reference ∈ layout.references, (symbols.lookup reference.2).isSome)
    (lines : List Line) : (layout.resolve symbols lines).references = [] := by
  rw [List.eq_nil_iff_forall_not_mem]
  rintro ⟨address, label⟩ mem
  obtain ⟨emission, inEmitted, -, isReference⟩ := mem_references_iff.1 mem
  obtain ⟨old, isOld, rfl⟩ := List.mem_map.1 inEmitted
  obtain ⟨byte, isByte⟩ := exists_byte_of_known known isOld
  rw [Emission.resolve, isByte] at isReference
  cases isReference

/-- **Writing the addresses at once gives the same program** as patching them. -/
theorem ofLayout_resolve (once : layout.EmitsOnce) (noPatches : layout.patches = [])
    (known : ∀ reference ∈ layout.references, (layout.symbols.lookup reference.2).isSome)
    (lines : List Line) :
    Program.ofLayout (layout.resolve layout.symbols lines) = Program.ofLayout layout.patched := by
  -- a byte is looked up in the patches on one side, and in the record on the other
  have byteAt : (layout.resolve layout.symbols lines).byteAt = layout.patched.byteAt := by
    funext address
    rw [byteAt_patched noPatches, once.reference?, Layout.byteAt, emission?_resolve]
    have unpatched : (layout.resolve layout.symbols lines).patches = [] := noPatches
    rw [unpatched, List.lookup_nil]
    cases found : layout.emission? address with
    | none => rfl
    | some emission =>
      have mem := (mem_of_emission? found).1
      show placeholder (emission.cell.resolve layout.symbols) = _
      simp only [Option.bind_some, Option.elim_some]
      cases isCell : emission.cell with
      | byte value => rfl
      | reference label =>
        have isKnown := known (emission.address, label)
          (mem_references_iff.2 ⟨emission, mem, rfl, isCell⟩)
        obtain ⟨target, isTarget⟩ := Option.isSome_iff_exists.1 isKnown
        simp only at isTarget
        simp [Cell.resolve, Cell.label?, isTarget, placeholder]
  have owner? : (layout.resolve layout.symbols lines).owner? = layout.patched.owner? := by
    funext address
    rw [Layout.owner?, emission?_resolve, Option.map_map]
    rfl
  have extent : (layout.resolve layout.symbols lines).extent = layout.patched.extent :=
    extent_resolve lines
  rw [Program.ofLayout, Program.ofLayout, byteAt, owner?, extent]
  rfl

/-- **Both sources assemble to the same program**, and the second of them without any patches. -/
theorem ofSource_resolve {limit : DigitLimit} (room : limit.check 3 = .ok ()) {source : List Char}
    {final : Layout} (ok : ofSource limit source = .ok final) (once : final.EmitsOnce) :
    ∃ direct, ofSource limit (resolveSource limit final.symbols source) = .ok direct ∧
      direct.references = [] ∧ Program.ofLayout direct = Program.ofLayout final ∧
      direct.lines.map (fun line => (line.label, line.statement)) =
        final.lines.map fun line =>
          (line.label, line.statement.map (resolveStatement limit final.symbols)) := by
  obtain ⟨laid, run, known, rfl⟩ := ofSource_ok_iff.1 ok
  show ∃ direct, ofSource limit (resolveSource limit laid.symbols source) = .ok direct ∧ _
  have noBreak : ∀ raw ∈ Text.splitLines source, Text.NoBreak raw :=
    fun _ => Text.noBreak_of_mem_splitLines
  -- labels are below 256, so their numbers can be operands
  have inMemory : InMemory laid := inMemory_of_added run ⟨Nat.zero_le _, nofun⟩
  have sameLines : laid.lines = (start source).lines := lines_of_added run
  have split : (start (resolveSource limit laid.symbols source)).lines =
      ((Text.splitLines source).map (editLine (resolveOperand limit laid.symbols))).map
        Line.parse := by
    show (Text.splitLines (resolveSource _ _ source)).map Line.parse = _
    rw [resolveSource,
      Text.splitLines_mapLines (keepsLines_editLine keepsOperands_resolveOperand)]
  have direct := addedLines_resolve room inMemory.symbols noBreak run
    (start (resolveSource limit laid.symbols source)).lines
  rw [← split] at direct
  have nothing := references_resolve known (start (resolveSource limit laid.symbols source)).lines
  refine ⟨_, ofSource_ok_iff.2 ⟨_, direct, ?_, rfl⟩, nothing, ?_, ?_⟩
  · rw [nothing]
    exact nofun
  · have noPatches : laid.patches = [] := patches_of_added run rfl
    have onceLaid : laid.EmitsOnce := once
    rw [← ofLayout_resolve onceLaid noPatches known, patched, nothing]
    rfl
  · show (start (resolveSource limit laid.symbols source)).lines.map _ = laid.lines.map _
    rw [split, sameLines]
    show _ = ((Text.splitLines source).map Line.parse).map _
    rw [List.map_map, List.map_map, List.map_map]
    refine List.map_congr_left fun raw mem => ?_
    simp only [Function.comp_apply]
    rw [parse_resolve_of_mem noBreak run raw mem]
    rfl

end Program

/-! ## Sources -/

/-- The source with the address of its label for every operand that names one. -/
def numbersForLabels (symbols : List (List Char × Nat)) (source : String) : String :=
  String.ofList (resolveSource (some digitLimit) symbols source.toList)

/-- **A label means its address.** A source that assembles and writes no address twice assembles to
the same program when every operand that names a label is replaced by the address of the label. Only
operands are replaced, and no label is left to patch. -/
theorem assemble_numbersForLabels {source : String} {program : Program}
    (assembled : assemble source = .ok program)
    (once : ∀ layout, ofSource (some digitLimit) source.toList = .ok layout → layout.EmitsOnce) :
    assemble (numbersForLabels program.symbols source) = .ok program ∧
      (start (numbersForLabels program.symbols source).toList).lines.map
          (fun line => (line.label, line.statement)) =
        (start source.toList).lines.map (fun line => (line.label,
          line.statement.map (resolveStatement (some digitLimit) program.symbols))) ∧
      ∃ direct, ofSource (some digitLimit) (numbersForLabels program.symbols source).toList =
        .ok direct ∧ direct.references = [] := by
  obtain ⟨final, ok, rfl⟩ := assemble_ok_iff.1 assembled
  have text : (numbersForLabels final.symbols source).toList =
      resolveSource (some digitLimit) final.symbols source.toList := String.toList_ofList
  obtain ⟨direct, isDirect, nothing, same, lines⟩ :=
    ofSource_resolve Numeral.check_digitLimit ok (once final ok)
  rw [lines_of_ofSource ok, lines_of_ofSource isDirect, ← text] at lines
  rw [← text] at isDirect
  refine ⟨?_, lines, direct, isDirect, nothing⟩
  exact assemble_ok_iff.2 ⟨direct, isDirect, same.symm⟩

/-- Jumps and data that name labels before and behind them. -/
theorem assemble_numbersForLabels_forward_and_back :
    ∃ source program, assemble source = .ok program ∧
      (∀ layout, ofSource (some digitLimit) source.toList = .ok layout → layout.EmitsOnce) ∧
      numbersForLabels program.symbols source =
        "JMP 11\nx: DB 11, 2\nMOV AL, [2] ; the byte\nPUSH [2]\nPUSH [2]\nend: HLT" ∧
      assemble (numbersForLabels program.symbols source) = .ok program := by
  let source :=
    "JMP end\nx: DB end, x\nMOV AL, [ x ] ; the byte\nPUSH x\nPUSH [x]\nend: HLT"
  let program : Program :=
    { code := [26, 11, 11, 2, 3, 0, 2, 46, 2, 46, 2, 0]
      lines := [(0, 1), (1, 1), (2, 2), (3, 2), (4, 3), (5, 3), (6, 3), (7, 4), (8, 4), (9, 5),
        (10, 5), (11, 6)]
      symbols := [("x".toList, 2), ("end".toList, 11)] }
  -- both programs are computed, and they are the same
  have assembled : assemble source = .ok program := by decide +kernel
  have once : ∀ layout, ofSource (some digitLimit) source.toList = .ok layout →
      layout.EmitsOnce := by
    have checked : (ofSource (some digitLimit) source.toList).toOption.all
        (fun layout => decide layout.EmitsOnce) = true := by decide +kernel
    intro layout ok
    rw [ok] at checked
    exact of_decide_eq_true checked
  exact ⟨source, program, assembled, once, by decide +kernel,
    (assemble_numbersForLabels assembled once).1⟩

end EightBit
