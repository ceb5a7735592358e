import EightBit.Proofs.Assembly.Layout

/-!
# The Line Map and the Code

The line map of a program says which line wrote a byte last. When `ORG` moves back over bytes that
are already written, the byte is not always the one of that line: a reference that an earlier line
wrote there is still patched.

What a line writes is stated without any layout, from the lines in front of it. The record of the
first pass is then compared with that.

## Main Definitions

- `Writes`: a line of the source writes a cell at an address.
- `NewestReference`: the last label that any line writes at an address.
- `WritesLast`: a line is the last one that writes at an address.

## Main Statements

- `mem_emitted_iff`: the record holds what the lines write, and nothing else.
- `reference?_eq_some_iff`: the reference that is patched last is the newest one.
- `owner?_eq_some_iff`: the owner of a byte is the line that writes there last.
- `code_eq_own_iff`: when the byte at an address is the one of the line that owns it.
-/

namespace EightBit

open Layout

/-- The cells that a line without mistakes writes. -/
def Source.Line.cells (limit : DigitLimit) (line : Source.Line) : List Cell :=
  match line.statement.map (Effect.ofStatement limit) with
  | some (.emit cells none) => cells
  | _ => []

/-- A line of the source, counted from 1, writes a cell at an address. Where it writes is decided by
the lines in front of it. -/
def Writes (limit : DigitLimit) (source : List Char) (number address : Nat) (cell : Cell) : Prop :=
  ∃ front line back before, (start source).lines = front ++ line :: back ∧
    number = 1 + front.length ∧ AddedLines limit 1 front (start source) before ∧
    cellAt before.cursor (line.cells limit) address = some cell

/-- The label is the last one that any line of the source writes at the address. -/
def NewestReference (limit : DigitLimit) (source : List Char) (address : Nat)
    (label : List Char) : Prop :=
  ∃ number, Writes limit source number address (.reference label) ∧
    ∀ later other, Writes limit source later address (.reference other) → later ≤ number

/-- The line is the last one of the source that writes at the address. -/
def WritesLast (limit : DigitLimit) (source : List Char) (number address : Nat) : Prop :=
  (∃ cell, Writes limit source number address cell) ∧
    ∀ later cell, Writes limit source later address cell → later ≤ number

/-- What a cell stands for: a finished byte for itself, and a label for its address. -/
def Cell.StandsFor (symbols : List (List Char × Nat)) (byte : UInt8) : Cell → Prop
  | .byte value => byte = value
  | .reference label => symbols.lookup label = some byte.toNat

/-- The cell was written after the other one: by a later line, or by the same line further on. -/
def Emission.Newer (newer older : Emission) : Prop :=
  older.line < newer.line ∨ older.line = newer.line ∧ older.address < newer.address

namespace Layout

section Record

variable {limit : DigitLimit} {number : Nat} {layout after : Layout}

/-! ## The record of the first pass -/

theorem emitted_of_added {line : Source.Line} (added : Added limit number line layout after) :
    after.emitted = (placed number layout.cursor (line.cells limit)).reverse ++ layout.emitted := by
  obtain ⟨labelled, isLabelled, effect⟩ := added.effect_cases
  -- a label leaves the record and the cursor alone
  have same : labelled.emitted = layout.emitted := by rw [isLabelled.eq]
  rw [Source.Line.cells, ← same, ← isLabelled.cursor]
  obtain ⟨noStatement, rfl⟩ | ⟨statement, address, isStatement, moves, rfl⟩ |
    ⟨statement, cells, isStatement, emits, -, rfl⟩ := effect
  · rw [noStatement]
    rfl
  · rw [isStatement, Option.map_some, moves]
    rfl
  · rw [isStatement, Option.map_some, emits]
    rfl

theorem mem_placed_iff {start : Nat} {cells : List Cell} {emission : Emission} :
    emission ∈ placed number start cells ↔
      emission.line = number ∧ cellAt start cells emission.address = some emission.cell := by
  obtain ⟨address, cell, line⟩ := emission
  induction cells generalizing start with
  | nil => simp [placed, cellAt_nil]
  | cons first rest ih =>
    rw [placed, List.mem_cons, ih, cellAt_cons, Emission.mk.injEq]
    by_cases here : start = address
    · -- the cells behind the first one are at higher addresses
      have behind : cellAt (start + 1) rest address = none := by
        rw [cellAt, if_neg (by omega)]
      rw [behind, if_pos here]
      simp [here, eq_comm, and_comm]
    · simp [here, Ne.symm here]

/-- **The record of the first pass** holds what was there before and what the lines write. -/
theorem mem_emitted_of_added {lines : List Source.Line} {emission : Emission}
    (run : AddedLines limit number lines layout after) :
    emission ∈ after.emitted ↔ emission ∈ layout.emitted ∨
      ∃ front line back before, lines = front ++ line :: back ∧
        emission.line = number + front.length ∧ AddedLines limit number front layout before ∧
        cellAt before.cursor (line.cells limit) emission.address = some emission.cell := by
  induction lines generalizing number layout with
  | nil =>
    have same : after = layout := run
    simp [same]
  | cons line rest ih =>
    obtain ⟨middle, first, later⟩ := run
    rw [ih later, emitted_of_added first, List.mem_append, List.mem_reverse, mem_placed_iff,
      or_comm (b := emission ∈ layout.emitted), or_assoc]
    refine or_congr_right ?_
    -- the line that writes is the first one, or one of those behind it
    constructor
    · rintro (⟨isLine, isCell⟩ | ⟨front, other, back, before, rfl, isLine, toFront, isCell⟩)
      · exact ⟨[], line, rest, layout, rfl, isLine, rfl, isCell⟩
      · refine ⟨line :: front, other, back, before, rfl, ?_, ⟨middle, first, toFront⟩, isCell⟩
        rw [isLine, List.length_cons]
        omega
    · rintro ⟨front, other, back, before, split, isLine, toFront, isCell⟩
      cases front with
      | nil =>
        obtain ⟨rfl, rfl⟩ := List.cons.inj split
        have same : before = layout := toFront
        subst same
        exact .inl ⟨isLine, isCell⟩
      | cons head front =>
        obtain ⟨rfl, rfl⟩ := List.cons.inj split
        obtain ⟨between, toBetween, toFront⟩ := toFront
        -- both runs start with the same line, so they meet behind it
        obtain rfl : between = middle := toBetween.unique first
        refine .inr ⟨front, other, back, before, rfl, ?_, toFront, isCell⟩
        rw [isLine, List.length_cons]
        omega

/-! ## The order of the record -/

theorem pairwise_placed (number start : Nat) (cells : List Cell) :
    (placed number start cells).reverse.Pairwise Emission.Newer := by
  -- all of one line, at rising addresses
  rw [List.pairwise_reverse]
  induction cells generalizing start with
  | nil => exact .nil
  | cons cell rest ih =>
    refine .cons ?_ (ih (start + 1))
    intro newer mem
    obtain ⟨isLine, isCell⟩ := mem_placed_iff.1 mem
    have above := (cellAt_eq_some_iff.1 isCell).1
    refine .inr ⟨isLine.symm, ?_⟩
    show start < newer.address
    omega

/-- **The record is in order**, the newest cells first. -/
theorem pairwise_of_added {lines : List Source.Line}
    (run : AddedLines limit number lines layout after)
    (sorted : layout.emitted.Pairwise Emission.Newer)
    (old : ∀ emission ∈ layout.emitted, emission.line < number) :
    after.emitted.Pairwise Emission.Newer := by
  induction lines generalizing number layout with
  | nil =>
    have same : after = layout := run
    rwa [same]
  | cons line rest ih =>
    obtain ⟨middle, first, later⟩ := run
    refine ih later ?_ ?_
    -- what is in the record comes from lines with lower numbers
    · rw [emitted_of_added first, List.pairwise_append]
      refine ⟨pairwise_placed .., sorted, fun newer inPlaced older inOld => .inl ?_⟩
      rw [(mem_placed_iff.1 (List.mem_reverse.1 inPlaced)).1]
      exact old older inOld
    · intro emission mem
      rw [emitted_of_added first, List.mem_append, List.mem_reverse] at mem
      rcases mem with inPlaced | inOld
      · rw [(mem_placed_iff.1 inPlaced).1]
        omega
      · have := old emission inOld
        omega

end Record

end Layout

section Source

variable {limit : DigitLimit} {source : List Char} {laid : Layout}

/-- A line writes at most one cell at an address. -/
theorem Writes.unique {number address : Nat} {cell other : Cell}
    (first : Writes limit source number address cell)
    (second : Writes limit source number address other) : cell = other := by
  obtain ⟨front, line, back, before, split, isNumber, toFront, isCell⟩ := first
  obtain ⟨front', line', back', before', split', isNumber', toFront', isCell'⟩ := second
  -- the number tells where the line stands, and the lines in front tell the cursor
  have sameLength : front.length = front'.length := by omega
  rw [split] at split'
  obtain ⟨rfl, rest⟩ := List.append_inj split' sameLength
  obtain ⟨rfl, rfl⟩ := List.cons.inj rest
  obtain rfl := toFront.unique toFront'
  rw [isCell] at isCell'
  exact Option.some.inj isCell'

variable (run : AddedLines limit 1 (start source).lines (start source) laid)
include run

/-- **The record holds what the lines write**, and nothing else. -/
theorem mem_emitted_iff {emission : Emission} :
    emission ∈ laid.emitted ↔ Writes limit source emission.line emission.address emission.cell := by
  rw [mem_emitted_of_added run]
  simp [start, Writes]

/-- The reference that is found first is the newest one. -/
theorem newestReference_of_reference? {address : Nat} {label : List Char}
    (found : laid.reference? address = some label) :
    NewestReference limit source address label := by
  have sorted := pairwise_of_added run .nil nofun
  obtain ⟨newer, emission, older, split, isLabel, noNewer⟩ := List.findSome?_eq_some_iff.1 found
  have here : emission.address = address := by
    by_contra other
    rw [if_neg other] at isLabel
    cases isLabel
  rw [if_pos here] at isLabel
  have isCell := Cell.label?_eq_some_iff.1 isLabel
  refine ⟨emission.line, ?_, fun later other writes => ?_⟩
  · have mem : emission ∈ laid.emitted := by simp [split]
    have writes := (mem_emitted_iff run).1 mem
    rwa [here, isCell] at writes
  · have mem : ⟨address, .reference other, later⟩ ∈ laid.emitted := (mem_emitted_iff run).2 writes
    rw [split, List.mem_append, List.mem_cons] at mem
    rcases mem with inNewer | rfl | inOlder
    · -- it would have been found before
      have skipped := noNewer _ inNewer
      rw [if_pos rfl] at skipped
      cases skipped
    · exact Nat.le_refl _
    -- the record is in order, so what stands behind is not newer
    · rw [split, List.pairwise_append, List.pairwise_cons] at sorted
      rcases sorted.2.1.1 _ inOlder with before | ⟨same, -⟩
      · exact Nat.le_of_lt before
      · exact Nat.le_of_eq same

/-- **The reference that is patched last** is the newest one. -/
theorem reference?_eq_some_iff {address : Nat} {label : List Char} :
    laid.reference? address = some label ↔ NewestReference limit source address label := by
  -- from the search to the specification is known; the other way, the search cannot have missed it
  refine ⟨newestReference_of_reference? run, fun ⟨number, writes, newest⟩ => ?_⟩
  cases found : laid.reference? address with
  | none =>
    have mem : ⟨address, .reference label, number⟩ ∈ laid.emitted :=
      (mem_emitted_iff run).2 writes
    have skipped := List.findSome?_eq_none_iff.1 found _ mem
    rw [if_pos rfl] at skipped
    cases skipped
  | some other =>
    obtain ⟨number', writes', newest'⟩ := newestReference_of_reference? run found
    -- of two newest references each is as new as the other, so they are one
    obtain rfl : number' = number := Nat.le_antisymm (newest _ _ writes') (newest' _ _ writes)
    have same := writes'.unique writes
    rw [Cell.reference.inj same]

/-- The cell that is found at an address is the newest one there. -/
theorem line_le_of_emission? {address : Nat} {emission other : Emission}
    (found : laid.emission? address = some emission) (mem : other ∈ laid.emitted)
    (here : other.address = address) : other.line ≤ emission.line := by
  have sorted := pairwise_of_added run .nil nofun
  obtain ⟨isHere, newer, older, split, noNewer⟩ := List.find?_eq_some_iff_append.1 found
  rw [split, List.mem_append, List.mem_cons] at mem
  rcases mem with inNewer | rfl | inOlder
  · -- it would have been found before
    have skipped := noNewer other inNewer
    simp [here] at skipped
  · exact Nat.le_refl _
  -- the record is in order, so what stands behind is not newer
  · rw [split, List.pairwise_append, List.pairwise_cons] at sorted
    rcases sorted.2.1.1 _ inOlder with before | ⟨same, -⟩
    · exact Nat.le_of_lt before
    · exact Nat.le_of_eq same

/-- **The owner of a byte** is the line that writes there last. -/
theorem owner?_eq_some_iff {address number : Nat} :
    laid.owner? address = some number ↔ WritesLast limit source number address := by
  -- whatever emission is found first is the newest, since later emissions stand in front
  have newest : ∀ {emission}, laid.emission? address = some emission →
      WritesLast limit source emission.line address := by
    intro emission found
    obtain ⟨mem, here⟩ := mem_of_emission? found
    refine ⟨⟨emission.cell, here ▸ (mem_emitted_iff run).1 mem⟩, fun later cell writes => ?_⟩
    have mem : ⟨address, cell, later⟩ ∈ laid.emitted := (mem_emitted_iff run).2 writes
    exact line_le_of_emission? run found mem rfl
  constructor
  · intro isOwner
    obtain ⟨emission, found, rfl⟩ := Option.map_eq_some_iff.1 isOwner
    exact newest found
  · rintro ⟨⟨cell, writes⟩, last⟩
    have mem : ⟨address, cell, number⟩ ∈ laid.emitted := (mem_emitted_iff run).2 writes
    obtain ⟨emission, found⟩ := Option.isSome_iff_exists.1 (isSome_emission?_of_mem mem)
    obtain ⟨⟨other, isOther⟩, atLeast⟩ := newest found
    rw [owner?, found, Option.map_some, Nat.le_antisymm (last _ _ isOther) (atLeast _ _ writes)]

end Source

/-! ## Programs -/

/-- Whose byte it is, and which byte. -/
theorem mem_lines_iff {layout : Layout} {address number : Nat} :
    (address, number) ∈ (Program.ofLayout layout).lines ↔
      address < layout.extent ∧ layout.owner? address = some number := by
  show (address, number) ∈ (List.range layout.extent).filterMap _ ↔ _
  rw [List.mem_filterMap]
  constructor
  · rintro ⟨other, inRange, isOwner⟩
    obtain ⟨line, isLine, same⟩ := Option.map_eq_some_iff.1 isOwner
    obtain ⟨rfl, rfl⟩ := Prod.mk.inj same
    exact ⟨List.mem_range.1 inRange, isLine⟩
  · rintro ⟨inRange, isOwner⟩
    exact ⟨address, List.mem_range.2 inRange, by rw [isOwner]; rfl⟩

theorem getElem?_code {layout : Layout} {address : Nat} (inRange : address < layout.extent) :
    (Program.ofLayout layout).code[address]? = some (layout.byteAt address) := by
  show ((List.range layout.extent).map layout.byteAt)[address]? = _
  rw [List.getElem?_map, List.getElem?_range inRange]
  rfl

theorem toNat_ofNat_of_le {n : Nat} (small : n ≤ 255) : (UInt8.ofNat n).toNat = n := by
  rw [UInt8.toNat_ofNat']
  omega

/-- In a source that assembles, every cell stands for a byte. -/
theorem exists_standsFor {laid : Layout} (inMemory : InMemory laid)
    (known : ∀ reference ∈ laid.references, (laid.symbols.lookup reference.2).isSome)
    {emission : Emission} (mem : emission ∈ laid.emitted) :
    ∃ own, emission.cell.StandsFor laid.symbols own := by
  cases isCell : emission.cell with
  | byte value => exact ⟨value, rfl⟩
  | reference label =>
    have isKnown := known (emission.address, label)
      (mem_references_iff.2 ⟨emission, mem, rfl, isCell⟩)
    obtain ⟨target, isTarget⟩ := Option.isSome_iff_exists.1 isKnown
    refine ⟨UInt8.ofNat target, ?_⟩
    show laid.symbols.lookup label = some (UInt8.ofNat target).toNat
    rw [toNat_ofNat_of_le (le_of_lookup inMemory.symbols isTarget)]
    exact isTarget

/-- **When the line map and the code agree.** Every byte in the line map belongs to a line that writes
one cell there, and the byte is what the cell stands for if and only if the newest reference that was
ever written there stands for the same. -/
theorem code_eq_own_iff {source : String} {program : Program}
    (assembled : assemble source = .ok program) {address number : Nat}
    (owned : (address, number) ∈ program.lines) :
    ∃ cell own, Writes (some digitLimit) source.toList number address cell ∧
      (∀ other, Writes (some digitLimit) source.toList number address other → other = cell) ∧
      cell.StandsFor program.symbols own ∧
      (program.code[address]? = some own ↔
        ∀ label, NewestReference (some digitLimit) source.toList address label →
          program.symbols.lookup label = some own.toNat) := by
  obtain ⟨final, ok, rfl⟩ := assemble_ok_iff.1 assembled
  obtain ⟨laid, run, known, rfl⟩ := ofSource_ok_iff.1 ok
  have noPatches : laid.patches = [] := patches_of_added run rfl
  have inMemory : InMemory laid := inMemory_of_added run ⟨Nat.zero_le _, nofun⟩
  -- the line map names the line of the newest cell at the address
  obtain ⟨inRange, isOwner⟩ := mem_lines_iff.1 owned
  obtain ⟨emission, found, rfl⟩ := Option.map_eq_some_iff.1 isOwner
  have found : laid.emission? address = some emission := found
  obtain ⟨mem, here⟩ := mem_of_emission? found
  have writes := (mem_emitted_iff run).1 mem
  rw [here] at writes
  obtain ⟨own, standsFor⟩ := exists_standsFor inMemory known mem
  refine ⟨emission.cell, own, writes, fun _ other => other.unique writes, standsFor, ?_⟩
  rw [getElem?_code inRange, byteAt_patched noPatches, found, Option.some.injEq]
  simp only [← reference?_eq_some_iff run]
  -- what is patched there is decided by the newest reference, whoever owns the byte
  cases newest : laid.reference? address with
  | none =>
    -- nothing is patched here, so the owner's cell is a byte
    have isByte : emission.cell.label? = none := by
      have skipped := List.findSome?_eq_none_iff.1 newest emission mem
      rwa [if_pos here] at skipped
    cases isCell : emission.cell with
    | byte value =>
      rw [isCell] at standsFor
      obtain rfl : own = value := standsFor
      simp [isCell, placeholder]
    | reference label =>
      rw [isCell] at isByte
      cases isByte
  | some label =>
    obtain ⟨target, isTarget⟩ := Option.isSome_iff_exists.1
      (known (address, label) (mem_references_of_reference? newest))
    have isTarget : laid.symbols.lookup label = some target := isTarget
    have small := toNat_ofNat_of_le (le_of_lookup inMemory.symbols isTarget)
    show UInt8.ofNat ((laid.symbols.lookup label).getD 0) = own ↔
      ∀ other, some label = some other → laid.symbols.lookup other = some own.toNat
    constructor
    · rintro patched other same
      rw [← Option.some.inj same, ← patched, isTarget, Option.getD_some, small]
    · intro agree
      have same := agree label rfl
      rw [same, Option.getD_some, UInt8.ofNat_toNat]

/-- A reference that is written over a byte. -/
theorem code_eq_own_iff_moved_back :
    ∃ source program, assemble source = .ok program ∧ (2, 4) ∈ program.lines ∧
      ∃ cell own, Writes (some digitLimit) source.toList 4 2 cell ∧
        (∀ other, Writes (some digitLimit) source.toList 4 2 other → other = cell) ∧
        cell.StandsFor program.symbols own ∧
        (program.code[2]? = some own ↔
          ∀ label, NewestReference (some digitLimit) source.toList 2 label →
            program.symbols.lookup label = some own.toNat) := by
  let source := "ORG 2\nDB 9\nORG 0\nMOV AL, x\nx: HLT"
  let program : Program :=
    { code := [1, 0, 3, 0]
      lines := [(0, 4), (1, 4), (2, 4), (3, 5)]
      symbols := [("x".toList, 3)] }
  have assembled : assemble source = .ok program := by decide +kernel
  have owned : (2, 4) ∈ program.lines := by decide
  exact ⟨source, program, assembled, owned, code_eq_own_iff assembled owned⟩

/-- A byte written over a reference is patched like the reference, though the line map gives it to the
line that wrote it. -/
theorem exists_code_ne_own :
    ¬∀ source program, assemble source = .ok program → ∀ address number,
      (address, number) ∈ program.lines → ∃ cell own,
        Writes (some digitLimit) source.toList number address cell ∧
        cell.StandsFor program.symbols own ∧ program.code[address]? = some own := by
  intro claim
  let source := "DB x\nORG 0\nDB 5\nx: DB 7"
  let program : Program :=
    { code := [1, 7], lines := [(0, 3), (1, 4)], symbols := [("x".toList, 1)] }
  obtain ⟨cell, own, writes, standsFor, isCode⟩ :=
    claim source program (by decide +kernel) 0 3 (by decide)
  let before : Layout :=
    { start source.toList with
      emitted := [⟨0, .reference "x".toList, 1⟩]
      segments := [⟨1, 0, 1⟩] }
  have writesFive : Writes (some digitLimit) source.toList 3 0 (.byte 5) := by
    refine ⟨["DB x".toList, "ORG 0".toList].map Source.Line.parse,
      Source.Line.parse "DB 5".toList, [Source.Line.parse "x: DB 7".toList], before, ?_, rfl, ?_, ?_⟩
    · decide +kernel
    · exact addLines_ok_iff.1 (by decide +kernel)
    · decide +kernel
  obtain rfl := writes.unique writesFive
  obtain rfl : own = 5 := standsFor
  -- the code has the address of `x` there, which is 1
  cases isCode

end EightBit
