import EightBit.Proofs.Assembly.Record
import Mathlib.Data.List.Perm.Basic

/-!
# The Order of Sections

A section is an `ORG` without a label and the lines up to the next `ORG`. It puts its cells and its
labels where it says, wherever it stands in the source. If no two sections of a source write at the same
address, then the sections can be put in any order: the code is the same, so are the symbols, and every
byte belongs to the line that it belonged to before.

Sections are taken as lists of lines with their numbers, so that a line can be told from its copies. A
line that is moved then keeps its old number beside the new one.

## Main Definitions

- `IsSection`: a list of numbered lines is a section.
- `EmitsAt`: some line of a section writes at an address.
- `oldNumber`: the number that a line of the source had before the sections were moved.

## Main Statements

- `record_sections`, `definitions_sections`, `fitting_sections`: sections are laid out one by one.
- `emitsOnce_of_sections`: sections that keep apart write no address twice.
- `Layout.Renumbered.code`, `Layout.Renumbered.lines`: layouts with the same cells give the same program.
- `assembleText_arranged`: the order of the sections does not matter.
-/

namespace EightBit

open Layout

/-- A line without a label that is an `ORG`, and then lines that are none. -/
structure IsSection (block : List (Source.Line × Nat)) : Prop where
  opens : ∃ entry ∈ block.head?, entry.1.label = none ∧
    ∃ statement ∈ entry.1.statement, statement.mnemonic = "ORG".toList
  rest : ∀ entry ∈ block.tail, entry.1.NoOrigin

/-- Some line of the block writes a cell at the address. -/
def EmitsAt (limit : DigitLimit) (source : List Char) (block : List (Source.Line × Nat))
    (address : Nat) : Prop :=
  ∃ entry ∈ block, ∃ cell, Writes limit source entry.2 address cell

/-- The number that a line had in the numbered lines that the source is made of now. -/
def oldNumber (lines : List (Source.Line × Nat)) (number : Nat) : Nat :=
  ((lines.map Prod.snd)[number - 1]?).getD 0

namespace Layout

/-! ## Sections by themselves -/

section Anchored

variable {limit : DigitLimit}

/-- The block starts with a line that moves the cursor and does nothing else, and goes on with lines
that do not move it. -/
def Anchored (limit : DigitLimit) (block : List (Source.Line × Nat)) : Prop :=
  ∃ line number rest address, block = (line, number) :: rest ∧ line.label = none ∧
    line.cells limit = [] ∧ line.target? limit = some address ∧ ∀ entry ∈ rest, entry.1.NoOrigin

/-- The first line of a section moves the cursor if nothing is wrong with it. -/
theorem anchored_of_isSection {block : List (Source.Line × Nat)} (isSection : IsSection block)
    (sound : ∀ entry ∈ block, entry.1.Sound limit) : Anchored limit block := by
  obtain ⟨⟨⟨line, number⟩, isHead, noLabel, statement, isStatement, isOrg⟩, noOrigin⟩ := isSection
  cases block with
  | nil => cases isHead
  | cons entry rest =>
    obtain rfl := Option.some.inj isHead
    have isStatement : line.statement = some statement := isStatement
    rcases (sound _ List.mem_cons_self).statement statement isStatement with
      ⟨address, moves⟩ | ⟨cells, emits⟩
    · refine ⟨line, number, rest, address, rfl, noLabel, ?_, ?_, noOrigin⟩
      · rw [Source.Line.cells, isStatement, Option.map_some, moves]
      · rw [Source.Line.target?, isStatement, Option.map_some, moves]
    -- data and instructions have other names
    · rcases emits_iff.1 emits with ⟨isData, -⟩ | ⟨⟨notOrg, -⟩, -⟩
      · rw [isOrg] at isData
        exact absurd isData (by decide)
      · exact absurd isOrg notOrg

section Block

variable {block : List (Source.Line × Nat)} (anchored : Anchored limit block)
include anchored

/-- A section writes the same cells wherever the cursor was before, and defines the same labels; and it
fits or does not. -/
theorem Anchored.laid_out (cursor : Nat) :
    record limit block cursor = record limit block 0 ∧
      definitions limit (block.map Prod.fst) cursor = definitions limit (block.map Prod.fst) 0 ∧
      (Fitting limit (block.map Prod.fst) cursor ↔ Fitting limit (block.map Prod.fst) 0) := by
  obtain ⟨line, number, rest, address, rfl, noLabel, noCells, moves, -⟩ := anchored
  have next : ∀ cursor, line.next limit cursor = address := fun cursor => by
    rw [Source.Line.next, moves]
    rfl
  refine ⟨?_, ?_, ?_⟩
  · rw [record, record, noCells, next, next]
    rfl
  · rw [List.map_cons, definitions, definitions, noLabel, next, next]
    rfl
  · rw [List.map_cons, Fitting, Fitting, noCells, next, next]
    exact and_congr_right fun _ => and_congr_left fun _ => ⟨fun _ => .inl rfl, fun _ => .inl rfl⟩

/-- A section writes no address twice. -/
theorem Anchored.nodup (cursor : Nat) : ((record limit block cursor).map Emission.address).Nodup := by
  obtain ⟨line, number, rest, address, rfl, -, noCells, -, noOrigin⟩ := anchored
  rw [record, noCells]
  show ((record limit rest _).map Emission.address).Nodup
  rw [address_record noOrigin]
  exact List.nodup_range'

end Block

/-! ## Sections in a row -/

variable {blocks : List (List (Source.Line × Nat))}
  (anchored : ∀ block ∈ blocks, Anchored limit block)
include anchored

/-- **Sections write their cells one by one.** -/
theorem record_sections (cursor : Nat) :
    record limit blocks.flatten cursor = blocks.flatMap fun block => record limit block 0 := by
  induction blocks generalizing cursor with
  | nil => rfl
  | cons block rest ih =>
    rw [List.forall_mem_cons] at anchored
    rw [List.flatten_cons, record_append, (anchored.1.laid_out cursor).1, ih anchored.2,
      List.flatMap_cons]

/-- Sections define their labels one by one. -/
theorem definitions_sections (cursor : Nat) :
    definitions limit (blocks.flatten.map Prod.fst) cursor =
      blocks.flatMap fun block => definitions limit (block.map Prod.fst) 0 := by
  induction blocks generalizing cursor with
  | nil => rfl
  | cons block rest ih =>
    rw [List.forall_mem_cons] at anchored
    rw [List.flatten_cons, List.map_append, definitions_append, (anchored.1.laid_out cursor).2.1,
      ih anchored.2, List.flatMap_cons]

/-- Sections fit one by one. -/
theorem fitting_sections (cursor : Nat) :
    Fitting limit (blocks.flatten.map Prod.fst) cursor ↔
      ∀ block ∈ blocks, Fitting limit (block.map Prod.fst) 0 := by
  induction blocks generalizing cursor with
  | nil => exact ⟨fun _ => nofun, fun _ => trivial⟩
  | cons block rest ih =>
    rw [List.forall_mem_cons] at anchored
    rw [List.flatten_cons, List.map_append, fitting_append, (anchored.1.laid_out cursor).2.2,
      ih anchored.2, List.forall_mem_cons]

end Anchored

theorem sound_of_fitting {limit : DigitLimit} {lines : List Source.Line} {cursor : Nat}
    (fitting : Fitting limit lines cursor) : ∀ line ∈ lines, line.Sound limit := by
  induction lines generalizing cursor with
  | nil => exact nofun
  | cons line rest ih => exact List.forall_mem_cons.2 ⟨fitting.1, ih fitting.2.2⟩

/-- What is on record was written by one of the lines. -/
theorem exists_line_of_mem_record {limit : DigitLimit} {lines : List (Source.Line × Nat)}
    {cursor : Nat} {emission : Emission} (mem : emission ∈ record limit lines cursor) :
    ∃ entry ∈ lines, entry.2 = emission.line := by
  induction lines generalizing cursor with
  | nil => cases mem
  | cons entry rest ih =>
    rcases List.mem_append.1 mem with here | later
    · exact ⟨entry, List.mem_cons_self, (mem_placed_iff.1 here).1.symm⟩
    · obtain ⟨other, inRest, same⟩ := ih later
      exact ⟨other, List.mem_cons_of_mem _ inRest, same⟩

/-- **Sections that keep apart write no address twice.** -/
theorem emitsOnce_of_sections {limit : DigitLimit} {source : List Char} {laid : Layout}
    {blocks : List (List (Source.Line × Nat))} (cut : numberedLines source = blocks.flatten)
    (anchored : ∀ block ∈ blocks, Anchored limit block)
    (apart : blocks.Pairwise fun first second =>
      ∀ address, EmitsAt limit source first address → ¬EmitsAt limit source second address)
    (run : AddedLines limit 1 (start source).lines (start source) laid) : laid.EmitsOnce := by
  -- the emissions are those of the blocks, one block after the other
  have recorded : laid.emitted.reverse = blocks.flatMap fun block => record limit block 0 := by
    rw [record_of_source_run run, List.reverse_reverse, cut, record_sections anchored]
  -- what a block emits stands in the source at that address
  have emits : ∀ block ∈ blocks, ∀ address ∈ (record limit block 0).map Emission.address,
      EmitsAt limit source block address := by
    intro block isBlock address inBlock
    obtain ⟨emission, mem, rfl⟩ := List.mem_map.1 inBlock
    obtain ⟨entry, isEntry, same⟩ := exists_line_of_mem_record mem
    refine ⟨entry, isEntry, emission.cell, same ▸ (mem_emitted_iff run).1 ?_⟩
    rw [← List.mem_reverse, recorded]
    exact List.mem_flatMap.2 ⟨block, isBlock, mem⟩
  -- no address twice within a block, since a block runs upward; none in two blocks, by hypothesis
  rw [EmitsOnce, ← List.nodup_reverse, ← List.map_reverse, recorded, List.map_flatMap,
    List.nodup_flatMap]
  refine ⟨fun block isBlock => (anchored block isBlock).nodup 0, ?_⟩
  refine apart.imp_of_mem fun isFirst isSecond apart address inFirst inSecond => ?_
  exact apart address (emits _ isFirst address inFirst) (emits _ isSecond address inSecond)

/-! ## The same cells in another order -/

/-- Both layouts have the same cells and symbols, in any order, and each address once. The lines of the
first one have other numbers in the second one. -/
structure Renumbered (number : Nat → Nat) (first second : Layout) : Prop where
  cells : (first.emitted.map (renumber number)).Perm second.emitted
  symbols : ∀ name, first.symbols.lookup name = second.symbols.lookup name
  once : second.EmitsOnce
  unpatched : first.patches = [] ∧ second.patches = []

section Renumbered

variable {number : Nat → Nat} {first second : Layout} (renumbered : Renumbered number first second)
include renumbered

theorem Renumbered.once_first : first.EmitsOnce := by
  have addresses := renumbered.cells.map Emission.address
  rw [List.map_map] at addresses
  exact addresses.nodup_iff.2 renumbered.once

theorem Renumbered.emission? (address : Nat) :
    second.emission? address = (first.emission? address).map (renumber number) := by
  have found : ∀ emission, second.emission? address = some emission ↔
      (first.emission? address).map (renumber number) = some emission := by
    intro emission
    rw [emission?_eq_some_iff renumbered.once, ← renumbered.cells.mem_iff, Option.map_eq_some_iff]
    simp only [emission?_eq_some_iff renumbered.once_first, List.mem_map]
    constructor
    · rintro ⟨⟨old, mem, rfl⟩, here⟩
      exact ⟨old, ⟨mem, here⟩, rfl⟩
    · rintro ⟨old, ⟨mem, here⟩, rfl⟩
      exact ⟨⟨old, mem, rfl⟩, here⟩
  exact Option.ext found

theorem Renumbered.extent : second.extent = first.extent := by
  have below : ∀ address, address < second.extent ↔ address < first.extent := by
    intro address
    simp only [lt_extent_iff, ← renumbered.cells.mem_iff, List.mem_map, exists_exists_and_eq_and]
    rfl
  exact Nat.le_antisymm (Nat.le_of_not_lt fun more => Nat.lt_irrefl _ ((below _).1 more))
    (Nat.le_of_not_lt fun more => Nat.lt_irrefl _ ((below _).2 more))

/-- **The same cells give the same bytes.** -/
theorem Renumbered.code :
    (Program.ofLayout first.patched).code = (Program.ofLayout second.patched).code := by
  show (List.range first.extent).map _ = (List.range second.extent).map _
  rw [renumbered.extent]
  -- at each address both programs show the newest emission, and those are the same up to the line
  refine List.map_congr_left fun address _ => ?_
  rw [byteAt_patched renumbered.unpatched.1, byteAt_patched renumbered.unpatched.2,
    renumbered.once_first.reference?, renumbered.once.reference?, renumbered.emission?]
  cases first.emission? address with
  | none => rfl
  | some emission =>
    obtain ⟨_, cell, _⟩ := emission
    cases cell with
    | byte value => rfl
    | reference label =>
      exact congrArg (fun target => UInt8.ofNat (target.getD 0)) (renumbered.symbols label)

/-- **The same cells belong to the same lines**, whatever the numbers of these are. -/
theorem Renumbered.lines :
    (Program.ofLayout first.patched).lines.map (Prod.map id number) =
      (Program.ofLayout second.patched).lines := by
  show ((List.range first.extent).filterMap _).map _ = (List.range second.extent).filterMap _
  rw [renumbered.extent, List.map_filterMap]
  refine List.filterMap_congr fun address _ => ?_
  have owner : second.patched.owner? address = (first.patched.owner? address).map number := by
    show (second.emission? address).map _ = ((first.emission? address).map _).map _
    rw [renumbered.emission?, Option.map_map, Option.map_map]
    rfl
  rw [owner]
  cases first.patched.owner? address <;> rfl

end Renumbered

end Layout

/-! ## Sections in another order -/

section Symbols

variable {symbols other : List (List Char × Nat)}

/-- In symbols without repetition, every entry is found. -/
theorem lookup_eq_some_iff_mem (distinct : (symbols.map Prod.fst).Nodup) {name : List Char}
    {target : Nat} : symbols.lookup name = some target ↔ (name, target) ∈ symbols := by
  have mem_of_lookup : ∀ {target}, symbols.lookup name = some target → (name, target) ∈ symbols := by
    intro target found
    obtain ⟨front, back, split, -⟩ := List.lookup_eq_some_iff.1 found
    simp [split]
  -- the other direction is where the names have to be different
  refine ⟨mem_of_lookup, fun mem => ?_⟩
  cases found : symbols.lookup name with
  | none =>
    have missing := lookup_eq_none_iff_not_mem.1 found
    exact absurd (List.mem_map_of_mem mem) missing
  | some known =>
    have same := List.inj_on_of_nodup_map distinct (mem_of_lookup found) mem rfl
    rw [(Prod.mk.inj same).2]

/-- The order of symbols does not matter. -/
theorem lookup_of_perm (perm : symbols.Perm other) (distinct : (other.map Prod.fst).Nodup)
    (name : List Char) : symbols.lookup name = other.lookup name := by
  refine Option.ext fun target => ?_
  rw [lookup_eq_some_iff_mem ((perm.map Prod.fst).nodup_iff.2 distinct),
    lookup_eq_some_iff_mem distinct, perm.mem_iff]

end Symbols

/-- Every line finds its old number. -/
theorem map_oldNumber (lines : List (Source.Line × Nat)) :
    ((lines.map Prod.fst).zipIdx 1).map (Prod.map id (oldNumber lines)) = lines := by
  refine List.ext_getElem? fun index => ?_
  rw [List.getElem?_map, List.getElem?_zipIdx, List.getElem?_map]
  cases found : lines[index]? with
  | none => rfl
  | some entry =>
    have number : oldNumber lines (1 + index) = entry.2 := by
      rw [oldNumber, Nat.add_sub_cancel_left, List.getElem?_map, found]
      rfl
    show some (entry.1, oldNumber lines (1 + index)) = some entry
    rw [number]

/-- Lines that are moved are the lines of some text. -/
theorem exists_source_of_lines {source : List Char} {lines : List Source.Line}
    (ofSource : ∀ line ∈ lines, line ∈ (start source).lines) :
    ∃ source', (start source').lines = lines := by
  induction lines with
  | nil => exact ⟨[], rfl⟩
  | cons line rest ih =>
    rw [List.forall_mem_cons] at ofSource
    obtain ⟨text, isRest⟩ := ih ofSource.2
    obtain ⟨raw, mem, rfl⟩ := List.mem_map.1 ofSource.1
    refine ⟨raw ++ '\n' :: text, ?_⟩
    show (Text.splitLines _).map Source.Line.parse = _
    rw [Text.splitLines_append_break (Text.noBreak_of_mem_splitLines mem) rfl
      fun isReturn => absurd isReturn (by decide), List.map_cons, ← isRest]
    rfl

section Arranged

variable {limit : DigitLimit} {source source' : List Char}
  {blocks arranged : List (List (Source.Line × Nat))}

theorem lines_of_numberedLines {lines : List (Source.Line × Nat)}
    (cut : numberedLines source = lines) : (start source).lines = lines.map Prod.fst := by
  rw [← cut]
  exact (List.zipIdx_map_fst 1 _).symm

variable (cut : numberedLines source = blocks.flatten)
  (anchored : ∀ block ∈ blocks, Anchored limit block) (moved : arranged.Perm blocks)
  (lines : (start source').lines = arranged.flatten.map Prod.fst)

include anchored moved in
theorem anchored_of_perm : ∀ block ∈ arranged, Anchored limit block :=
  fun block isBlock => anchored block (moved.mem_iff.1 isBlock)

include cut anchored moved lines

/-- **Both sources write the same cells**, if the lines keep their old numbers. -/
theorem cells_of_arranged :
    ((record limit (numberedLines source') 0).map (renumber (oldNumber arranged.flatten))).Perm
      (record limit (numberedLines source) 0) := by
  have recorded : (record limit (numberedLines source') 0).map
      (renumber (oldNumber arranged.flatten)) =
        arranged.flatMap fun block => record limit block 0 := by
    rw [← record_map, ← record_sections (anchored_of_perm anchored moved) 0]
    show record limit (((start source').lines.zipIdx 1).map _) 0 = _
    rw [lines, map_oldNumber]
  rw [recorded, cut, record_sections anchored]
  exact moved.flatMap_right _

/-- Both sources define the same labels, at the same addresses. -/
theorem symbols_of_arranged :
    (definitions limit (start source').lines 0).Perm (definitions limit (start source).lines 0) := by
  rw [lines, lines_of_numberedLines cut, definitions_sections (anchored_of_perm anchored moved),
    definitions_sections anchored]
  exact moved.flatMap_right _

/-- **If the one source assembles, so does the other.** -/
theorem assembles_of_arranged (assembles : Assembles limit source) : Assembles limit source' := by
  have labels : (definedLabels source').Perm (definedLabels source) := by
    rw [definedLabels, definedLabels, lines, lines_of_numberedLines cut]
    exact (moved.flatten.map Prod.fst).filterMap _
  have cells := cells_of_arranged cut anchored moved lines
  obtain ⟨fitting, distinct, known⟩ := assembles
  refine ⟨?_, labels.nodup_iff.2 distinct, fun emission mem label isCell => ?_⟩
  · rw [lines, fitting_sections (anchored_of_perm anchored moved)]
    rw [lines_of_numberedLines cut, fitting_sections anchored] at fitting
    exact fun block isBlock => fitting block (moved.mem_iff.1 isBlock)
  · have old := cells.mem_iff.1 (List.mem_map_of_mem mem)
    exact labels.mem_iff.2 (known _ old label isCell)

end Arranged

/-- **The order of sections does not matter.** Take a source that assembles and that is cut into
sections of which no two write at the same address. The sections can be put in any order, and every text
that has them in that order assembles to the same code and the same symbols. Every byte belongs to the
line that it belonged to before, by its old number. -/
theorem assembleText_arranged {limit : DigitLimit} {source : List Char}
    {blocks arranged : List (List (Source.Line × Nat))} {program : Program}
    (cut : numberedLines source = blocks.flatten) (sections : ∀ block ∈ blocks, IsSection block)
    (apart : blocks.Pairwise fun first second =>
      ∀ address, EmitsAt limit source first address → ¬EmitsAt limit source second address)
    (assembled : assembleText limit source = .ok program) (moved : arranged.Perm blocks) :
    (∃ source', (start source').lines = arranged.flatten.map Prod.fst) ∧
      ∀ source', (start source').lines = arranged.flatten.map Prod.fst →
        ∃ program', assembleText limit source' = .ok program' ∧ program'.code = program.code ∧
          (program'.symbols.Perm program.symbols ∧
            ∀ name, program'.symbols.lookup name = program.symbols.lookup name) ∧
          program'.lines.map (Prod.map id (oldNumber arranged.flatten)) = program.lines := by
  -- the lines of the other source are lines of this one, so they are sound as well
  have sourceLines := lines_of_numberedLines cut
  have oldLines : ∀ line ∈ arranged.flatten.map Prod.fst, line ∈ (start source).lines := by
    rw [sourceLines]
    exact fun line mem => (moved.flatten.map Prod.fst).mem_iff.1 mem
  refine ⟨exists_source_of_lines oldLines, fun source' lines => ?_⟩
  obtain ⟨final, ok, rfl⟩ := assembleText_ok_iff.1 assembled
  have assembles := exists_ofSource_iff.1 ⟨final, ok⟩
  -- every block begins with an `ORG`, so its cells do not depend on what stands before it
  have anchored : ∀ block ∈ blocks, Anchored limit block := by
    intro block isBlock
    refine anchored_of_isSection (sections block isBlock) fun entry mem => ?_
    refine sound_of_fitting assembles.fitting entry.1 ?_
    rw [sourceLines]
    exact List.mem_map_of_mem (List.mem_flatten.2 ⟨block, isBlock, mem⟩)
  obtain ⟨final', ok'⟩ :=
    exists_ofSource_iff.2 (assembles_of_arranged cut anchored moved lines assembles)
  -- both sources run through their first pass, and only those two layouts are compared
  obtain ⟨laid, run, -, rfl⟩ := ofSource_ok_iff.1 ok
  obtain ⟨laid', run', -, rfl⟩ := ofSource_ok_iff.1 ok'
  have symbols : laid'.symbols.Perm laid.symbols := by
    rw [definitions_of_run run, definitions_of_run run']
    exact symbols_of_arranged cut anchored moved lines
  have lookups := lookup_of_perm symbols (distinct_of_run run ⟨List.nodup_nil, nofun⟩).names
  -- the cells are the same up to their order and their line numbers, which the map accounts for
  have renumbered : Renumbered (oldNumber arranged.flatten) laid' laid :=
    { cells := by
        rw [record_of_source_run run, record_of_source_run run', List.map_reverse]
        have cells := cells_of_arranged cut anchored moved lines
        exact (List.reverse_perm _).trans (cells.trans (List.reverse_perm _).symm)
      symbols := lookups
      once := emitsOnce_of_sections cut anchored apart run
      unpatched := ⟨patches_of_added run' rfl, patches_of_added run rfl⟩ }
  exact ⟨_, assembleText_ok_iff.2 ⟨_, ok', rfl⟩, renumbered.code, ⟨symbols, lookups⟩,
    renumbered.lines⟩

/-- Two sections with a gap between them that refer to each other. -/
theorem assembleText_arranged_across_gap :
    ∃ source source' high low program program', numberedLines source = [high, low].flatten ∧
      (∀ block ∈ [high, low], IsSection block) ∧
      (start source').lines = [low, high].flatten.map Prod.fst ∧
      assembleText (some digitLimit) source = .ok program ∧
      program.lines = [(2, 4), (3, 4), (8, 2)] ∧
      assembleText (some digitLimit) source' = .ok program' ∧
      program'.code = program.code ∧
      program'.lines.map (Prod.map id (oldNumber [low, high].flatten)) = program.lines := by
  let source := "ORG 8\nfar: DB near\nORG 2\nnear: DB far, 7".toList
  let source' := "ORG 2\nnear: DB far, 7\nORG 8\nfar: DB near".toList
  let far := "far".toList
  let near := "near".toList
  let high : List (Source.Line × Nat) :=
    [(⟨"ORG 8".toList, none, some ⟨"ORG".toList, ["8".toList]⟩⟩, 1),
      (⟨"far: DB near".toList, some far, some ⟨"DB".toList, [near]⟩⟩, 2)]
  let low : List (Source.Line × Nat) :=
    [(⟨"ORG 2".toList, none, some ⟨"ORG".toList, ["2".toList]⟩⟩, 3),
      (⟨"near: DB far, 7".toList, some near, some ⟨"DB".toList, [far, "7".toList]⟩⟩, 4)]
  let program : Program :=
    { code := [0, 0, 8, 7, 0, 0, 0, 0, 2]
      lines := [(2, 4), (3, 4), (8, 2)]
      symbols := [(far, 8), (near, 2)] }
  let laid : Layout :=
    { start source with
      cursor := 4
      symbols := [(far, 8), (near, 2)]
      emitted := [⟨3, .byte 7, 4⟩, ⟨2, .reference far, 4⟩, ⟨8, .reference near, 2⟩]
      segments := [⟨4, 2, 4⟩, ⟨2, 8, 9⟩] }
  have cut : numberedLines source = [high, low].flatten := by decide +kernel
  have sections : ∀ block ∈ [high, low], IsSection block := by
    rw [List.forall_mem_cons, List.forall_mem_singleton]
    exact ⟨⟨⟨_, rfl, rfl, _, rfl, rfl⟩, by simp [high, Source.Line.NoOrigin]⟩,
      ⟨⟨_, rfl, rfl, _, rfl, rfl⟩, by simp [low, Source.Line.NoOrigin]⟩⟩
  have run : AddedLines (some digitLimit) 1 (start source).lines (start source) laid :=
    addLines_ok_iff.1 (by decide +kernel)
  -- the first section writes at 8 only, the second one below
  have apart : [high, low].Pairwise fun first second => ∀ address,
      EmitsAt (some digitLimit) source first address →
        ¬EmitsAt (some digitLimit) source second address := by
    refine .cons (List.forall_mem_singleton.2 ?_) (List.pairwise_singleton _ _)
    rintro address ⟨entry, isEntry, cell, writes⟩ ⟨entry', isEntry', cell', writes'⟩
    have mem : (⟨address, cell, entry.2⟩ : Emission) ∈ laid.emitted := (mem_emitted_iff run).2 writes
    have mem' : (⟨address, cell', entry'.2⟩ : Emission) ∈ laid.emitted :=
      (mem_emitted_iff run).2 writes'
    simp only [laid, List.mem_cons, Emission.mk.injEq, List.not_mem_nil, or_false] at mem mem'
    have inHigh : entry.2 ≤ 2 := by
      simp only [high, List.mem_cons, List.not_mem_nil, or_false] at isEntry
      rcases isEntry with rfl | rfl <;> decide
    have inLow : 3 ≤ entry'.2 := by
      simp only [low, List.mem_cons, List.not_mem_nil, or_false] at isEntry'
      rcases isEntry' with rfl | rfl <;> decide
    omega
  have assembled : assembleText (some digitLimit) source = .ok program := by decide +kernel
  have moved : [low, high].Perm [high, low] := .swap _ _ _
  have lines : (start source').lines = [low, high].flatten.map Prod.fst := by decide +kernel
  obtain ⟨program', isProgram, code, -, sameLines⟩ :=
    (assembleText_arranged cut sections apart assembled moved).2 source' lines
  exact ⟨source, source', high, low, program, program', cut, sections, lines, assembled, rfl,
    isProgram, code, sameLines⟩

end EightBit
