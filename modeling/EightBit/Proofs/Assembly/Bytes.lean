import EightBit.Proofs.Assembly.Layout

/-!
# Sources that Only Write Bytes

A source without labels and `ORG` writes the bytes of its lines one after the other from address 0
on. It stops at the first line that is rejected, or where the bytes no longer fit.

## Main Definitions

- `Layout.Written`: the layout holds the given code and nothing else.
- `Contributes`: what a line adds to the code.

## Main Statements

- `addLines_bytes`: what working off such lines comes to.
- `code_of_written`: the program of a layout that holds some code.
-/

namespace EightBit

open Layout

/-! ## Layouts that hold code -/

/-- The layout holds the given code from address 0 on, and nothing else. -/
structure Layout.Written (code : List UInt8) (layout : Layout) : Prop where
  cursor : layout.cursor = code.length
  cells : ∀ address, (layout.emission? address).map Emission.cell = code[address]?.map Cell.byte
  bytes : ∀ emission ∈ layout.emitted, ∃ byte, emission.cell = .byte byte
  patches : layout.patches = []

/-- The addresses below the extent are those of the code. -/
theorem extent_of_written {code : List UInt8} {layout : Layout} (written : Written code layout) :
    layout.extent = code.length := by
  -- two bounds with the same numbers below them are equal
  have below : ∀ address, address < layout.extent ↔ address < code.length := by
    intro address
    rw [lt_extent_iff]
    constructor
    · rintro ⟨emission, mem, le⟩
      have cell := written.cells emission.address
      obtain ⟨found, isFound⟩ := Option.isSome_iff_exists.1 (isSome_emission?_of_mem mem)
      rw [isFound] at cell
      have inCode : emission.address < code.length := by
        by_contra outside
        rw [List.getElem?_eq_none (by omega)] at cell
        cases cell
      omega
    · intro inCode
      have cell := written.cells address
      rw [List.getElem?_eq_getElem inCode] at cell
      obtain ⟨emission, found, -⟩ := Option.map_eq_some_iff.1 cell
      obtain ⟨mem, same⟩ := mem_of_emission? found
      exact ⟨emission, mem, by omega⟩
  have := below layout.extent
  have := below code.length
  omega

/-- **The program of a layout that holds some code** is that code. -/
theorem code_of_written {code : List UInt8} {layout : Layout} (written : Written code layout) :
    (Program.ofLayout layout).code = code := by
  refine List.ext_getElem? fun address => ?_
  show ((List.range layout.extent).map layout.byteAt)[address]? = code[address]?
  rw [List.getElem?_map, extent_of_written written]
  have cell := written.cells address
  by_cases inCode : address < code.length
  · rw [List.getElem?_eq_getElem inCode] at cell
    obtain ⟨emission, found, isByte⟩ := Option.map_eq_some_iff.1 cell
    -- nothing is patched, so the byte that was written is the one of the program
    have byte : layout.byteAt address = code[address] := by
      rw [byteAt, written.patches, found]
      show placeholder emission.cell = _
      rw [isByte]
      rfl
    rw [List.getElem?_eq_getElem (by rwa [List.length_range]), List.getElem_range,
      List.getElem?_eq_getElem inCode, ← byte]
    rfl
  · rw [List.getElem?_eq_none (by rw [List.length_range]; omega), List.getElem?_eq_none (by omega)]
    rfl

/-- Bytes that are written go behind the code. -/
theorem Layout.Written.write {code : List UInt8} {layout : Layout} (written : Written code layout)
    (number : Nat) (bytes : List UInt8) :
    Written (code ++ bytes) (layout.write number (bytes.map Cell.byte)) where
  cursor := by
    show layout.cursor + (bytes.map Cell.byte).length = _
    rw [written.cursor, List.length_map, List.length_append]
  cells address := by
    rw [emission?_write, Option.map_or, written.cells, Option.map_map]
    have same : ∀ found : Option Cell,
        found.map (Emission.cell ∘ fun cell => ⟨address, cell, number⟩) = found := by
      intro found
      cases found <;> rfl
    rw [same, cellAt, written.cursor]
    -- the new cells start where the code ends
    split
    · next behind =>
      rw [List.getElem?_append_right behind, List.getElem?_eq_none behind, List.getElem?_map]
      cases bytes[address - code.length]? <;> rfl
    · next inside => rw [List.getElem?_append_left (by omega), Option.none_or]
  bytes := by
    intro emission mem
    have placedBytes : ∀ (bytes : List UInt8) (start : Nat),
        ∀ emission ∈ placed number start (bytes.map Cell.byte), ∃ byte, emission.cell = .byte byte := by
      intro bytes
      induction bytes with
      | nil =>
        intro start emission mem
        cases mem
      | cons byte bytes ih =>
        intro start emission mem
        rcases List.mem_cons.1 mem with rfl | later
        · exact ⟨byte, rfl⟩
        · exact ih (start + 1) emission later
    rcases List.mem_append.1 mem with new | old
    · exact placedBytes bytes layout.cursor emission (List.mem_reverse.1 new)
    · exact written.bytes emission old
  patches := written.patches

/-! ## Lines that contribute bytes -/

/-- What a line without label adds to the code: bytes, or nothing because it is rejected. -/
def Contributes (limit : DigitLimit) (line : Source.Line) (outcome : Option (List UInt8)) : Prop :=
  line.label = none ∧ ∃ statement, line.statement = some statement ∧
    match outcome with
    | some bytes => Effect.ofStatement limit statement = .emit (bytes.map .byte) none
    | none => ∃ problem, Effect.ofStatement limit statement = .fail (.wrong problem)

theorem addLine_eq_perform {limit : DigitLimit} {number : Nat} {line : Source.Line}
    {layout : Layout} {statement : Source.Statement} (noLabel : line.label = none)
    (isStatement : line.statement = some statement) :
    addLine limit number line layout =
      perform number (Effect.ofStatement limit statement) layout := by
  rw [addLine, noLabel, isStatement]
  rfl

/-- A statement that emits bytes. -/
theorem addLine_bytes {limit : DigitLimit} {line : Source.Line} {bytes : List UInt8}
    (contributes : Contributes limit line (some bytes)) (number : Nat) (layout : Layout) :
    addLine limit number line layout =
      perform number (.emit (bytes.map Cell.byte) none) layout := by
  obtain ⟨noLabel, statement, isStatement, effect⟩ := contributes
  rw [addLine_eq_perform noLabel isStatement, effect]

/-- Bytes fit if the code they make longer does. -/
theorem fits_of_written {code bytes : List UInt8} {layout : Layout} (written : Written code layout)
    (room : (code ++ bytes).length ≤ programLimit) : layout.Fits (bytes.map Cell.byte) := by
  right
  rw [List.length_map, written.cursor, ← List.length_append]
  exact room

/-- A line of bytes that fit makes the code longer. -/
theorem Layout.Written.addLine {code bytes : List UInt8} {layout : Layout}
    (written : Written code layout) {limit : DigitLimit} {line : Source.Line}
    (contributes : Contributes limit line (some bytes)) (number : Nat)
    (room : (code ++ bytes).length ≤ programLimit) :
    ∃ after, Layout.addLine limit number line layout = .ok after ∧ Written (code ++ bytes) after := by
  have fits := fits_of_written written room
  have longer := written.write number bytes
  refine ⟨layout.writeSegment number (bytes.map Cell.byte), ?_, ?_⟩
  · rw [addLine_bytes contributes]
    exact perform_ok_iff.2 (.inr ⟨_, rfl, fits, rfl⟩)
  · exact ⟨longer.cursor, longer.cells, longer.bytes, longer.patches⟩

/-- **Lines of bytes are accepted** if the bytes are not too many, and the code grows by them. -/
theorem addLines_accepted {limit : DigitLimit} {lines : List Source.Line}
    {chunks : List (List UInt8)}
    (contribute : List.Forall₂ (Contributes limit) lines (chunks.map some)) (number : Nat)
    {code : List UInt8} {layout : Layout} (written : Written code layout)
    (room : (code ++ chunks.flatten).length ≤ programLimit) :
    ∃ after, addLines limit number lines layout = .ok after ∧
      Written (code ++ chunks.flatten) after := by
  induction chunks generalizing lines number code layout with
  | nil =>
    cases contribute
    exact ⟨layout, rfl, by simpa using written⟩
  | cons bytes chunks ih =>
    cases contribute with
    | @cons line _ lines _ first rest =>
      have again : code ++ (bytes :: chunks).flatten = code ++ bytes ++ chunks.flatten := by simp
      rw [again] at room ⊢
      -- what is written so far is no longer than all of it
      have roomHere : (code ++ bytes).length ≤ programLimit := by
        rw [List.length_append] at room
        omega
      obtain ⟨middle, step, longer⟩ := written.addLine first number roomHere
      obtain ⟨after, ok, isWritten⟩ := ih rest (number + 1) longer room
      refine ⟨after, ?_, isWritten⟩
      rw [addLines, step]
      exact ok

/-- **Lines are rejected** if one of them is, or if their bytes are too many. -/
theorem addLines_rejected {limit : DigitLimit} {lines : List Source.Line}
    {outcomes : List (Option (List UInt8))}
    (contribute : List.Forall₂ (Contributes limit) lines outcomes) (number : Nat)
    {code : List UInt8} {layout : Layout} (written : Written code layout)
    (room : code.length ≤ programLimit)
    (reason : none ∈ outcomes ∨ programLimit < (code ++ (outcomes.filterMap id).flatten).length) :
    ∃ problem line after,
      addLines limit number lines layout = .error ⟨.wrong problem, line, after⟩ := by
  -- line by line, with the code so far: whichever reason comes first is reported
  induction contribute generalizing number code layout with
  | nil =>
    exfalso
    rcases reason with mem | long
    · cases mem
    · rw [List.filterMap_nil, List.flatten_nil, List.append_nil] at long
      omega
  | @cons line outcome lines outcomes first _ ih =>
    cases outcome with
    | none =>
      obtain ⟨noLabel, statement, isStatement, problem, fails⟩ := first
      refine ⟨problem, number, layout, ?_⟩
      rw [addLines, addLine_eq_perform noLabel isStatement, fails]
      rfl
    | some bytes =>
      by_cases more : (code ++ bytes).length ≤ programLimit
      · obtain ⟨middle, step, longer⟩ := written.addLine first number more
        have later : none ∈ outcomes ∨
            programLimit < (code ++ bytes ++ (outcomes.filterMap id).flatten).length := by
          refine reason.imp (fun mem => ?_) fun long => ?_
          · simpa using mem
          · simpa using long
        obtain ⟨problem, place, after, error⟩ := ih (number + 1) longer more later
        refine ⟨problem, place, after, ?_⟩
        rw [addLines, step]
        exact error
      -- the bytes of this line are the ones that do not fit
      · have long : ¬layout.Fits (bytes.map Cell.byte) := by
          rintro (none | fits)
          · rw [List.map_eq_nil_iff] at none
            rw [none, List.append_nil] at more
            exact more room
          · rw [List.length_map, written.cursor, ← List.length_append] at fits
            exact more fits
        obtain ⟨address, after, error⟩ := emit_of_not_fits number long
        refine ⟨.codeTooHigh address, number, after, ?_⟩
        rw [addLines, addLine_bytes first, perform, error]
        rfl

/-! ## Whole sources -/

theorem written_start (source : List Char) : Written [] (start source) where
  cursor := rfl
  cells _ := rfl
  bytes := nofun
  patches := rfl

/-- Code without labels has no reference to patch. -/
theorem references_of_written {code : List UInt8} {layout : Layout}
    (written : Written code layout) : layout.references = [] := by
  rw [references, List.filterMap_eq_nil_iff]
  intro emission mem
  obtain ⟨byte, isByte⟩ := written.bytes emission (List.mem_reverse.1 mem)
  rw [isByte]

/-- **A source of bytes assembles to these bytes**, if they are not too many. -/
theorem assembleText_accepted {limit : DigitLimit} {source : List Char}
    {chunks : List (List UInt8)}
    (contribute : List.Forall₂ (Contributes limit) ((Text.splitLines source).map Source.Line.parse)
      (chunks.map some)) (room : chunks.flatten.length ≤ programLimit) :
    ∃ program, assembleText limit source = .ok program ∧ program.code = chunks.flatten := by
  obtain ⟨laid, ok, written⟩ := addLines_accepted contribute 1
    (written_start source) (by simpa using room)
  have both : ofSource limit source = .ok laid := by
    rw [ofSource]
    show addLines limit 1 ((Text.splitLines source).map Source.Line.parse) (start source) >>= _ = _
    rw [ok]
    show patch laid.references laid = _
    rw [references_of_written written]
    rfl
  refine ⟨Program.ofLayout laid, ?_, code_of_written written⟩
  rw [assembleText, both]

/-- **A source of bytes is rejected** if one of its lines is, or if the bytes are too many. -/
theorem assembleText_rejected {limit : DigitLimit} {source : List Char}
    {outcomes : List (Option (List UInt8))}
    (contribute : List.Forall₂ (Contributes limit) ((Text.splitLines source).map Source.Line.parse)
      outcomes)
    (reason : none ∈ outcomes ∨ programLimit < (outcomes.filterMap id).flatten.length) :
    ∃ error, assembleText limit source = .error (.wrong error) := by
  obtain ⟨problem, line, after, error⟩ := addLines_rejected contribute 1
    (written_start source) (Nat.zero_le _) reason
  have stopped : ofSource limit source = .error ⟨.wrong problem, line, after⟩ := by
    rw [ofSource]
    show addLines limit 1 ((Text.splitLines source).map Source.Line.parse) (start source) >>= _ = _
    rw [error]
    rfl
  rw [assembleText, stopped]
  exact ⟨_, rfl⟩

end EightBit
