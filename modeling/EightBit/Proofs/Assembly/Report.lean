import EightBit.Proofs.Assembly.Layout
import EightBit.Proofs.Assembly.Statement
import EightBit.Proofs.Operand.Forms

/-!
# What an Assembly Reports

Every source is assembled or has a problem in one of its lines, and without a digit limit there is
no third outcome. Nothing that the passes look up is missing, and nothing that they store is out of
range, at whichever line or patch the source is left.

The argument goes along the steps of the passes. Each step keeps the layout within bounds; if it
stops, it stops with a problem and with the number of a line.

## Main Definitions

- `Layout.Bounded`: what the record refers to exists, and what it holds fits.
- `Layout.Passes`: the layouts that the assembly of a source comes to.
- `AssemblyError.Names`: the error names a line of the source, by number and by text.

## Main Statements

- `addLines_sound`, `patch_sound`: what the two passes keep, and how they stop.
- `assembleText_total`: the outcomes of an assembly.
-/

namespace EightBit

open Text

/-! ## What the record refers to -/

namespace Layout

/-- What the record refers to exists, and what it holds fits: addresses and labels are bytes, cells
and patches lie below the display region, and every cell belongs to a line of the source. -/
structure Bounded (source : List Char) (layout : Layout) : Prop extends InMemory layout where
  lines : layout.lines = (start source).lines
  stored : ∀ emission ∈ layout.emitted, emission.address < programLimit
  numbered : ∀ emission ∈ layout.emitted,
    1 ≤ emission.line ∧ emission.line ≤ (splitLines source).length
  patched : ∀ patch ∈ layout.patches, patch.1 < programLimit

end Layout

/-- The interruption has a problem unless digits are limited, the number of a line of the source, and
a layout within bounds. -/
structure Interruption.Located (limit : DigitLimit) (source : List Char)
    (stopped : Interruption) : Prop where
  cause : ∀ excess, stopped.cause = .excess excess → limit ≠ none
  positive : 1 ≤ stopped.line
  isLine : stopped.line ≤ (splitLines source).length
  layout : stopped.layout.Bounded source

namespace Layout

section Steps

variable {limit : DigitLimit} {source : List Char} {number : Nat} {layout : Layout}

/-- Whatever comes of a step: a layout within bounds, or an interruption at a line. -/
def Sound (limit : DigitLimit) (source : List Char) : Except Interruption Layout → Prop
  | .ok layout => layout.Bounded source
  | .error stopped => stopped.Located limit source

theorem Sound.bind {first : Except Interruption Layout}
    {next : Layout → Except Interruption Layout} (isFirst : Sound limit source first)
    (isNext : ∀ layout, layout.Bounded source → Sound limit source (next layout)) :
    Sound limit source (first >>= next) := by
  cases first with
  | error stopped => exact isFirst
  | ok layout => exact isNext layout isFirst

/-- A problem of a line. -/
theorem Sound.wrong (positive : 1 ≤ number) (isLine : number ≤ (splitLines source).length)
    (bounded : layout.Bounded source) (problem : Problem) :
    Sound limit source (.error ⟨.wrong problem, number, layout⟩) :=
  ⟨nofun, positive, isLine, bounded⟩

/-! ## The first pass -/

section Line

variable (positive : 1 ≤ number) (isLine : number ≤ (splitLines source).length)
include positive isLine

theorem define_sound (name : List Char) (bounded : layout.Bounded source) :
    Sound limit source (define number name layout) := by
  unfold define
  split
  · exact .wrong positive isLine bounded _
  · split
    · exact .wrong positive isLine bounded _
    · refine { bounded with symbols := fun entry mem => ?_ }
      rcases List.mem_append.1 mem with old | new
      · exact bounded.symbols entry old
      · rw [List.mem_singleton.1 new]
        exact bounded.cursor

theorem emit_sound (cells : List Cell) (bounded : layout.Bounded source) :
    Sound limit source (emit number cells layout) := by
  induction cells generalizing layout with
  | nil => exact bounded
  | cons cell cells ih =>
    rw [emit]
    split
    · next room =>
      -- there is room for this cell, so the cursor behind it is in memory
      have limits : programLimit = 192 := by decide
      refine ih { bounded with cursor := ?_, stored := ?_, numbered := ?_ }
      · show layout.cursor + 1 ≤ 255
        omega
      · exact List.forall_mem_cons.2 ⟨room, bounded.stored⟩
      · exact List.forall_mem_cons.2 ⟨⟨positive, isLine⟩, bounded.numbered⟩
    · exact .wrong positive isLine bounded _

theorem perform_sound (statement : Source.Statement) (bounded : layout.Bounded source) :
    Sound limit source (perform number (Effect.ofStatement limit statement) layout) := by
  cases effect : Effect.ofStatement limit statement with
  | moveTo address => exact { bounded with cursor := moveTo_le effect }
  | emit cells failure =>
    refine .bind (emit_sound positive isLine cells bounded) fun after written => ?_
    cases failure with
    | some cause =>
      refine ⟨fun excess same => ?_, positive, isLine, written⟩
      have same : cause = .excess excess := same
      rw [same] at effect
      exact Effect.ofText_of_ofStatement effect
    | none => exact { written with }

/-- **A line keeps the layout within bounds**, or stops with its own number. -/
theorem addLine_sound (line : Source.Line) (bounded : layout.Bounded source) :
    Sound limit source (addLine limit number line layout) := by
  -- a label is defined in front of the statement, so the statement meets what that has left
  unfold addLine
  cases line.statement with
  | none =>
    cases line.label with
    | none => exact bounded
    | some name => exact .bind (define_sound positive isLine name bounded) fun _ kept => kept
  | some statement =>
    cases line.label with
    | none => exact perform_sound positive isLine statement bounded
    | some name =>
      refine .bind (define_sound positive isLine name bounded) fun labelled kept => ?_
      exact perform_sound positive isLine statement kept

end Line

/-- **The first pass keeps the layout within bounds**, or stops at one of its lines. -/
theorem addLines_sound {lines : List Source.Line} (positive : 1 ≤ number)
    (within : number + lines.length ≤ (splitLines source).length + 1)
    (bounded : layout.Bounded source) :
    Sound limit source (addLines limit number lines layout) := by
  induction lines generalizing number layout with
  | nil => exact bounded
  | cons line rest ih =>
    rw [List.length_cons] at within
    refine .bind (addLine_sound positive (by omega) line bounded) fun middle isMiddle => ?_
    exact ih (by omega) (by omega) isMiddle

/-! ## The second pass -/

/-- **Every reference has a line that wrote it.** -/
theorem Bounded.exists_owner (bounded : layout.Bounded source) {reference : Nat × List Char}
    (mem : reference ∈ layout.references) :
    ∃ number, layout.owner? reference.1 = some number ∧ 1 ≤ number ∧
      number ≤ (splitLines source).length := by
  obtain ⟨emission, written, here, -⟩ := mem_references_iff.1 mem
  obtain ⟨newest, found⟩ := Option.isSome_iff_exists.1 (isSome_emission?_of_mem written)
  rw [here] at found
  refine ⟨newest.line, by rw [owner?, found]; rfl, ?_⟩
  exact bounded.numbered newest (mem_of_emission? found).1

/-- **The second pass keeps the layout within bounds**, or stops at the line that owns the byte. -/
theorem patch_sound {references : List (Nat × List Char)}
    (known : ∀ reference ∈ references, reference ∈ layout.references)
    (bounded : layout.Bounded source) : Sound limit source (patch references layout) := by
  induction references generalizing layout with
  | nil => exact bounded
  | cons reference rest ih =>
    obtain ⟨address, label⟩ := reference
    rw [List.forall_mem_cons] at known
    rw [patch]
    split
    · next target _ =>
      obtain ⟨emission, written, here, -⟩ := mem_references_iff.1 known.1
      -- a patch adds no cell, so what is still to be patched is on record
      refine ih known.2 { bounded with patched := List.forall_mem_cons.2 ⟨?_, bounded.patched⟩ }
      show address < programLimit
      rw [← here]
      exact bounded.stored emission written
    · obtain ⟨owner, isOwner, positive, isLine⟩ := bounded.exists_owner known.1
      have owner : (layout.owner? address).getD 0 = owner := by rw [isOwner]; rfl
      rw [owner]
      exact .wrong positive isLine bounded _

end Steps

/-! ## Both passes -/

/-- The layout that a pass leaves, whether or not it stopped. -/
def left : Except Interruption Layout → Layout
  | .ok layout => layout
  | .error stopped => stopped.layout

/-- The assembly of the source comes to the layout: some lines have been worked off, or all of them
and then some of the references. -/
def Passes (limit : DigitLimit) (source : List Char) (layout : Layout) : Prop :=
  (∃ front back, (start source).lines = front ++ back ∧
      layout = left (addLines limit 1 front (start source))) ∨
    ∃ laid front back, addLines limit 1 (start source).lines (start source) = .ok laid ∧
      laid.references = front ++ back ∧ layout = left (patch front laid)

theorem Sound.left {limit : DigitLimit} {source : List Char} {result : Except Interruption Layout}
    (sound : Sound limit source result) : (left result).Bounded source := by
  cases result with
  | ok layout => exact sound
  | error stopped => exact Interruption.Located.layout sound

theorem bounded_start (source : List Char) : (start source).Bounded source where
  cursor := Nat.zero_le _
  symbols := nofun
  lines := rfl
  stored := nofun
  numbered := nofun
  patched := nofun

/-- Any lines that a source starts with are worked off soundly. -/
theorem front_sound {limit : DigitLimit} {source : List Char} {front back : List Source.Line}
    (split : (start source).lines = front ++ back) :
    Sound limit source (addLines limit 1 front (start source)) := by
  have count := congrArg List.length split
  simp only [start, List.length_map, List.length_append] at count
  exact addLines_sound (Nat.le_refl 1) (by omega) (bounded_start source)

/-- **Wherever the assembly of a source is, the layout is within bounds.** -/
theorem Passes.bounded {limit : DigitLimit} {source : List Char} {layout : Layout}
    (passes : Passes limit source layout) : layout.Bounded source := by
  -- either nothing is patched yet, or some references of a layout that was laid out in full are
  rcases passes with ⟨front, back, split, rfl⟩ | ⟨laid, front, back, ok, split, rfl⟩
  · exact (front_sound split).left
  · have isLaid : Sound limit source (.ok laid) := ok ▸ front_sound (List.append_nil _).symm
    have patched : Sound limit source (patch front laid) := by
      refine patch_sound (fun reference mem => ?_) isLaid
      rw [split]
      exact List.mem_append_left back mem
    exact patched.left

theorem ofSource_sound (limit : DigitLimit) (source : List Char) :
    Sound limit source (ofSource limit source) :=
  .bind (front_sound (List.append_nil _).symm) fun _ laid => patch_sound (fun _ mem => mem) laid

end Layout

/-! ## Errors -/

/-- The error names a line of the source: it has the number of the line, shows the line without the
blanks at its ends, and its message starts with the number. -/
def AssemblyError.Names (source : List Char) (error : AssemblyError) : Prop :=
  ∃ (number : Nat) (raw : List Char), error.line = number ∧ 1 ≤ number ∧
    number ≤ (splitLines source).length ∧ (splitLines source)[number - 1]? = some raw ∧
    error.text = trim raw ∧
    error.message = "Line " ++ toString number ++ ": " ++ error.problem.message

theorem raw_parse (raw : List Char) : (Source.Line.parse raw).raw = raw := by
  rw [Source.Line.parse]
  cases Source.splitLabel (trim (Source.stripComment raw)) <;> rfl

/-- **What a stopped assembly reports** names a line, unless it is an excess of digits. -/
theorem Interruption.Located.report {limit : DigitLimit} {source : List Char}
    {stopped : Interruption} (located : stopped.Located limit source) :
    (∃ error, stopped.report = .wrong error ∧ error.Names source) ∨
      ∃ excess, stopped.report = .excess excess ∧ limit ≠ none := by
  cases cause : stopped.cause with
  | excess excess =>
    exact .inr ⟨excess, by rw [Interruption.report, cause]; rfl, located.cause excess cause⟩
  | wrong problem =>
    refine .inl ⟨_, by rw [Interruption.report, cause]; rfl, ?_⟩
    -- the line of the report is one of the source, which is all that the rest relies on
    have inRange : stopped.line - 1 < (splitLines source).length := by
      have := located.positive
      have := located.isLine
      omega
    refine ⟨stopped.line, (splitLines source)[stopped.line - 1], rfl, located.positive,
      located.isLine, List.getElem?_eq_getElem inRange, ?_, ?_⟩
    · show (stopped.layout.lines[stopped.line - 1]?).elim [] _ = _
      rw [located.layout.lines]
      show (((splitLines source).map Source.Line.parse)[stopped.line - 1]?).elim [] _ = _
      rw [List.getElem?_map, List.getElem?_eq_getElem inRange]
      exact congrArg trim (raw_parse _)
    -- the number stands in the message because there is no line 0
    · have named : (stopped.line : Int) ≠ 0 := by
        have := located.positive
        omega
      rw [AssemblyError.message, if_neg named, Numeral.decimal_natCast]
      rfl

/-- **An assembly has a program or a problem.** For every source, and for every limit on digits:

- The source is assembled, or its error names a line; an excess of digits needs a limit.
- Wherever the passes are, all that the record refers to exists and all that it holds fits.
- A text that is accepted as a number, as an expression, as a register with an offset or as a
  statement also has the parts that are then taken from it. -/
theorem assembleText_total (limit : DigitLimit) (source : List Char) :
    ((∃ program, assembleText limit source = .ok program) ∨
        (∃ error, assembleText limit source = .error (.wrong error) ∧ error.Names source) ∨
        ∃ excess, assembleText limit source = .error (.excess excess) ∧ limit ≠ none) ∧
      (∀ layout, Layout.Passes limit source layout → layout.Bounded source ∧
        ∀ reference ∈ layout.references, (layout.owner? reference.1).isSome) ∧
      (∀ text, Numeral.Signed (trim text) → (Numeral.parse? text).isSome) ∧
      (∀ text, Expression.Form (trim text) → (Expression.value? text).isSome) ∧
      (∀ text, Operand.OffsetForm text → (Operand.registerOffset? text).isSome) ∧
      ∀ text, Trimmed text → text ≠ [] → (Source.Statement.parse text).isSome := by
  refine ⟨?_, fun layout passes => ⟨passes.bounded, fun reference mem => ?_⟩,
    fun _ => Numeral.isSome_parse?_iff.2, fun _ => Expression.isSome_value?_iff.2, fun _ form => ?_,
    fun _ => Source.isSome_parse_of_ne_nil⟩
  · have sound := Layout.ofSource_sound limit source
    rw [assembleText]
    cases result : Layout.ofSource limit source with
    | ok layout => exact .inl ⟨_, rfl⟩
    | error stopped =>
      rw [result] at sound
      rcases Interruption.Located.report sound with
        ⟨error, isError, names⟩ | ⟨excess, isExcess, limited⟩
      · exact .inr (.inl ⟨error, congrArg Except.error isError, names⟩)
      · exact .inr (.inr ⟨excess, congrArg Except.error isExcess, limited⟩)
  · obtain ⟨number, isOwner, -⟩ := passes.bounded.exists_owner mem
    rw [isOwner]
    rfl
  · exact Option.isSome_iff_exists.2 (Operand.exists_registerOffset?_of_form form)

end EightBit
