import EightBit.Proofs.Source.Line

/-!
# Changing Operands Where They Stand

The operands of a line can be replaced by others while everything around them stays: the label, the
mnemonic, the blanks and the comment. A reader of the changed line finds the same parts, except that
the operands are the new ones.

## Main Definitions

- `onCore`, `mapPieces`: change what stands between blanks, and between commas.
- `editLine`: changes the operands of a line.
- `KeepsOperands`: the changes for which this works.

## Main Statements

- `splitOperands_mapPieces`: the operands of a changed list are the changed operands.
- `parse_editLine`: how a changed line is read.
-/

namespace EightBit.Source

open Text

/-! ## Changing operand lists -/

/-- Applies a function to a text without the blanks at its ends, and keeps these blanks. -/
def onCore (f : List Char → List Char) (text : List Char) : List Char :=
  let rest := trimStart text
  text.takeWhile isBlank ++ f (trim text) ++ rest.drop (trim text).length

/-- Applies a function to every piece of an operand list. -/
def mapPieces (f : List Char → List Char) (text : List Char) : List Char :=
  [','].intercalate ((splitMarked 0 (mark text)).map f)

theorem exists_onCore (f : List Char → List Char) (text : List Char) :
    ∃ lead trail, AllBlank lead ∧ AllBlank trail ∧ text = lead ++ trim text ++ trail ∧
      onCore f text = lead ++ f (trim text) ++ trail := by
  obtain ⟨trail, blankTrail, split⟩ := exists_eq_trimEnd_append (trimStart text)
  have core : trimEnd (trimStart text) = trim text := rfl
  rw [core] at split
  refine ⟨text.takeWhile isBlank, trail, allBlank_takeWhile text, blankTrail, ?_, ?_⟩
  · rw [List.append_assoc, ← split, takeWhile_append_trimStart]
  · have tail : (trimStart text).drop (trim text).length = trail := by
      rw [split]
      exact List.drop_left
    rw [onCore, tail]

theorem mapPieces_of_uncut (f : List Char → List Char) {piece : List Char}
    (uncut : Uncut piece) : mapPieces f piece = f piece := by
  rw [mapPieces, show splitMarked 0 (mark piece) = [piece] from uncut]
  simp

theorem mapPieces_append_comma (f : List Char → List Char) {piece : List Char}
    (isPiece : Piece piece) (rest : List Char) :
    mapPieces f (piece ++ ',' :: rest) = f piece ++ ',' :: mapPieces f rest := by
  rw [mapPieces, splitMarked_append_comma isPiece, mapPieces]
  -- a list of pieces is never empty, so a comma is put in front of the rest
  obtain ⟨next, others, shape⟩ := List.exists_cons_of_ne_nil (splitMarked_ne_nil 0 (mark rest))
  rw [shape]
  simp [List.intercalate]

/-- The function changes trimmed texts only where a loose operand becomes a simple one. -/
def KeepsOperands (f : List Char → List Char) : Prop :=
  ∀ core, Trimmed core → f core = core ∨ Loose core ∧ Simple (f core)

section KeepsOperands

variable {f : List Char → List Char} (keeps : KeepsOperands f)
include keeps

theorem KeepsOperands.nil : f [] = [] := by
  have trimmed : Trimmed [] := ⟨by simp, by simp⟩
  rcases keeps _ trimmed with same | ⟨loose, -⟩
  · exact same
  · exact absurd rfl loose.nonempty

theorem KeepsOperands.trimmed {core : List Char} (trimmed : Trimmed core) : Trimmed (f core) := by
  rcases keeps _ trimmed with same | ⟨-, simple⟩
  · rwa [same]
  · exact simple.trimmed

/-- A piece stays as it is, or it is a loose operand before and after the change. -/
theorem KeepsOperands.onCore_cases (piece : List Char) :
    onCore f piece = piece ∨
      (Piece piece ∧ NoComment piece) ∧ Piece (onCore f piece) ∧ NoComment (onCore f piece) := by
  obtain ⟨lead, trail, blankLead, blankTrail, shape, changed⟩ := exists_onCore f piece
  rcases keeps _ (trimmed_trim piece) with same | ⟨before, after⟩
  · left
    rw [changed, same, ← shape]
  · right
    rw [changed]
    refine ⟨?_, after.piece blankLead blankTrail⟩
    have := before.piece blankLead blankTrail
    rwa [← shape] at this

theorem KeepsOperands.uncut {piece : List Char} (uncut : Uncut piece) : Uncut (onCore f piece) := by
  rcases keeps.onCore_cases piece with same | ⟨-, after, -⟩
  · rwa [same]
  · exact after.uncut

theorem KeepsOperands.piece {piece : List Char} (isPiece : Piece piece) :
    Piece (onCore f piece) := by
  rcases keeps.onCore_cases piece with same | ⟨-, after, -⟩
  · rwa [same]
  · exact after

theorem KeepsOperands.trim_onCore (piece : List Char) : trim (onCore f piece) = f (trim piece) := by
  obtain ⟨lead, trail, blankLead, blankTrail, -, changed⟩ := exists_onCore f piece
  rw [changed, trim_between_blanks blankLead (keeps.trimmed (trimmed_trim piece)) blankTrail]

/-- **The operands of a changed list are the changed operands.** -/
theorem splitOperands_mapPieces (text : List Char) :
    splitOperands (mapPieces (onCore f) text) = (splitOperands text).map f := by
  -- piece by piece: a changed piece is cut off where the old one was
  induction text using pieces_induction with
  | last piece uncut =>
    have after : splitMarked 0 (mark (onCore f piece)) = [onCore f piece] := keeps.uncut uncut
    have before : splitMarked 0 (mark piece) = [piece] := uncut
    rw [mapPieces_of_uncut _ uncut, splitOperands, splitOperands, after, before]
    simp [keeps.trim_onCore]
  | cons piece rest isPiece ih =>
    rw [splitOperands, splitOperands] at ih
    rw [mapPieces_append_comma _ isPiece, splitOperands, splitOperands,
      splitMarked_append_comma (keeps.piece isPiece), splitMarked_append_comma isPiece,
      List.map_cons, ih, List.map_cons, List.map_cons, keeps.trim_onCore]

/-! ### What else stays -/

/-- A piece starts where it did before, and no colon comes to stand there. -/
theorem KeepsOperands.start_onCore (piece : List Char) :
    onCore f piece = piece ∨
      ∃ lead c d more others, AllBlank lead ∧ isBlank c = false ∧ isBlank d = false ∧ d ≠ ':' ∧
        piece = lead ++ c :: more ∧ onCore f piece = lead ++ d :: others := by
  obtain ⟨lead, trail, blankLead, blankTrail, shape, changed⟩ := exists_onCore f piece
  rcases keeps _ (trimmed_trim piece) with same | ⟨before, after⟩
  · left
    rw [changed, same, ← shape]
  -- both operands are nonempty, and they stand behind the same blanks
  · right
    obtain ⟨c, more, old⟩ := List.exists_cons_of_ne_nil before.nonempty
    obtain ⟨d, others, new⟩ := List.exists_cons_of_ne_nil after.nonempty
    refine ⟨lead, c, d, more ++ trail, others ++ trail, blankLead,
      before.trimmed.first c (by rw [old]; rfl), after.trimmed.first d (by rw [new]; rfl), ?_, ?_, ?_⟩
    · rintro rfl
      exact after.noColon others new
    · rw [shape, old]
      simp
    · rw [changed, new]
      simp

/-- A changed list is the same, or it starts where it did before, and a colon stands there only if
one did before. -/
theorem KeepsOperands.start_mapPieces (text : List Char) :
    mapPieces (onCore f) text = text ∨
      ∃ lead c d more others, AllBlank lead ∧ isBlank c = false ∧ isBlank d = false ∧
        (d = ':' → c = ':') ∧ text = lead ++ c :: more ∧
        mapPieces (onCore f) text = lead ++ d :: others := by
  rcases pieces_cases text with uncut | ⟨piece, rest, rfl, isPiece⟩
  · rw [mapPieces_of_uncut _ uncut]
    rcases keeps.start_onCore text with
      same | ⟨lead, c, d, more, others, blank, first, second, noColon, old, new⟩
    · exact .inl same
    · exact .inr ⟨lead, c, d, more, others, blank, first, second,
        fun colon => absurd colon noColon, old, new⟩
  · right
    rw [mapPieces_append_comma _ isPiece]
    rcases keeps.start_onCore piece with
      same | ⟨lead, c, d, more, others, blank, first, second, noColon, old, new⟩
    · rw [same]
      have start := takeWhile_append_trimStart piece
      cases core : trimStart piece with
      -- only blanks in front of the comma: the list starts with it, as before
      | nil =>
        rw [core, List.append_nil] at start
        exact ⟨piece, ',', ',', rest, mapPieces (onCore f) rest,
          start ▸ allBlank_takeWhile piece, by decide, by decide, id, rfl, rfl⟩
      | cons c more =>
        have first := first_trimStart piece c (by rw [core]; rfl)
        rw [core] at start
        refine ⟨piece.takeWhile isBlank, c, c, more ++ ',' :: rest,
          more ++ ',' :: mapPieces (onCore f) rest, allBlank_takeWhile piece, first, first, id, ?_, ?_⟩
        · rw [← List.cons_append, ← List.append_assoc, start]
        · rw [← List.cons_append, ← List.append_assoc, start]
    · refine ⟨lead, c, d, more ++ ',' :: rest, others ++ ',' :: mapPieces (onCore f) rest, blank,
        first, second, fun colon => absurd colon noColon, ?_, ?_⟩
      · rw [old]
        simp
      · rw [new]
        simp

/-- A changed list has no comment if the list has none, and a quote is left open just as before. -/
theorem KeepsOperands.noComment_mapPieces {text : List Char} (noComment : NoComment text) :
    NoComment (mapPieces (onCore f) text) ∧
      endsOpen (mapPieces (onCore f) text) = endsOpen text := by
  induction text using pieces_induction with
  | last piece uncut =>
    rw [mapPieces_of_uncut _ uncut]
    rcases keeps.onCore_cases piece with same | ⟨⟨before, -⟩, after, still⟩
    · rw [same]
      exact ⟨noComment, rfl⟩
    · exact ⟨still, after.closed.trans before.closed.symm⟩
  | cons piece rest isPiece ih =>
    -- a piece is closed, so what is behind its comma is scanned on its own
    have marks := (mark_append_comma isPiece.closed rest).1
    have inPiece : NoComment piece := by
      intro m mem
      refine noComment m ?_
      rw [marks]
      exact List.mem_append_left _ mem
    have inRest : NoComment rest := by
      intro m mem
      refine noComment m ?_
      rw [marks]
      exact List.mem_append_right _ (List.mem_cons_of_mem _ mem)
    obtain ⟨restNoComment, restOpen⟩ := ih inRest
    have changed : NoComment (onCore f piece) := by
      rcases keeps.onCore_cases piece with same | ⟨-, -, still⟩
      · rwa [same]
      · exact still
    have closed := (keeps.piece isPiece).closed
    obtain ⟨newMarks, newOpen⟩ := mark_append_comma closed (mapPieces (onCore f) rest)
    rw [mapPieces_append_comma _ isPiece]
    constructor
    · intro m mem
      rw [newMarks] at mem
      rcases List.mem_append.1 mem with inFront | inBack
      · exact changed m inFront
      · rcases List.mem_cons.1 inBack with rfl | later
        · rfl
        · exact restNoComment m later
    · rw [newOpen, restOpen, (mark_append_comma isPiece.closed rest).2]

theorem KeepsOperands.noBreak_onCore {piece : List Char} (noBreak : NoBreak piece) :
    NoBreak (onCore f piece) := by
  obtain ⟨lead, trail, -, -, shape, changed⟩ := exists_onCore f piece
  rcases keeps _ (trimmed_trim piece) with same | ⟨-, after⟩
  · rwa [changed, same, ← shape]
  · have inPiece : NoBreak (lead ++ trim piece ++ trail) := by rwa [← shape]
    rw [changed]
    -- the blanks are those of the old piece
    intro c mem
    simp only [List.mem_append] at mem
    rcases mem with (inLead | inside) | inTrail
    · exact inPiece c (by simp [inLead])
    · exact after.noBreak c inside
    · exact inPiece c (by simp [inTrail])

/-- A changed list is on one line. -/
theorem KeepsOperands.noBreak_mapPieces {text : List Char} (noBreak : NoBreak text) :
    NoBreak (mapPieces (onCore f) text) := by
  induction text using pieces_induction with
  | last piece uncut =>
    rw [mapPieces_of_uncut _ uncut]
    exact keeps.noBreak_onCore noBreak
  | cons piece rest isPiece ih =>
    have inPiece : NoBreak piece := fun c mem => noBreak c (List.mem_append_left _ mem)
    have inRest : NoBreak rest :=
      fun c mem => noBreak c (List.mem_append_right _ (List.mem_cons_of_mem _ mem))
    rw [mapPieces_append_comma _ isPiece]
    exact (keeps.noBreak_onCore inPiece).append (NoBreak.cons (by decide) (ih inRest))

end KeepsOperands

/-! ## Changing lines -/

/-- No quote stands in front of a mnemonic. -/
theorem noQuote_front {label : Option (List Char)} {front : List Char}
    (isFront : Front label front) : NoQuote front :=
  fun c mem => (isFront.mem c mem).1

/-- Changes the operands of a line that is cut into its stretches. The change may depend on the
mnemonic. -/
def editSite (f : List Char → List Char → List Char) (s : Site) : Site :=
  { s with operands := mapPieces (onCore (f (upper s.word))) s.operands }

/-- Changes the operands of a line. -/
def editLine (f : List Char → List Char → List Char) (raw : List Char) : List Char :=
  (editSite f (site raw)).text

theorem noBreak_operands {raw : List Char} (noBreak : NoBreak raw) :
    NoBreak (site raw).operands := by
  intro c mem
  refine noBreak c ?_
  rw [← (code_site raw).2.1, Site.text, Site.code]
  simp [mem]

section EditLine

variable {f : List Char → List Char → List Char} (keeps : ∀ word, KeepsOperands (f word))
include keeps

theorem mapPieces_nil (word : List Char) : mapPieces (onCore (f word)) [] = [] := by
  have uncut : Uncut [] := rfl
  rw [mapPieces_of_uncut _ uncut]
  show [] ++ f word [] ++ _ = []
  rw [(keeps word).nil]
  rfl

theorem mapPieces_eq_nil_iff {word text : List Char} :
    mapPieces (onCore (f word)) text = [] ↔ text = [] := by
  constructor
  · intro empty
    rcases (keeps word).start_mapPieces text with same | ⟨_, _, _, _, _, _, _, _, _, _, new⟩
    · rw [← same, empty]
    · rw [new] at empty
      simp at empty
  · rintro rfl
    exact mapPieces_nil keeps word

/-- The operands behind a mnemonic, after the change. -/
theorem operandList_mapPieces (word text : List Char) :
    operandList (mapPieces (onCore (f word)) text) = (operandList text).map (f word) := by
  -- an operand list without operands stays one
  have empty : trimStart (mapPieces (onCore (f word)) text) = [] ↔ trimStart text = [] := by
    rcases (keeps word).start_mapPieces text with
      same | ⟨lead, c, d, more, others, blank, first, second, -, old, new⟩
    · rw [same]
    · rw [new, old, trimStart_append blank, trimStart_append blank, trimStart_cons first,
        trimStart_cons second]
      simp
  rw [operandList, operandList]
  by_cases blank : trimStart text = []
  · rw [if_pos (empty.2 blank), if_pos blank]
    rfl
  · rw [if_neg (mt empty.1 blank), if_neg blank, splitOperands_mapPieces (keeps word)]

/-- **A changed site is sound** if the site is. -/
theorem sound_editSite {s : Site} (sound : s.Sound) (noBreak : NoBreak s.operands) :
    (editSite f s).Sound := by
  have noQuote : NoQuote (s.front ++ s.word) :=
    (noQuote_front sound.front).append fun c mem => not_isQuote_of_isLabelChar (sound.word c mem)
  -- up to the operands there is no quote, so the operands are scanned on their own
  have scanned : ∀ operands, mark (s.front ++ (s.word ++ operands)) =
      mark (s.front ++ s.word) ++ mark operands ∧
        endsOpen (s.front ++ (s.word ++ operands)) = endsOpen operands := by
    intro operands
    rw [← List.append_assoc]
    exact noQuote.mark_append operands
  have noComment := sound.noComment
  rw [Site.code, NoComment, (scanned s.operands).1, List.forall_mem_append] at noComment
  obtain ⟨changedNoComment, sameEnd⟩ :=
    (keeps (upper s.word)).noComment_mapPieces noComment.2
  have start := (keeps (upper s.word)).start_mapPieces s.operands
  have changedNoBreak := (keeps (upper s.word)).noBreak_mapPieces noBreak
  exact
    { front := sound.front
      word := sound.word
      begun := by
        intro noWord
        exact (mapPieces_eq_nil_iff keeps).2 (sound.begun noWord)
      gap := by
        have gap := sound.gap
        show ∀ c ∈ (mapPieces (onCore (f (upper s.word))) s.operands).head?, isBlank c = true
        rcases start with same | ⟨lead, c, d, more, others, blank, first, second, -, old, new⟩
        · rwa [same]
        · rw [new]
          cases lead with
          | nil =>
            -- the old list would start with a character that is no blank
            have := gap c (by rw [old]; rfl)
            rw [first] at this
            cases this
          | cons b lead =>
            intro x mem
            cases mem
            exact blank b List.mem_cons_self
      noColon := by
        intro noLabel more
        show trimStart (mapPieces (onCore (f (upper s.word))) s.operands) ≠ ':' :: more
        rcases start with same | ⟨lead, c, d, front, others, blank, first, second, colon, old, new⟩
        · rw [same]
          exact sound.noColon noLabel more
        · rw [new, trimStart_append blank, trimStart_cons second]
          intro eq
          -- a colon would have stood there before
          refine sound.noColon noLabel front ?_
          rw [old, trimStart_append blank, trimStart_cons first, colon (List.cons.inj eq).1]
      noComment := by
        show NoComment (s.front ++ (s.word ++ mapPieces (onCore (f (upper s.word))) s.operands))
        rw [NoComment, (scanned _).1, List.forall_mem_append]
        exact ⟨noComment.1, changedNoComment⟩
      tail := by
        show IsTail (s.front ++ (s.word ++ mapPieces (onCore (f (upper s.word))) s.operands)) s.tail
        -- a comment starts outside of quotes, and these are open just as before
        refine sound.tail.imp id ?_
        rintro ⟨closed, rest⟩
        refine ⟨?_, rest⟩
        rw [Site.code, (scanned _).2] at closed
        rw [(scanned _).2, sameEnd, closed]
      noFeed := by
        intro mem
        refine sound.noFeed ?_
        simp only [editSite, Site.text, Site.code, List.mem_append] at mem ⊢
        rcases mem with (inFront | inWord | inOperands) | inTail
        · exact .inl (.inl inFront)
        · exact .inl (.inr (.inl inWord))
        · have := changedNoBreak '\n' inOperands
          cases this
        · exact .inr inTail }

/-- **How a changed line is read**: as before, with the new operands. -/
theorem parse_editLine {raw : List Char} (noBreak : NoBreak raw)
    (word : ∀ c ∈ (site raw).word, isLabelChar c = true) :
    Line.parse (editLine f raw) =
      { raw := editLine f raw
        label := (Line.parse raw).label
        statement := (Line.parse raw).statement.map fun statement =>
          { statement with operands := statement.operands.map (f statement.mnemonic) } } := by
  have noFeed : '\n' ∉ raw := by
    intro mem
    cases noBreak _ mem
  -- the changed line is cut where the old one was, so its parts can be compared
  have sound := sound_editSite keeps (sound_site noFeed word) (noBreak_operands noBreak)
  have found : site (editLine f raw) = editSite f (site raw) := site_text sound
  have noFeedAfter : '\n' ∉ editLine f raw := sound.noFeed
  have statement : (editSite f (site raw)).statement = (site raw).statement.map fun statement =>
      { statement with operands := statement.operands.map (f statement.mnemonic) } := by
    unfold Site.statement statementOf
    by_cases noWord : (site raw).word = []
    · rw [if_pos (show (editSite f (site raw)).word = [] from noWord), if_pos noWord]
      rfl
    · rw [if_neg (show (editSite f (site raw)).word ≠ [] from noWord), if_neg noWord]
      simp only [editSite, operandList_mapPieces keeps, Option.map_some]
  rw [parse_eq_site noFeedAfter, parse_eq_site noFeed, found, statement]
  rfl

/-- A changed line is a line. -/
theorem keepsLines_editLine : KeepsLines (editLine f) where
  noBreak := by
    intro raw noBreak c mem
    -- the line is taken apart into its front, its word, its operands and its tail
    have inSite : ∀ d ∈ (site raw).text, isLineBreak d = false := by
      rw [(code_site raw).2.1]
      exact noBreak
    have inOperands :=
      (keeps (upper (site raw).word)).noBreak_mapPieces (noBreak_operands noBreak)
    simp only [Site.text, Site.code, List.mem_append] at inSite
    simp only [editLine, editSite, Site.text, Site.code, List.mem_append] at mem
    -- each part but the operands is as it was
    rcases mem with (inFront | inWord | changed) | inTail
    · exact inSite c (.inl (.inl inFront))
    · exact inSite c (.inl (.inr (.inl inWord)))
    · exact inOperands c changed
    · exact inSite c (.inr inTail)
  nonempty := by
    intro raw empty
    -- a line that is empty behind the edit was empty before
    simp only [editLine, editSite, Site.text, Site.code, List.append_eq_nil_iff] at empty
    obtain ⟨⟨front, word, operands⟩, tail⟩ := empty
    rw [mapPieces_eq_nil_iff keeps] at operands
    rw [← (code_site raw).2.1, Site.text, Site.code, front, word, operands, tail]
    rfl

end EditLine

/-- A word whose upper case could be a label could be one itself. -/
theorem isLabelChar_of_upper {raw : List Char}
    (mnemonic : ∀ c ∈ upper (site raw).word, isLabelChar c = true) :
    ∀ c ∈ (site raw).word, isLabelChar c = true := by
  intro c mem
  have notBlank : isBlank c = false := by
    have inWord : c ∈ (body (stripComment raw)).takeWhile fun c => !isBlank c := mem
    simpa using List.mem_takeWhile_imp inWord
  by_contra other
  -- the four marks are their own upper case
  have isMark : c = ':' ∨ c = '"' ∨ c = '\'' ∨ c = ';' := by
    by_contra noMark
    simp only [not_or] at noMark
    refine other ?_
    simp [isLabelChar, notBlank, noMark]
  have same : upperChar c = [c] := by
    rcases isMark with rfl | rfl | rfl | rfl <;> decide
  refine other (mnemonic c ?_)
  rw [upper, List.mem_flatMap]
  exact ⟨c, mem, by rw [same]; exact List.mem_singleton_self c⟩

end EightBit.Source
