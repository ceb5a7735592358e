import EightBit.Proofs.Source.Line

/-!
# Quoted Characters Mean Nothing

A line is looked through three times for characters with a meaning: for a semicolon, for the colon
of a label, and for the commas and brackets of an operand list. Quoted characters are passed over
each time. A text is inert if all of its characters with a meaning are quoted and if the quotes are
closed again, whatever follows. Inert texts can be put together, and what is put together can be an
operand.

## Main Definitions

- `Inert`: nothing in the text has a meaning in a line.
- `IsOperand`: a text that can stand in an operand list.
- `Blanks`, `LineBlanks`: blanks anywhere, and blanks within a line.
- `Frame`, `Frame.line`: what stands around an operand list, and the line with some operands in it.

## Main Statements

- `Inert.append`, `inert_literal`, `inert_quoted`, `inert_of_plain`: which texts are inert.
- `Inert.isOperand`: an inert text can be an operand.
- `Frame.parse_line`: a line is read into its operands.
-/

namespace EightBit.Source

open Text

/-! ## Inert texts -/

/-- The characters of the text that have a meaning in a line are quoted, and behind the text the
scan begins anew. -/
structure Inert (text : List Char) : Prop where
  mark_append : ∀ rest, mark (text ++ rest) = mark text ++ mark rest
  endsOpen_append : ∀ rest, endsOpen (text ++ rest) = endsOpen rest
  plain : ∀ m ∈ mark text, m.2 = true → isPlain m.1 = true

theorem Inert.append {left right : List Char} (first : Inert left) (second : Inert right) :
    Inert (left ++ right) where
  mark_append rest := by
    rw [List.append_assoc, first.mark_append, second.mark_append, first.mark_append,
      List.append_assoc]
  endsOpen_append rest := by
    rw [List.append_assoc, first.endsOpen_append, second.endsOpen_append]
  plain m mem := by
    rw [first.mark_append] at mem
    exact (List.mem_append.1 mem).elim (first.plain m) (second.plain m)

/-- **Characters without a meaning are inert.** -/
theorem inert_of_plain {text : List Char} (plain : ∀ c ∈ text, isPlain c = true) : Inert text := by
  have noQuote : NoQuote text := fun c mem => not_isQuote_of_plain (plain c mem)
  refine ⟨fun rest => (noQuote.mark_append rest).1, fun rest => (noQuote.mark_append rest).2, ?_⟩
  intro m mem _
  rw [noQuote.scan.1] at mem
  obtain ⟨c, inText, rfl⟩ := List.mem_map.1 mem
  exact plain c inText

theorem inert_of_allBlank {text : List Char} (blank : AllBlank text) : Inert text :=
  inert_of_plain fun c mem => isPlain_of_isBlank (blank c mem)

theorem inert_cons {c : Char} (plain : isPlain c = true) {text : List Char} (inert : Inert text) :
    Inert (c :: text) := by
  have first : Inert [c] := inert_of_plain fun d mem => by rwa [List.mem_singleton.1 mem]
  exact first.append inert

/-- **A character between single quotes is inert**, whatever it is. -/
theorem inert_literal (c : Char) : Inert ['\'', c, '\''] where
  mark_append _ := rfl
  endsOpen_append _ := rfl
  plain := by
    have marks : mark ['\'', c, '\''] = [('\'', false), (c, false), ('\'', false)] := rfl
    rw [marks]
    simp

/-- Inside double quotes every character is quoted, up to the next double quote. -/
theorem scan_quoted {chars : List Char} (noQuote : '"' ∉ chars) (rest : List Char) :
    markFrom (some '"') (chars ++ '"' :: rest) =
        chars.map (fun c => (c, false)) ++ ('"', false) :: markFrom none rest ∧
      openQuote (some '"') (chars ++ '"' :: rest) = openQuote none rest := by
  induction chars with
  | nil => exact ⟨rfl, rfl⟩
  | cons c chars ih =>
    rw [List.mem_cons, not_or] at noQuote
    have other : c ≠ '"' := fun same => noQuote.1 same.symm
    obtain ⟨marks, ends⟩ := ih noQuote.2
    rw [List.cons_append, markFrom, openQuote, if_neg other, marks, ends]
    exact ⟨rfl, rfl⟩

/-- **A text between double quotes is inert**, if it holds no double quote itself. -/
theorem inert_quoted {chars : List Char} (noQuote : '"' ∉ chars) :
    Inert ('"' :: (chars ++ ['"'])) := by
  -- the quote opens, and everything up to the next quote is marked as inside
  have opened : ∀ rest, mark ('"' :: rest) = ('"', false) :: markFrom (some '"') rest ∧
      endsOpen ('"' :: rest) = (openQuote (some '"') rest).isNone := by
    intro rest
    rw [mark, markFrom_cons (by simp), endsOpen, openQuote_cons (by simp)]
    exact ⟨rfl, rfl⟩
  have marks : ∀ rest, mark ('"' :: (chars ++ '"' :: rest)) =
      ('"', false) :: (chars.map (fun c => (c, false)) ++ ('"', false) :: mark rest) := by
    intro rest
    rw [(opened _).1, (scan_quoted noQuote rest).1]
    rfl
  constructor
  · intro rest
    -- whatever follows begins anew behind the closing quote
    have whole : '"' :: (chars ++ ['"']) ++ rest = '"' :: (chars ++ '"' :: rest) := by simp
    rw [whole, marks, marks]
    simp [mark, markFrom]
  · intro rest
    have whole : '"' :: (chars ++ ['"']) ++ rest = '"' :: (chars ++ '"' :: rest) := by simp
    rw [whole, (opened _).2, (scan_quoted noQuote rest).2]
    rfl
  -- nothing in the text is marked as outside
  · intro m mem isOpen
    rw [marks] at mem
    simp only [mark, markFrom, List.mem_cons, List.mem_append, List.mem_map, List.not_mem_nil,
      or_false] at mem
    rcases mem with rfl | ⟨c, -, rfl⟩ | rfl <;> cases isOpen

/-- Where only plain characters are open, nothing is cut and the depth stays the same. -/
theorem splitMarked_of_plain {marked : List Marked}
    (plain : ∀ m ∈ marked, m.2 = true → isPlain m.1 = true) (depth : Int) :
    splitMarked depth marked = [marked.map Prod.fst] ∧ depthAfter depth marked = depth := by
  induction marked with
  | nil => exact ⟨rfl, rfl⟩
  | cons m rest ih =>
    rw [List.forall_mem_cons] at plain
    obtain ⟨uncut, atEnd⟩ := ih plain.2
    -- what is plain neither separates nor opens or closes a bracket
    have notComma : ¬(m = (',', true) ∧ depth = 0) := by
      rintro ⟨rfl, -⟩
      cases plain.1 rfl
    have keeps : nextDepth depth m = depth := by
      unfold nextDepth
      split
      · cases plain.1 rfl
      · cases plain.1 rfl
      · rfl
    rw [splitMarked, if_neg notComma, keeps, uncut, depthAfter, List.foldl_cons, keeps]
    exact ⟨rfl, atEnd⟩

/-- An inert text is one piece. -/
theorem Inert.piece {text : List Char} (inert : Inert text) : Piece text where
  closed := by
    have ends := inert.endsOpen_append []
    rwa [List.append_nil] at ends
  uncut := by
    rw [Uncut, (splitMarked_of_plain inert.plain 0).1, map_fst_mark]
  depth := (splitMarked_of_plain inert.plain 0).2

/-- An inert text has no comment. -/
theorem Inert.noComment {text : List Char} (inert : Inert text) : NoComment text := by
  intro m mem
  cases isOpen : m.2 with
  | false => simp [startsComment, isOpen]
  | true => simpa [startsComment, isOpen] using (ne_of_plain (inert.plain m mem isOpen)).1

/-! ## Lines of operands -/

/-- The text can stand in an operand list: it is one piece without a comment, and starts with
something other than a colon. -/
structure IsOperand (text : List Char) : Prop where
  piece : Piece text
  noComment : NoComment text
  started : ∃ c more, trimStart text = c :: more ∧ c ≠ ':'

/-- **An inert text is an operand**, with blanks around it. -/
theorem Inert.isOperand {lead core trail : List Char} (inert : Inert core)
    (blankLead : AllBlank lead) (blankTrail : AllBlank trail)
    (started : ∃ c more, core = c :: more ∧ isBlank c = false ∧ c ≠ ':') :
    IsOperand (lead ++ core ++ trail) := by
  have whole : Inert (lead ++ core ++ trail) :=
    ((inert_of_allBlank blankLead).append inert).append (inert_of_allBlank blankTrail)
  obtain ⟨c, more, rfl, noBlank, notColon⟩ := started
  refine ⟨whole.piece, whole.noComment, c, more ++ trail, ?_, notColon⟩
  rw [List.append_assoc, trimStart_append blankLead]
  exact trimStart_cons noBlank (more ++ trail)

/-- Operands with commas between them. -/
theorem intercalate_cons_cons (operand next : List Char) (rest : List (List Char)) :
    [','].intercalate (operand :: next :: rest) =
      operand ++ ',' :: [','].intercalate (next :: rest) := by
  simp [List.intercalate]

/-- Operands on one line make a list on one line. -/
theorem noBreak_intercalate {operands : List (List Char)}
    (noBreak : ∀ operand ∈ operands, NoBreak operand) : NoBreak ([','].intercalate operands) := by
  induction operands with
  | nil => exact NoBreak.nil
  | cons operand rest ih =>
    rw [List.forall_mem_cons] at noBreak
    cases rest with
    | nil =>
      rw [List.intercalate_singleton]
      exact noBreak.1
    | cons next others =>
      rw [intercalate_cons_cons]
      exact noBreak.1.append (.cons rfl (ih noBreak.2))

section List

variable {operands : List (List Char)} (nonempty : operands ≠ [])
  (areOperands : ∀ operand ∈ operands, IsOperand operand)
include nonempty areOperands

/-- **An operand list is cut into its operands**, and leaves no quote open. -/
theorem splitMarked_intercalate :
    splitMarked 0 (mark ([','].intercalate operands)) = operands ∧
      endsOpen ([','].intercalate operands) = true := by
  induction operands with
  | nil => exact absurd rfl nonempty
  | cons operand rest ih =>
    rw [List.forall_mem_cons] at areOperands
    -- the first operand is a piece by itself, and the comma behind it cuts
    have isPiece := areOperands.1.piece
    cases rest with
    | nil =>
      rw [List.intercalate_singleton]
      exact ⟨isPiece.uncut, isPiece.closed⟩
    | cons next others =>
      obtain ⟨cut, ends⟩ := ih (List.cons_ne_nil _ _) areOperands.2
      rw [intercalate_cons_cons, splitMarked_append_comma isPiece,
        (mark_append_comma isPiece.closed _).2, cut, ends]
      exact ⟨rfl, rfl⟩

theorem noComment_intercalate : NoComment ([','].intercalate operands) := by
  induction operands with
  | nil => exact absurd rfl nonempty
  | cons operand rest ih =>
    rw [List.forall_mem_cons] at areOperands
    cases rest with
    | nil =>
      rw [List.intercalate_singleton]
      exact areOperands.1.noComment
    | cons next others =>
      have later := ih (List.cons_ne_nil _ _) areOperands.2
      -- no comment begins in the first operand, in the comma, or in the rest
      intro m mem
      rw [intercalate_cons_cons, (mark_append_comma areOperands.1.piece.closed _).1] at mem
      rcases List.mem_append.1 mem with here | behind
      · exact areOperands.1.noComment m here
      · rcases List.mem_cons.1 behind with rfl | after
        · rfl
        · exact later m after

/-- An operand list starts as its first operand does. -/
theorem exists_trimStart_intercalate :
    ∃ c more, trimStart ([','].intercalate operands) = c :: more ∧ c ≠ ':' := by
  obtain ⟨operand, rest, rfl⟩ := List.exists_cons_of_ne_nil nonempty
  obtain ⟨c, more, starts, notColon⟩ := (areOperands operand List.mem_cons_self).started
  -- what the list begins with is what its first operand begins with
  have behind : ∃ after, [','].intercalate (operand :: rest) = operand ++ after := by
    cases rest with
    | nil => exact ⟨[], by rw [List.intercalate_singleton, List.append_nil]⟩
    | cons next others => exact ⟨_, intercalate_cons_cons operand next others⟩
  obtain ⟨after, shape⟩ := behind
  refine ⟨c, more ++ after, ?_, notColon⟩
  have noBlank : isBlank c = false := first_trimStart operand c (by rw [starts]; rfl)
  rw [shape, ← takeWhile_append_trimStart operand, starts, List.append_assoc,
    trimStart_append (allBlank_takeWhile operand)]
  exact trimStart_cons noBlank (more ++ after)

end List

/-- Any number of blanks. -/
structure Blanks where
  text : List Char
  blank : AllBlank text

/-- Blanks within a line. -/
structure LineBlanks extends Blanks where
  inLine : NoBreak text

/-- A number of spaces. -/
def LineBlanks.spaces (count : Nat) : LineBlanks where
  text := List.replicate count ' '
  blank c mem := by
    rw [List.eq_of_mem_replicate mem]
    rfl
  inLine c mem := by
    rw [List.eq_of_mem_replicate mem]
    rfl

/-- What stands around an operand list: a label or none, the mnemonic, blanks, and behind the list a
comment or nothing. -/
structure Frame where
  label : Option (List Char) := none
  front : List Char := []
  word : List Char
  gap : List Char
  tail : List Char := []
  isFront : Front label front
  isWord : ∀ c ∈ word, isLabelChar c = true
  begun : word ≠ []
  blankGap : AllBlank gap
  apart : gap ≠ []
  isTail : tail = [] ∨ ∃ comment, tail = ';' :: comment

namespace Frame

variable (frame : Frame)

/-- The code in front of the operand list. -/
def head : List Char :=
  frame.front ++ (frame.word ++ frame.gap)

/-- The line with the given operands. -/
def line (operands : List (List Char)) : List Char :=
  frame.head ++ [','].intercalate operands ++ frame.tail

/-- Neither a quote nor a semicolon stands in front of the operands. -/
theorem mem_head : ∀ c ∈ frame.head, isQuote c = false ∧ c ≠ ';' := by
  intro c mem
  rcases List.mem_append.1 mem with inFront | behind
  · exact frame.isFront.mem c inFront
  · rcases List.mem_append.1 behind with inWord | inGap
    · exact opensNothing_of_isLabelChar (frame.isWord c inWord)
    · exact opensNothing_of_isBlank (frame.blankGap c inGap)

/-- **A line is read into its operands**, wherever quotes, commas and semicolons stand in them. -/
theorem parse_line {operands : List (List Char)} (nonempty : operands ≠ [])
    (areOperands : ∀ operand ∈ operands, IsOperand operand) (noFeed : '\n' ∉ frame.line operands) :
    Line.parse (frame.line operands) =
      { raw := frame.line operands
        label := frame.label
        statement := some ⟨upper frame.word, operands.map trim⟩ } := by
  obtain ⟨cut, ends⟩ := splitMarked_intercalate nonempty areOperands
  obtain ⟨c, more, starts, notColon⟩ := exists_trimStart_intercalate nonempty areOperands
  have noComment := noComment_intercalate nonempty areOperands
  generalize isList : [','].intercalate operands = list at cut ends starts noComment
  have noQuote : NoQuote frame.head := fun c mem => (frame.mem_head c mem).1
  -- up to the operands there is no quote, so the operands are scanned on their own
  obtain ⟨marks, open_⟩ := noQuote.mark_append list
  let s : Site := ⟨frame.label, frame.front, frame.word, frame.gap ++ list, frame.tail⟩
  have code : s.code = frame.head ++ list := by
    simp only [s, Site.code, head, List.append_assoc]
  have text : s.text = frame.line operands := by
    rw [Site.text, code, line, isList]
  have behindGap : trimStart (frame.gap ++ list) = c :: more := by
    rw [trimStart_append frame.blankGap, starts]
  have sound : s.Sound :=
    { front := frame.isFront
      word := frame.isWord
      begun := fun noWord => absurd noWord frame.begun
      gap := by
        intro d first
        obtain ⟨b, others, isGap⟩ := List.exists_cons_of_ne_nil frame.apart
        have same : b = d := by
          simpa [s, isGap] using first
        exact frame.blankGap d (by rw [isGap, same]; exact List.mem_cons_self)
      noColon := by
        intro _ after colon
        rw [behindGap] at colon
        exact notColon (List.cons.inj colon).1
      noComment := by
        rw [code]
        intro m mem
        rw [marks] at mem
        rcases List.mem_append.1 mem with inHead | inList
        · exact noQuote.noComment (fun c mem => (frame.mem_head c mem).2) m inHead
        · exact noComment m inList
      tail := by
        rw [code]
        exact frame.isTail.imp id fun comment => ⟨open_.trans ends, comment⟩
      noFeed := by rwa [text] }
  have siteEq := site_text sound
  rw [text] at siteEq
  have listEq : operandList (frame.gap ++ list) = operands.map trim := by
    have between := splitOperands_between_blanks frame.blankGap list AllBlank.nil
    rw [List.append_nil] at between
    rw [operandList, behindGap, if_neg (List.cons_ne_nil c more), between, splitOperands, cut]
  rw [parse_eq_site noFeed, siteEq]
  show (⟨_, frame.label, statementOf frame.word (frame.gap ++ list)⟩ : Line) = _
  rw [statementOf, if_neg frame.begun, listEq]

end Frame

end EightBit.Source
