import EightBit.Proofs.Source.Marks
import EightBit.Proofs.Text.Blank
import EightBit.Proofs.Text.Lines
import EightBit.Source

/-!
# Operand Lists, Piece by Piece

An operand list is one piece, or a piece, a comma and an operand list. Whatever is said about
operand lists is shown by induction on that.

## Main Definitions

- `Piece`: a text that is not cut and that another piece can follow.
- `Loose`: an operand without quotes whose brackets, if any, are its first and last character.
- `Simple`: such an operand on one line.

## Main Statements

- `pieces_induction`, `splitMarked_append_comma`: the induction, and its equation.
- `splitOperands_intercalate`: joined operands are found again.
- `splitOperands_between_blanks`: blanks around a list do not matter.
-/

namespace EightBit.Source

open Text

/-! ## Pieces of an operand list -/

/-- The bracket depth after marked characters. -/
def depthAfter (depth : Int) (marked : List Marked) : Int :=
  marked.foldl nextDepth depth

/-- The text is not cut: it has no open comma at depth zero. -/
def Uncut (text : List Char) : Prop :=
  splitMarked 0 (mark text) = [text]

/-- A piece that another one can follow: it is not cut, and neither a quote nor a bracket is open
at its end. -/
structure Piece (text : List Char) : Prop where
  closed : endsOpen text = true
  uncut : Uncut text
  depth : depthAfter 0 (mark text) = 0

/-- Marked characters are not cut, or they are cut at a first comma. -/
theorem splitMarked_cases (depth : Int) (marked : List Marked) :
    splitMarked depth marked = [marked.map Prod.fst] ∨
      ∃ front back, marked = front ++ (',', true) :: back ∧
        splitMarked depth front = [front.map Prod.fst] ∧ depthAfter depth front = 0 ∧
        splitMarked depth marked = front.map Prod.fst :: splitMarked 0 back := by
  induction marked generalizing depth with
  | nil => exact .inl rfl
  | cons m rest ih =>
    -- a comma cuts if it is outside of quotes and brackets
    by_cases cuts : m = (',', true) ∧ depth = 0
    · refine .inr ⟨[], rest, by rw [cuts.1]; rfl, rfl, cuts.2, ?_⟩
      rw [splitMarked, if_pos cuts, cuts.2]
      rfl
    -- otherwise the first cut is the first cut behind this character
    · rcases ih (nextDepth depth m) with uncut | ⟨front, back, shape, uncut, atEnd, whole⟩
      · left
        rw [splitMarked, if_neg cuts, uncut]
        rfl
      · refine .inr ⟨m :: front, back, by rw [shape]; rfl, ?_, by simpa [depthAfter] using atEnd, ?_⟩
        · rw [splitMarked, if_neg cuts, uncut]
          rfl
        · rw [splitMarked, if_neg cuts, whole]
          rfl

theorem splitMarked_ne_nil (depth : Int) (marked : List Marked) :
    splitMarked depth marked ≠ [] := by
  rcases splitMarked_cases depth marked with uncut | ⟨_, _, _, _, _, whole⟩
  · rw [uncut]
    simp
  · rw [whole]
    simp

/-- Characters without a cut belong to the first piece. -/
theorem splitMarked_append {depth : Int} {front : List Marked}
    (uncut : splitMarked depth front = [front.map Prod.fst]) (back : List Marked) :
    ∃ piece pieces, splitMarked (depthAfter depth front) back = piece :: pieces ∧
      splitMarked depth (front ++ back) = (front.map Prod.fst ++ piece) :: pieces := by
  induction front generalizing depth with
  | nil =>
    obtain ⟨piece, pieces, cut⟩ := List.exists_cons_of_ne_nil (splitMarked_ne_nil depth back)
    exact ⟨piece, pieces, by simpa [depthAfter] using cut, by simpa using cut⟩
  | cons m front ih =>
    rw [splitMarked] at uncut
    split at uncut
    · simp at uncut
    · next stays =>
      -- the characters behind the first one are not cut either
      have rest : splitMarked (nextDepth depth m) front = [front.map Prod.fst] := by
        obtain ⟨piece, pieces, tail⟩ :=
          List.exists_cons_of_ne_nil (splitMarked_ne_nil (nextDepth depth m) front)
        rw [tail] at uncut
        simp only [consPart, List.map_cons, List.cons.injEq, true_and] at uncut
        rw [tail, uncut.1, uncut.2]
      obtain ⟨piece, pieces, atEnd, whole⟩ := ih rest
      refine ⟨piece, pieces, by simpa [depthAfter] using atEnd, ?_⟩
      rw [List.cons_append, splitMarked, if_neg stays, whole]
      rfl

/-- A comma where no quote is open. -/
theorem mark_append_comma {piece : List Char} (closed : endsOpen piece = true) (rest : List Char) :
    mark (piece ++ ',' :: rest) = mark piece ++ (',', true) :: mark rest ∧
      endsOpen (piece ++ ',' :: rest) = endsOpen rest := by
  have next : ∀ more, ',' :: rest ≠ '\'' :: more := by simp
  constructor
  · rw [mark_append closed next, mark, mark, markFrom_cons (by simp)]
    rfl
  · rw [endsOpen_append closed next, endsOpen, openQuote_cons (by simp)]
    rfl

/-- **A piece in front of a comma is cut off.** -/
theorem splitMarked_append_comma {piece : List Char} (isPiece : Piece piece) (rest : List Char) :
    splitMarked 0 (mark (piece ++ ',' :: rest)) = piece :: splitMarked 0 (mark rest) := by
  have uncut : splitMarked 0 (mark piece) = [(mark piece).map Prod.fst] := by
    rw [map_fst_mark]
    exact isPiece.uncut
  obtain ⟨first, others, atEnd, whole⟩ := splitMarked_append uncut ((',', true) :: mark rest)
  rw [isPiece.depth, splitMarked, if_pos ⟨rfl, rfl⟩, List.cons.injEq] at atEnd
  rw [(mark_append_comma isPiece.closed rest).1, whole, map_fst_mark, ← atEnd.1, ← atEnd.2,
    List.append_nil]

/-- **An operand list is one piece, or a piece, a comma and an operand list.** -/
theorem pieces_cases (text : List Char) :
    Uncut text ∨ ∃ piece rest, text = piece ++ ',' :: rest ∧ Piece piece := by
  rcases splitMarked_cases 0 (mark text) with uncut | ⟨front, back, shape, uncut, atEnd, -⟩
  · left
    rw [map_fst_mark] at uncut
    exact uncut
  · right
    obtain ⟨before, after, chars, closed, frontEq, -⟩ := cut_at_open shape
    subst frontEq
    rw [map_fst_mark] at uncut
    exact ⟨before, after, chars, closed, uncut, atEnd⟩

/-! ## Texts without quotes as pieces -/

/-- A text without quotes and commas is not cut. -/
theorem NoQuote.uncut {text : List Char} (plain : NoQuote text) (noComma : ∀ c ∈ text, c ≠ ',') :
    Uncut text := by
  -- brackets change the depth, so the statement is about every depth
  have general : ∀ depth, splitMarked depth (text.map fun c => (c, true)) = [text] := by
    clear plain
    induction text with
    | nil => exact fun _ => rfl
    | cons c rest ih =>
      intro depth
      have other : c ≠ ',' := noComma c List.mem_cons_self
      rw [List.map_cons, splitMarked, if_neg (by simp [other]),
        ih fun d mem => noComma d (List.mem_cons_of_mem c mem)]
      rfl
  rw [Uncut, plain.scan.1]
  exact general 0

/-- The depth stays the same over characters that are no brackets. -/
theorem depthAfter_of_no_bracket {text : List Char} (noBracket : ∀ c ∈ text, c ≠ '[' ∧ c ≠ ']')
    (depth : Int) : depthAfter depth (text.map fun c => (c, true)) = depth := by
  induction text with
  | nil => rfl
  | cons c rest ih =>
    have here := noBracket c List.mem_cons_self
    -- other characters than brackets leave the depth alone
    have keeps : nextDepth depth (c, true) = depth := by
      unfold nextDepth
      split
      · next eq => exact absurd (Prod.mk.inj eq).1 here.1
      · next eq => exact absurd (Prod.mk.inj eq).1 here.2
      · rfl
    rw [List.map_cons, depthAfter, List.foldl_cons, keeps]
    exact ih fun d mem => noBracket d (List.mem_cons_of_mem c mem)

/-- **Induction over the pieces of an operand list.** -/
theorem pieces_induction {P : List Char → Prop} (last : ∀ piece, Uncut piece → P piece)
    (cons : ∀ piece rest, Piece piece → P rest → P (piece ++ ',' :: rest)) (text : List Char) :
    P text := by
  -- what follows a comma is shorter
  induction hn : text.length using Nat.strongRecOn generalizing text with
  | ind n ih =>
    subst hn
    rcases pieces_cases text with uncut | ⟨piece, rest, rfl, isPiece⟩
    · exact last text uncut
    · exact cons piece rest isPiece (ih rest.length (by simp; omega) rest rfl)

/-! ## Blanks around an operand list -/

/-- A blank is none of the characters that have a meaning in an operand list. -/
theorem isBlank_ne {c d : Char} (blank : isBlank c = true) (other : isBlank d = false) : c ≠ d := by
  rintro rfl
  rw [blank] at other
  cases other

theorem not_isQuote_of_isBlank {c : Char} (blank : isBlank c = true) : isQuote c = false := by
  have notDouble : c ≠ '"' := isBlank_ne blank (by decide)
  have notSingle : c ≠ '\'' := isBlank_ne blank (by decide)
  simp [isQuote, notDouble, notSingle]

theorem noQuote_of_allBlank {text : List Char} (blank : AllBlank text) : NoQuote text :=
  fun c mem => not_isQuote_of_isBlank (blank c mem)

theorem piece_of_allBlank {text : List Char} (blank : AllBlank text) : Piece text where
  closed := (noQuote_of_allBlank blank).scan.2
  uncut := (noQuote_of_allBlank blank).uncut fun c mem => isBlank_ne (blank c mem) (by decide)
  depth := by
    rw [(noQuote_of_allBlank blank).scan.1]
    exact depthAfter_of_no_bracket (fun c mem =>
      ⟨isBlank_ne (blank c mem) (by decide), isBlank_ne (blank c mem) (by decide)⟩) 0

/-- Characters behind the last piece belong to it, unless one of them is an open comma. -/
theorem splitMarked_append_of_no_comma (depth : Int) (front : List Marked) {back : List Marked}
    (noComma : ∀ m ∈ back, m.1 ≠ ',') :
    ∃ pieces last, splitMarked depth front = pieces ++ [last] ∧
      splitMarked depth (front ++ back) = pieces ++ [last ++ back.map Prod.fst] := by
  -- behind the last comma there is one piece, and what is appended belongs to it
  induction front generalizing depth with
  | nil =>
    refine ⟨[], [], rfl, ?_⟩
    induction back generalizing depth with
    | nil => rfl
    | cons m rest ih =>
      have stays : ¬(m = (',', true) ∧ depth = 0) := by
        rintro ⟨rfl, -⟩
        exact noComma _ List.mem_cons_self rfl
      have tail := ih (fun d mem => noComma d (List.mem_cons_of_mem m mem)) (nextDepth depth m)
      rw [List.nil_append] at tail ⊢
      rw [splitMarked, if_neg stays, tail]
      rfl
  | cons m front ih =>
    rw [List.cons_append, splitMarked, splitMarked]
    split
    · obtain ⟨pieces, last, before, after⟩ := ih depth
      exact ⟨[] :: pieces, last, by rw [before]; rfl, by rw [after]; rfl⟩
    · obtain ⟨pieces, last, before, after⟩ := ih (nextDepth depth m)
      rw [before, after]
      cases pieces with
      | nil => exact ⟨[], m.1 :: last, rfl, rfl⟩
      | cons piece pieces => exact ⟨(m.1 :: piece) :: pieces, last, rfl, rfl⟩

/-- Blanks around an operand list do not change its operands. -/
theorem splitOperands_between_blanks {lead trail : List Char} (blankLead : AllBlank lead)
    (text : List Char) (blankTrail : AllBlank trail) :
    splitOperands (lead ++ text ++ trail) = splitOperands text := by
  -- at the end, blanks make the last piece longer, whatever quotes and brackets are open there
  have atEnd : ∀ text, splitOperands (text ++ trail) = splitOperands text := by
    intro text
    have next : ∀ more, trail ≠ '\'' :: more := by
      rintro more rfl
      exact isBlank_ne (blankTrail _ List.mem_cons_self) (by decide) rfl
    have noComma : ∀ m ∈ markFrom (openQuote none text) trail, m.1 ≠ ',' := by
      intro m mem
      have inTrail : m.1 ∈ trail := by
        rw [← map_fst_markFrom (openQuote none text) trail]
        exact List.mem_map_of_mem mem
      exact isBlank_ne (blankTrail _ inTrail) (by decide)
    obtain ⟨pieces, last, before, after⟩ := splitMarked_append_of_no_comma 0 (mark text) noComma
    rw [map_fst_markFrom] at after
    have scanned : mark (text ++ trail) = mark text ++ markFrom (openQuote none text) trail :=
      (scan_append none text next).1
    rw [splitOperands, splitOperands, scanned, after, before]
    simp [trim_append_right blankTrail]
  -- at the start, they are a piece of their own and so part of the first one
  have uncut : splitMarked 0 (mark lead) = [(mark lead).map Prod.fst] := by
    rw [map_fst_mark]
    exact (piece_of_allBlank blankLead).uncut
  obtain ⟨piece, pieces, fromStart, whole⟩ := splitMarked_append uncut (mark text)
  rw [(piece_of_allBlank blankLead).depth] at fromStart
  have scanned := ((noQuote_of_allBlank blankLead).mark_append text).1
  rw [atEnd, splitOperands, splitOperands, scanned, whole, fromStart, map_fst_mark,
    List.map_cons, List.map_cons, trim_append_left blankLead]

/-! ## Simple operands -/

/-- The character has no meaning in an operand list. -/
def isPlain (c : Char) : Bool :=
  !isQuote c && c != ';' && c != ',' && c != '[' && c != ']'

/-- An operand without quotes, and without brackets other than a pair around all of it. -/
structure Loose (operand : List Char) : Prop where
  trimmed : Trimmed operand
  nonempty : operand ≠ []
  shape : (∀ c ∈ operand, isPlain c = true) ∨
    ∃ inner, operand = '[' :: inner ++ [']'] ∧ ∀ c ∈ inner, isPlain c = true

/-- Such an operand on one line, which does not start with a colon either. -/
structure Simple (operand : List Char) : Prop extends Loose operand where
  noBreak : NoBreak operand
  noColon : ∀ more, operand ≠ ':' :: more

theorem not_isQuote_of_plain {c : Char} (plain : isPlain c = true) : isQuote c = false := by
  simp only [isPlain, Bool.and_eq_true, Bool.not_eq_true'] at plain
  exact plain.1.1.1.1

theorem ne_of_plain {c : Char} (plain : isPlain c = true) :
    c ≠ ';' ∧ c ≠ ',' ∧ c ≠ '[' ∧ c ≠ ']' := by
  simp only [isPlain, Bool.and_eq_true, bne_iff_ne] at plain
  exact ⟨plain.1.1.1.2, plain.1.1.2, plain.1.2, plain.2⟩

/-- The character can stand anywhere in an operand: it is plain, no blank, no line break and no
colon. -/
def isInk (c : Char) : Bool :=
  isPlain c && !isBlank c && !isLineBreak c && c != ':'

section Ink

variable {text : List Char} (ink : ∀ c ∈ text, isInk c = true)
include ink

theorem plain_of_ink : ∀ c ∈ text, isPlain c = true ∧ isBlank c = false ∧ isLineBreak c = false := by
  intro c mem
  have := ink c mem
  simp only [isInk, Bool.and_eq_true, Bool.not_eq_true'] at this
  exact ⟨this.1.1.1, this.1.1.2, this.1.2⟩

/-- A text of such characters is a simple operand. -/
theorem simple_of_ink (nonempty : text ≠ []) : Simple text where
  trimmed := NoBlank.trimmed fun c mem => (plain_of_ink ink c mem).2.1
  nonempty := nonempty
  noBreak := fun c mem => (plain_of_ink ink c mem).2.2
  noColon := by
    rintro more rfl
    have := ink ':' List.mem_cons_self
    cases this
  shape := .inl fun c mem => (plain_of_ink ink c mem).1

/-- A text of such characters in brackets is a simple operand. -/
theorem simple_brackets_of_ink : Simple ('[' :: text ++ [']']) where
  trimmed := trimmed_of_ends rfl (by decide) (by decide)
  nonempty := by simp
  noBreak := by
    intro c mem
    simp only [List.cons_append, List.mem_cons, List.mem_append, List.not_mem_nil, or_false] at mem
    rcases mem with rfl | inside | rfl
    · decide
    · exact (plain_of_ink ink c inside).2.2
    · decide
  noColon := by simp
  shape := .inr ⟨text, rfl, fun c mem => (plain_of_ink ink c mem).1⟩

end Ink

theorem isPlain_of_isBlank {c : Char} (blank : isBlank c = true) : isPlain c = true := by
  have ne : ∀ d, isBlank d = false → c ≠ d := fun d other => isBlank_ne blank other
  simp [isPlain, isQuote, ne '"' (by decide), ne '\'' (by decide), ne ';' (by decide),
    ne ',' (by decide), ne '[' (by decide), ne ']' (by decide)]

/-- What a piece needs when it has no quotes. -/
theorem NoQuote.piece {text : List Char} (plain : NoQuote text) (noComma : ∀ c ∈ text, c ≠ ',')
    (depth : depthAfter 0 (text.map fun c => (c, true)) = 0) : Piece text where
  closed := plain.scan.2
  uncut := plain.uncut noComma
  depth := by rw [plain.scan.1, depth]

theorem Loose.mem {operand : List Char} (simple : Loose operand) {c : Char}
    (mem : c ∈ operand) : isQuote c = false ∧ c ≠ ';' ∧ c ≠ ',' := by
  have ofPlain : isPlain c = true → isQuote c = false ∧ c ≠ ';' ∧ c ≠ ',' := fun plain =>
    ⟨not_isQuote_of_plain plain, (ne_of_plain plain).1, (ne_of_plain plain).2.1⟩
  rcases simple.shape with plain | ⟨inner, rfl, plain⟩
  · exact ofPlain (plain c mem)
  · simp only [List.cons_append, List.mem_cons, List.mem_append, List.not_mem_nil,
      or_false] at mem
    rcases mem with rfl | inInner | rfl
    · decide
    · exact ofPlain (plain c inInner)
    · decide

/-- The brackets of a simple operand are closed. -/
theorem Loose.depth {operand : List Char} (simple : Loose operand) (depth : Int) :
    depthAfter depth (operand.map fun c => (c, true)) = depth := by
  have keep : ∀ {part : List Char}, (∀ c ∈ part, isPlain c = true) → ∀ depth,
      depthAfter depth (part.map fun c => (c, true)) = depth :=
    fun plain => depthAfter_of_no_bracket fun c mem => (ne_of_plain (plain c mem)).2.2
  rcases simple.shape with plain | ⟨inner, rfl, plain⟩
  · exact keep plain depth
  · -- one bracket up, and one down again
    have opened := keep plain (depth + 1)
    rw [depthAfter] at opened
    rw [depthAfter, List.cons_append, List.map_cons, List.map_append, List.foldl_cons,
      List.foldl_append, show nextDepth depth ('[', true) = depth + 1 from rfl, opened]
    show depth + 1 - 1 = depth
    omega

/-- A simple operand between blanks is a piece and has no comment. -/
theorem Loose.piece {operand lead trail : List Char} (simple : Loose operand)
    (blankLead : AllBlank lead) (blankTrail : AllBlank trail) :
    Piece (lead ++ operand ++ trail) ∧ NoComment (lead ++ operand ++ trail) := by
  -- blanks have no meaning of their own, so only the operand has to be looked at
  have blank : ∀ c, isBlank c = true → isQuote c = false ∧ c ≠ ';' ∧ c ≠ ',' := fun c h =>
    ⟨not_isQuote_of_isBlank h, isBlank_ne h (by decide), isBlank_ne h (by decide)⟩
  have all : ∀ c ∈ lead ++ operand ++ trail, isQuote c = false ∧ c ≠ ';' ∧ c ≠ ',' := by
    intro c mem
    rcases List.mem_append.1 mem with front | inTrail
    · rcases List.mem_append.1 front with inLead | inside
      · exact blank c (blankLead c inLead)
      · exact simple.mem inside
    · exact blank c (blankTrail c inTrail)
  have noQuote : NoQuote (lead ++ operand ++ trail) := fun c mem => (all c mem).1
  -- brackets are closed within the operand
  have depth : depthAfter 0 ((lead ++ operand ++ trail).map fun c => (c, true)) = 0 := by
    have keep : ∀ {part : List Char}, AllBlank part → ∀ depth,
        depthAfter depth (part.map fun c => (c, true)) = depth :=
      fun blank => depthAfter_of_no_bracket fun c mem =>
        ⟨isBlank_ne (blank c mem) (by decide), isBlank_ne (blank c mem) (by decide)⟩
    have atLead := keep blankLead 0
    have atOperand := simple.depth 0
    have atTrail := keep blankTrail 0
    rw [depthAfter] at atLead atOperand atTrail
    rw [depthAfter, List.map_append, List.map_append, List.foldl_append, List.foldl_append,
      atLead, atOperand, atTrail]
  exact ⟨noQuote.piece (fun c mem => (all c mem).2.2) depth,
    noQuote.noComment fun c mem => (all c mem).2.1⟩

/-- **Joined operands are found again.** -/
theorem splitOperands_intercalate {operands : List (List Char)} (nonempty : operands ≠ [])
    (simple : ∀ operand ∈ operands, Loose operand) :
    splitOperands ([',', ' '].intercalate operands) = operands := by
  induction operands with
  | nil => exact absurd rfl nonempty
  | cons operand rest ih =>
    have here := simple operand List.mem_cons_self
    have isPiece : Piece operand := by
      simpa using (here.piece AllBlank.nil AllBlank.nil).1
    cases rest with
    | nil =>
      have uncut : splitMarked 0 (mark operand) = [operand] := isPiece.uncut
      simp [splitOperands, uncut, trim_of_trimmed here.trimmed]
    -- the comma behind the first operand cuts, and the blank behind it is trimmed
    | cons next others =>
      have joined : [',', ' '].intercalate (operand :: next :: others) =
          operand ++ ',' :: ([' '] ++ [',', ' '].intercalate (next :: others) ++ []) := by
        simp [List.intercalate]
      have tail := splitOperands_between_blanks allBlank_space
        ([',', ' '].intercalate (next :: others)) AllBlank.nil
      rw [ih (by simp) fun o mem => simple o (List.mem_cons_of_mem operand mem)] at tail
      rw [splitOperands] at tail
      rw [joined, splitOperands, splitMarked_append_comma isPiece, List.map_cons, tail,
        trim_of_trimmed here.trimmed]

/-- What holds of every character of the operands, a comma and a space holds of every character of
the joined operands. -/
theorem forall_mem_intercalate {P : Char → Prop} (comma : P ',') (space : P ' ')
    {operands : List (List Char)} (inside : ∀ operand ∈ operands, ∀ c ∈ operand, P c) :
    ∀ c ∈ [',', ' '].intercalate operands, P c := by
  induction operands with
  | nil => simp [List.intercalate]
  | cons operand rest ih =>
    have here := inside operand List.mem_cons_self
    have later := ih fun o mem => inside o (List.mem_cons_of_mem operand mem)
    cases rest with
    | nil => simpa [List.intercalate] using here
    | cons next others =>
      -- a character of the list belongs to an operand or to what joins two of them
      have joined : [',', ' '].intercalate (operand :: next :: others) =
          operand ++ ',' :: ' ' :: [',', ' '].intercalate (next :: others) := by
        simp [List.intercalate]
      rw [joined]
      intro c mem
      simp only [List.mem_append, List.mem_cons] at mem
      rcases mem with inOperand | rfl | rfl | after
      · exact here c inOperand
      · exact comma
      · exact space
      · exact later c after

end EightBit.Source
