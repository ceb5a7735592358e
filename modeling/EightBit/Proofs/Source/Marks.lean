import EightBit.Source
import Mathlib.Data.List.Basic
import Mathlib.Data.List.TakeWhile

/-!
# Scanning Quoted Texts in Parts

The scan for quotes looks at up to three characters at once, so it cannot be cut anywhere. This
module shows where it can be: in front of every character but a single quote. Comments are the first
use of that.

## Main Statements

- `scan_append`: the scan of a text in two parts.
- `cut_at_open`: an open character cuts the scan.
- `exists_eq_stripComment_append`, `stripComment_append`: a line is its code and its comment.
- `stripComment_comment`: a comment that is added leaves the code as it is.
-/

namespace EightBit.Source

/-! ## Where the scan can be cut -/

/-- Outside quotes, a character is scanned alone unless it begins a character literal. -/
theorem markFrom_cons {c : Char} {rest : List Char}
    (alone : c = '\'' → ∀ d more, rest ≠ d :: '\'' :: more) :
    markFrom none (c :: rest) =
      (c, !isQuote c) :: markFrom (if isQuote c then some c else none) rest := by
  rw [markFrom]
  · cases isQuote c <;> rfl
  · exact fun d more isTick shape => alone isTick d more shape

theorem openQuote_cons {c : Char} {rest : List Char}
    (alone : c = '\'' → ∀ d more, rest ≠ d :: '\'' :: more) :
    openQuote none (c :: rest) = openQuote (if isQuote c then some c else none) rest := by
  rw [openQuote]
  · cases isQuote c <;> rfl
  · exact fun d more isTick shape => alone isTick d more shape

/-- A character that is no quote is scanned alone, whatever follows. -/
theorem scan_plain {c : Char} (plain : isQuote c = false) (rest : List Char) :
    markFrom none (c :: rest) = (c, true) :: markFrom none rest ∧
      openQuote none (c :: rest) = openQuote none rest := by
  have alone : c = '\'' → ∀ d more, rest ≠ d :: '\'' :: more := by
    rintro rfl
    cases plain
  rw [markFrom_cons alone, openQuote_cons alone, plain]
  exact ⟨rfl, rfl⟩

/-- After a single quote a quoted text has begun, unless two more follow at once. A literal of
another character is such a text. -/
theorem scan_tick {rest : List Char} (regular : ∀ more, rest ≠ '\'' :: '\'' :: more) :
    markFrom none ('\'' :: rest) = ('\'', false) :: markFrom (some '\'') rest ∧
      openQuote none ('\'' :: rest) = openQuote (some '\'') rest := by
  by_cases literal : ∃ d more, rest = d :: '\'' :: more
  · -- the literal ends at its second quote, and so does a quoted text
    obtain ⟨d, more, rfl⟩ := literal
    have other : d ≠ '\'' := fun eq => regular more (by rw [eq])
    simp [markFrom, openQuote, other]
  · have alone : '\'' = '\'' → ∀ d more, rest ≠ d :: '\'' :: more :=
      fun _ d more eq => literal ⟨d, more, eq⟩
    rw [markFrom_cons alone, openQuote_cons alone]
    exact ⟨rfl, rfl⟩

/-- **The scan of a text in two parts**: the second part is scanned with the quote that the first
one leaves open, provided it does not start with a single quote. -/
theorem scan_append (quote : Option Char) (text : List Char) {rest : List Char}
    (next : ∀ more, rest ≠ '\'' :: more) :
    markFrom quote (text ++ rest) = markFrom quote text ++ markFrom (openQuote quote text) rest ∧
      openQuote quote (text ++ rest) = openQuote (openQuote quote text) rest := by
  -- a literal takes three characters at once, so the induction is on the length
  induction hn : text.length using Nat.strongRecOn generalizing quote text with
  | ind n ih =>
    subst hn
    cases text with
    | nil => cases quote <;> simp [markFrom, openQuote]
    | cons c text =>
      have shorter := fun quote => ih text.length (by simp) quote text rfl
      cases quote with
      | some q =>
        -- inside quotes the scan looks at one character only
        simp only [List.cons_append, markFrom, openQuote]
        exact ⟨by rw [(shorter _).1], (shorter _).2⟩
      | none =>
        by_cases tick : c = '\''
        · subst tick
          by_cases literal : ∃ more, text = '\'' :: '\'' :: more
          · -- the only literal that is not scanned like a quoted text: its character is a quote
            obtain ⟨more, rfl⟩ := literal
            have := ih more.length (by simp; omega) none more rfl
            simp [markFrom, openQuote, this.1, this.2]
          · have regular : ∀ more, text ≠ '\'' :: '\'' :: more :=
              fun more eq => literal ⟨more, eq⟩
            -- a literal cannot begin in the first part and end in the second
            have together : ∀ more, text ++ rest ≠ '\'' :: '\'' :: more := by
              intro more eq
              match text, regular with
              | [], _ => exact next _ eq
              | [d], _ =>
                simp only [List.cons_append, List.nil_append, List.cons.injEq] at eq
                exact next more eq.2
              | d :: e :: text, regular =>
                simp only [List.cons_append, List.cons.injEq] at eq
                exact regular text (by rw [eq.1, eq.2.1])
            rw [List.cons_append, (scan_tick together).1, (scan_tick together).2,
              (scan_tick regular).1, (scan_tick regular).2, (shorter _).1, (shorter _).2]
            exact ⟨rfl, rfl⟩
        · rw [List.cons_append, markFrom_cons fun isTick => absurd isTick tick,
            markFrom_cons fun isTick => absurd isTick tick,
            openQuote_cons fun isTick => absurd isTick tick,
            openQuote_cons fun isTick => absurd isTick tick, (shorter _).1, (shorter _).2]
          exact ⟨rfl, rfl⟩

/-- The scan in front of a character that is open there. -/
theorem mark_append {text rest : List Char} (closed : endsOpen text = true)
    (next : ∀ more, rest ≠ '\'' :: more) : mark (text ++ rest) = mark text ++ mark rest := by
  have none_open : openQuote none text = none := by simpa [endsOpen] using closed
  rw [mark, (scan_append none text next).1, none_open]
  rfl

theorem endsOpen_append {text rest : List Char} (closed : endsOpen text = true)
    (next : ∀ more, rest ≠ '\'' :: more) : endsOpen (text ++ rest) = endsOpen rest := by
  have none_open : openQuote none text = none := by simpa [endsOpen] using closed
  rw [endsOpen, (scan_append none text next).2, none_open]
  rfl

/-! ## Open characters -/

theorem length_mark (text : List Char) : (mark text).length = text.length := by
  simpa using congrArg List.length (map_fst_mark text)

/-- No quote is open. -/
theorem not_isQuote_of_mem {quote : Option Char} {text : List Char} {c : Char}
    (mem : (c, true) ∈ markFrom quote text) : isQuote c = false := by
  -- along the marks: characters inside of quotes are marked as such, and the others are no quotes
  induction quote, text using markFrom.induct with
  | case1 quote => simp [markFrom] at mem
  | case2 quote d rest ih =>
    rw [markFrom] at mem
    simp only [List.mem_cons, Prod.mk.injEq, Bool.true_eq_false, and_false, false_or] at mem
    exact ih mem
  | case3 d rest ih =>
    rw [markFrom] at mem
    simp only [List.mem_cons, Prod.mk.injEq, Bool.true_eq_false, and_false, false_or] at mem
    exact ih mem
  | case4 d rest single isQ ih =>
    rw [markFrom_cons fun isTick e more eq => single e more isTick eq] at mem
    simp only [isQ, Bool.not_true, if_true, List.mem_cons, Prod.mk.injEq, Bool.true_eq_false,
      and_false, false_or] at mem
    exact ih mem
  | case5 d rest single notQ ih =>
    rw [markFrom_cons fun isTick e more eq => single e more isTick eq] at mem
    have plain : isQuote d = false := Bool.eq_false_iff.2 notQ
    simp only [plain, Bool.not_false, Bool.false_eq_true, if_false, List.mem_cons,
      Prod.mk.injEq, and_true] at mem
    rcases mem with rfl | later
    · exact plain
    · exact ih later

/-- **An open character cuts the scan**: the text in front of it leaves no quote open. -/
theorem cut_at_open {text : List Char} {front back : List Marked} {c : Char}
    (split : mark text = front ++ (c, true) :: back) :
    ∃ before after, text = before ++ c :: after ∧ endsOpen before = true ∧
      mark before = front ∧ mark after = back := by
  have inMarks : (c, true) ∈ markFrom none text := by
    rw [show markFrom none text = mark text from rfl, split]
    simp
  have notQuote : isQuote c = false := not_isQuote_of_mem inMarks
  have notTick : c ≠ '\'' := by
    rintro rfl
    cases notQuote
  -- the marks and the text are cut at the same place
  have chars : text = front.map Prod.fst ++ c :: back.map Prod.fst := by
    simpa using (map_fst_mark text).symm.trans (congrArg (List.map Prod.fst) split)
  have length : (front.map Prod.fst).length = front.length := List.length_map _
  generalize front.map Prod.fst = before at chars length
  generalize back.map Prod.fst = after at chars
  subst chars
  have next : ∀ more, c :: after ≠ '\'' :: more := fun more eq => notTick (List.cons.inj eq).1
  have scanned := (scan_append none before next).1
  rw [show markFrom none (before ++ c :: after) = mark (before ++ c :: after) from rfl, split]
    at scanned
  have same : (mark before).length = front.length := by rw [length_mark, length]
  obtain ⟨frontEq, backEq⟩ := List.append_inj scanned same.symm
  -- with a quote open in front of it, the character would be inside a quoted text
  cases opened : openQuote none before with
  | some quote =>
    rw [opened, markFrom] at backEq
    simp at backEq
  | none =>
    rw [opened, (scan_plain notQuote _).1] at backEq
    exact ⟨before, after, rfl, by rw [endsOpen, opened]; rfl, frontEq.symm,
      (List.cons.inj backEq).2.symm⟩

/-! ## Texts without quotes -/

/-- No character of the text is a quote. -/
def NoQuote (text : List Char) : Prop :=
  ∀ c ∈ text, isQuote c = false

/-- Without quotes every character is open, and no quote is left open. -/
theorem NoQuote.scan {text : List Char} (plain : NoQuote text) :
    mark text = text.map (fun c => (c, true)) ∧ endsOpen text = true := by
  induction text with
  | nil => exact ⟨rfl, rfl⟩
  | cons c rest ih =>
    have here := scan_plain (plain c List.mem_cons_self) rest
    obtain ⟨marks, ends⟩ := ih fun d mem => plain d (List.mem_cons_of_mem c mem)
    constructor
    · rw [mark, here.1]
      simpa [mark] using marks
    · rw [endsOpen, here.2]
      exact ends

/-- Behind a text without quotes the scan begins anew, whatever follows. -/
theorem NoQuote.mark_append {text : List Char} (plain : NoQuote text) (rest : List Char) :
    mark (text ++ rest) = mark text ++ mark rest ∧
      endsOpen (text ++ rest) = endsOpen rest := by
  induction text with
  | nil => exact ⟨rfl, rfl⟩
  | cons c text ih =>
    have here := scan_plain (plain c List.mem_cons_self)
    obtain ⟨marks, ends⟩ := ih fun d mem => plain d (List.mem_cons_of_mem c mem)
    constructor
    · rw [List.cons_append, mark, (here _).1, mark, (here _).1]
      simpa [mark] using marks
    · rw [List.cons_append, endsOpen, (here _).2]
      exact ends

theorem NoQuote.append {left right : List Char} (hl : NoQuote left) (hr : NoQuote right) :
    NoQuote (left ++ right) := by
  intro c mem
  rcases List.mem_append.1 mem with inLeft | inRight
  · exact hl c inLeft
  · exact hr c inRight

/-! ## Comments -/

/-- No character of the text starts a comment. -/
def NoComment (text : List Char) : Prop :=
  ∀ m ∈ mark text, startsComment m = false

/-- A text has no comment if it has neither quote nor semicolon. -/
theorem NoQuote.noComment {text : List Char} (plain : NoQuote text)
    (noSemicolon : ∀ c ∈ text, c ≠ ';') : NoComment text := by
  intro m mem
  rw [plain.scan.1] at mem
  obtain ⟨c, inText, rfl⟩ := List.mem_map.1 mem
  simpa [startsComment] using noSemicolon c inText

/-- What may stand behind the code of a line: nothing, or a comment where no quote is open. -/
def IsTail (code tail : List Char) : Prop :=
  tail = [] ∨ endsOpen code = true ∧ ∃ rest, tail = ';' :: rest

/-- **A line is its code and its comment**, and the code has no comment. -/
theorem exists_eq_stripComment_append (line : List Char) :
    ∃ tail, IsTail (stripComment line) tail ∧ NoComment (stripComment line) ∧
      line = stripComment line ++ tail := by
  have split : mark line = (mark line).takeWhile (fun m => !startsComment m) ++
      (mark line).dropWhile (fun m => !startsComment m) :=
    List.takeWhile_append_dropWhile.symm
  have kept : ∀ m ∈ (mark line).takeWhile fun m => !startsComment m, startsComment m = false :=
    fun m mem => by simpa using List.mem_takeWhile_imp mem
  cases after : (mark line).dropWhile fun m => !startsComment m with
  | nil =>
    -- no mark starts a comment, so the whole line is code
    rw [after, List.append_nil] at split
    have whole : stripComment line = line := by
      rw [stripComment, ← split, map_fst_mark]
    refine ⟨[], .inl rfl, ?_, by rw [whole, List.append_nil]⟩
    intro m mem
    rw [whole, split] at mem
    exact kept m mem
  | cons m back =>
    have starts : startsComment m = true := by
      simpa [after] using List.head?_dropWhile_not (fun m => !startsComment m) (mark line)
    obtain ⟨c, opened⟩ := m
    simp only [startsComment, Bool.and_eq_true, beq_iff_eq] at starts
    obtain ⟨rfl, rfl⟩ := starts
    -- the semicolon is open, so the scan can be cut there
    rw [after] at split
    obtain ⟨before, rest, shape, closed, front, -⟩ := cut_at_open split
    have code : stripComment line = before := by
      rw [stripComment, ← front, map_fst_mark]
    refine ⟨';' :: rest, .inr ⟨code ▸ closed, rest, rfl⟩, ?_, by rw [code]; exact shape⟩
    intro m mem
    rw [code, front] at mem
    exact kept m mem

/-- A comment behind code is found. -/
theorem stripComment_append {code tail : List Char} (noComment : NoComment code)
    (behind : IsTail code tail) : stripComment (code ++ tail) = code := by
  have kept : ∀ m ∈ mark code, (!startsComment m) = true :=
    fun m mem => by simp [noComment m mem]
  rcases behind with rfl | ⟨closed, rest, rfl⟩
  · rw [List.append_nil, stripComment, List.takeWhile_eq_self_iff.2 kept, map_fst_mark]
  · have next : ∀ more, ';' :: rest ≠ '\'' :: more := by simp
    have stops : mark (';' :: rest) = (';', true) :: mark rest := by
      rw [mark, markFrom_cons (by simp)]
      rfl
    rw [stripComment, mark_append closed next, List.takeWhile_append_of_pos kept, stops,
      List.takeWhile_cons_of_neg (by simp [startsComment]), List.append_nil, map_fst_mark]

/-- **A comment adds nothing to the code of a line** that leaves no quote open. If the line has a
comment already, then that goes on. -/
theorem stripComment_comment {line : List Char} (closed : endsOpen (stripComment line) = true)
    (comment : List Char) : stripComment (line ++ ';' :: comment) = stripComment line := by
  obtain ⟨tail, isTail, noComment, split⟩ := exists_eq_stripComment_append line
  have behind : IsTail (stripComment line) (tail ++ ';' :: comment) := by
    rcases isTail with rfl | ⟨-, rest, rfl⟩
    · exact .inr ⟨closed, comment, rfl⟩
    · exact .inr ⟨closed, rest ++ ';' :: comment, rfl⟩
  have whole : line ++ ';' :: comment = stripComment line ++ (tail ++ ';' :: comment) := by
    rw [← List.append_assoc, ← split]
  rw [whole, stripComment_append noComment behind]

end EightBit.Source
