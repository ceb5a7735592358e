import EightBit.Proofs.Source.Operands

/-!
# Where the Parts of a Line Stand

A line is read into its parts, and the places of the parts are lost. Here they are kept: a `Site`
is a line cut into label, mnemonic, operand list and comment, with nothing left out.

## Main Definitions

- `Site`, `site`: the stretches of a line.
- `Site.Sound`: the stretches are those that a reader of the line finds.

## Main Statements

- `splitLabel_eq_some_iff`: what it means to have a label.
- `parse_eq_site`: a line is read from its site.
- `sound_site`, `site_text`: sound sites and the lines they are cut from belong together.
-/

namespace EightBit.Source

open Text

/-! ## Labels -/

theorem isLabelChar_of_isBlank {c : Char} (blank : isBlank c = true) : isLabelChar c = false := by
  simp [isLabelChar, blank]

theorem not_isBlank_of_isLabelChar {c : Char} (h : isLabelChar c = true) : isBlank c = false := by
  simp only [isLabelChar, Bool.and_eq_true, Bool.not_eq_true'] at h
  exact h.1.1.1.1

theorem not_isQuote_of_isLabelChar {c : Char} (h : isLabelChar c = true) : isQuote c = false := by
  simp only [isLabelChar, Bool.and_eq_true, bne_iff_ne] at h
  simp [isQuote, h.1.1.2, h.1.2]

/-- **A text has a label if it starts with a word, blanks and a colon**, and no line feed follows. -/
theorem splitLabel_eq_some_iff {text word rest : List Char} :
    splitLabel text = some (word, rest) ↔
      ∃ gap, text = word ++ gap ++ ':' :: rest ∧ word ≠ [] ∧
        (∀ c ∈ word, isLabelChar c = true) ∧ AllBlank gap ∧ '\n' ∉ rest := by
  constructor
  · intro found
    rw [splitLabel] at found
    split at found
    · next after shape =>
      split at found
      · cases found
      · next accepted =>
        simp only [Option.some.injEq, Prod.mk.injEq] at found
        obtain ⟨rfl, rfl⟩ := found
        -- the gap is what stands between the word and the colon
        simp only [Bool.or_eq_true, List.isEmpty_iff, List.contains_iff_mem, not_or] at accepted
        refine ⟨(text.dropWhile isLabelChar).takeWhile isBlank, ?_, accepted.1,
          fun _ mem => List.mem_takeWhile_imp mem, allBlank_takeWhile _, accepted.2⟩
        rw [List.append_assoc, ← shape, takeWhile_append_trimStart, List.takeWhile_append_dropWhile]
    · cases found
  · rintro ⟨gap, rfl, nonempty, isWord, blank, noFeed⟩
    have stops : ∀ c ∈ (gap ++ ':' :: rest).head?, isLabelChar c = false := by
      intro c mem
      cases gap with
      | nil =>
        simp only [List.nil_append, List.head?_cons, Option.mem_def, Option.some.injEq] at mem
        subst mem
        rfl
      | cons b gap =>
        simp only [List.cons_append, List.head?_cons, Option.mem_def, Option.some.injEq] at mem
        exact isLabelChar_of_isBlank (mem ▸ blank b List.mem_cons_self)
    obtain ⟨taken, dropped⟩ := takeWhile_append_of_stop isWord stops
    have colon : trimStart (gap ++ ':' :: rest) = ':' :: rest := by
      rw [trimStart_append blank, trimStart_cons (by decide)]
    rw [List.append_assoc, splitLabel, taken, dropped, colon]
    simp [nonempty, noFeed]

/-- Blanks at the end of a text do not change its label. -/
theorem splitLabel_append_iff {text trail word rest : List Char} (blank : AllBlank trail)
    (noFeed : '\n' ∉ trail) :
    splitLabel (text ++ trail) = some (word, rest) ↔
      ∃ first, splitLabel text = some (word, first) ∧ rest = first ++ trail := by
  simp only [splitLabel_eq_some_iff]
  constructor
  · rintro ⟨gap, shape, nonempty, isWord, blankGap, noFeedRest⟩
    -- the colon is no blank, so it stands in front of the blanks at the end
    have noColon : ':' ∉ trail := fun mem => isBlank_ne (blank ':' mem) (by decide) rfl
    rcases List.append_eq_append_iff.1 shape with ⟨more, -, inTrail⟩ | ⟨more, before, after⟩
    · exact absurd (inTrail ▸ List.mem_append_right more List.mem_cons_self) noColon
    · cases more with
      | nil =>
        rw [List.nil_append] at after
        exact absurd (after ▸ List.mem_cons_self) noColon
      | cons c first =>
        obtain ⟨rfl, rfl⟩ := List.cons.inj after
        exact ⟨first, ⟨gap, before, nonempty, isWord, blankGap,
          fun mem => noFeedRest (List.mem_append_left trail mem)⟩, rfl⟩
  · rintro ⟨first, ⟨gap, rfl, nonempty, isWord, blankGap, noFeedFirst⟩, rfl⟩
    refine ⟨gap, by simp, nonempty, isWord, blankGap, ?_⟩
    intro mem
    exact (List.mem_append.1 mem).elim noFeedFirst noFeed

/-! ## Statements -/

/-- The operands in the text behind a mnemonic. -/
def operandList (text : List Char) : List (List Char) :=
  if trimStart text = [] then [] else splitOperands text

/-- The statement with the given word and the given text behind it. -/
def statementOf (word operands : List Char) : Option Statement :=
  if word = [] then none else some ⟨upper word, operandList operands⟩

theorem splitOperands_trimStart (text : List Char) :
    splitOperands (trimStart text) = splitOperands text := by
  have between := splitOperands_between_blanks (allBlank_takeWhile text) (trimStart text)
    AllBlank.nil
  rw [takeWhile_append_trimStart, List.append_nil] at between
  exact between.symm

theorem Statement.parse_eq (text : List Char) :
    Statement.parse text = statementOf (text.takeWhile fun c => !isBlank c)
      (text.dropWhile fun c => !isBlank c) := by
  rw [Statement.parse, firstWord, statementOf, operandList]
  generalize text.takeWhile (fun c => !isBlank c) = word
  generalize text.dropWhile (fun c => !isBlank c) = operands
  rw [← splitOperands_trimStart operands]
  cases word with
  | nil => rfl
  | cons c word => cases trimStart operands <;> rfl

/-- The operands of a statement have no blanks at their ends. -/
theorem Statement.trimmed_of_parse {text : List Char} {statement : Statement}
    (parsed : Statement.parse text = some statement) :
    ∀ operand ∈ statement.operands, Trimmed operand := by
  rw [Statement.parse_eq, statementOf] at parsed
  split at parsed
  · cases parsed
  · cases parsed
    simp only [operandList]
    split
    · exact nofun
    · intro operand mem
      obtain ⟨piece, -, rfl⟩ := List.mem_map.1 mem
      exact trimmed_trim piece

theorem Line.trimmed_of_parse {raw : List Char} {statement : Statement}
    (parsed : (Line.parse raw).statement = some statement) :
    ∀ operand ∈ statement.operands, Trimmed operand := by
  rw [Line.parse] at parsed
  cases found : splitLabel (trim (stripComment raw)) with
  | none =>
    rw [found] at parsed
    exact Statement.trimmed_of_parse parsed
  | some parts =>
    rw [found] at parsed
    exact Statement.trimmed_of_parse parsed

/-- Blanks at the end of a text do not change the statement in it. -/
theorem Statement.parse_append {trail : List Char} (blank : AllBlank trail) (text : List Char) :
    Statement.parse (text ++ trail) = Statement.parse text := by
  have stop : trail.takeWhile (fun c => !isBlank c) = [] := by
    cases trail with
    | nil => rfl
    | cons b trail => simp [blank b List.mem_cons_self]
  -- the word ends in the text, or where the blanks begin
  have word : (text ++ trail).takeWhile (fun c => !isBlank c) =
      text.takeWhile fun c => !isBlank c := by
    rw [List.takeWhile_append]
    split
    · next whole =>
      rw [stop, List.append_nil]
      exact ((List.takeWhile_prefix _).eq_of_length whole).symm
    · rfl
  have operands : (text ++ trail).dropWhile (fun c => !isBlank c) =
      (text.dropWhile fun c => !isBlank c) ++ trail := by
    have joined := List.takeWhile_append_dropWhile (p := fun c => !isBlank c) (l := text ++ trail)
    have parts := List.takeWhile_append_dropWhile (p := fun c => !isBlank c) (l := text)
    rw [word] at joined
    have shared : (text.takeWhile fun c => !isBlank c) ++
        (text ++ trail).dropWhile (fun c => !isBlank c) =
        (text.takeWhile fun c => !isBlank c) ++ ((text.dropWhile fun c => !isBlank c) ++ trail) := by
      rw [joined, ← List.append_assoc, parts]
    exact List.append_cancel_left shared
  rw [Statement.parse_eq, Statement.parse_eq, word, operands]
  generalize text.dropWhile (fun c => !isBlank c) = rest
  -- blanks around a list of operands do not count
  have same : operandList (rest ++ trail) = operandList rest := by
    have list := splitOperands_between_blanks AllBlank.nil rest blank
    rw [List.nil_append] at list
    have empty : trimStart (rest ++ trail) = [] ↔ trimStart rest = [] := by
      simp only [trimStart, List.dropWhile_eq_nil_iff, List.mem_append]
      exact ⟨fun h c mem => h c (.inl mem), fun h c mem => mem.elim (h c) (blank c)⟩
    simp only [operandList, empty, list]
  rw [statementOf, statementOf, same]

theorem Statement.parse_trimEnd (text : List Char) :
    Statement.parse (trimEnd text) = Statement.parse text := by
  obtain ⟨trail, blank, shape⟩ := exists_eq_trimEnd_append text
  have same := Statement.parse_append blank (trimEnd text)
  rw [← shape] at same
  exact same.symm

/-! ## Sites -/

/-- A line cut into stretches: what stands in front of its mnemonic, the mnemonic as written, the
operand list with the blanks in front of it, and the comment. -/
structure Site where
  label : Option (List Char)
  front : List Char
  word : List Char
  operands : List Char
  tail : List Char

/-- The line without its comment. -/
def Site.code (s : Site) : List Char :=
  s.front ++ (s.word ++ s.operands)

/-- The whole line. -/
def Site.text (s : Site) : List Char :=
  s.code ++ s.tail

/-- A text without comment, from its statement on. -/
def body (code : List Char) : List Char :=
  match splitLabel (trimStart code) with
  | some (_, rest) => trimStart rest
  | none => trimStart code

/-- The stretches of a line. -/
def site (raw : List Char) : Site :=
  let code := stripComment raw
  let statement := body code
  { label := (splitLabel (trimStart code)).map Prod.fst
    front := code.take (code.length - statement.length)
    word := statement.takeWhile fun c => !isBlank c
    operands := statement.dropWhile fun c => !isBlank c
    tail := raw.drop code.length }

/-- What stands in front of a mnemonic: blanks, perhaps with a label and its colon. -/
inductive Front : Option (List Char) → List Char → Prop
  | blanks {lead : List Char} : AllBlank lead → Front none lead
  | label {lead name gap after : List Char} : AllBlank lead → name ≠ [] →
      (∀ c ∈ name, isLabelChar c = true) → AllBlank gap → AllBlank after →
      Front (some name) (lead ++ (name ++ gap ++ ':' :: after))

theorem opensNothing_of_isBlank {c : Char} (blank : isBlank c = true) : isQuote c = false ∧ c ≠ ';' :=
  ⟨not_isQuote_of_isBlank blank, isBlank_ne blank (by decide)⟩

theorem opensNothing_of_isLabelChar {c : Char} (h : isLabelChar c = true) : isQuote c = false ∧ c ≠ ';' := by
  refine ⟨not_isQuote_of_isLabelChar h, ?_⟩
  rintro rfl
  cases h

/-- Neither a quote nor a semicolon stands in front of a mnemonic. -/
theorem Front.mem {label : Option (List Char)} {front : List Char} (isFront : Front label front) :
    ∀ c ∈ front, isQuote c = false ∧ c ≠ ';' := by
  cases isFront with
  | blanks blank => exact fun c mem => opensNothing_of_isBlank (blank c mem)
  | @label lead name gap after blankLead _ isWord blankGap blankAfter =>
    intro c mem
    simp only [List.mem_append, List.mem_cons] at mem
    rcases mem with inLead | (inName | inGap) | rfl | inAfter
    · exact opensNothing_of_isBlank (blankLead c inLead)
    · exact opensNothing_of_isLabelChar (isWord c inName)
    · exact opensNothing_of_isBlank (blankGap c inGap)
    · decide
    · exact opensNothing_of_isBlank (blankAfter c inAfter)

/-- The stretches are those that a reader of the line finds. The word is one that could also be a
label. -/
structure Site.Sound (s : Site) : Prop where
  front : Front s.label s.front
  word : ∀ c ∈ s.word, isLabelChar c = true
  begun : s.word = [] → s.operands = []
  gap : ∀ c ∈ s.operands.head?, isBlank c = true
  noColon : s.label = none → ∀ more, trimStart s.operands ≠ ':' :: more
  noComment : NoComment s.code
  tail : IsTail s.code s.tail
  noFeed : '\n' ∉ s.text

/-- The text in front of a statement is what a reader skips. -/
theorem body_append_front {label : Option (List Char)} {front rest : List Char}
    (isFront : Front label front) (started : ∀ c ∈ rest.head?, isBlank c = false)
    (noFeed : '\n' ∉ front ++ rest) (noLabel : label = none → splitLabel rest = none) :
    (splitLabel (trimStart (front ++ rest))).map Prod.fst = label ∧ body (front ++ rest) = rest := by
  cases isFront with
  | blanks blank =>
    have start : trimStart (front ++ rest) = rest := by
      rw [trimStart_append blank, trimStart_of_first started]
    rw [body, start, noLabel rfl]
    exact ⟨rfl, rfl⟩
  | @label lead name gap after blankLead nonempty isWord blankGap blankAfter =>
    -- a label has no blank in front of it, whatever comes behind
    have begins : ∀ more, trimStart (name ++ more) = name ++ more := by
      intro more
      obtain ⟨c, name, rfl⟩ := List.exists_cons_of_ne_nil nonempty
      exact trimStart_cons (not_isBlank_of_isLabelChar (isWord c List.mem_cons_self)) _
    have start : trimStart (lead ++ (name ++ gap ++ ':' :: after) ++ rest) =
        name ++ gap ++ ':' :: (after ++ rest) := by
      rw [List.append_assoc, trimStart_append blankLead, List.append_assoc, List.append_assoc,
        begins, List.append_assoc]
      rfl
    have found : splitLabel (name ++ gap ++ ':' :: (after ++ rest)) = some (name, after ++ rest) := by
      refine splitLabel_eq_some_iff.2 ⟨gap, rfl, nonempty, isWord, blankGap, fun mem => ?_⟩
      refine noFeed ?_
      simp only [List.mem_append, List.mem_cons] at mem ⊢
      exact mem.imp (fun inAfter => .inr (.inr (.inr inAfter))) id
    rw [body, start, found]
    refine ⟨rfl, ?_⟩
    show trimStart (after ++ rest) = rest
    rw [trimStart_append blankAfter, trimStart_of_first started]

/-! ## From a site to its line and back -/

theorem Site.Sound.word_started {s : Site} (sound : s.Sound) :
    ∀ c ∈ (s.word ++ s.operands).head?, isBlank c = false := by
  intro c mem
  cases word : s.word with
  | nil =>
    rw [word, sound.begun word] at mem
    cases mem
  | cons d more =>
    rw [word] at mem
    simp only [List.cons_append, List.head?_cons, Option.mem_def, Option.some.injEq] at mem
    subst mem
    exact not_isBlank_of_isLabelChar (sound.word _ (word ▸ List.mem_cons_self))

theorem Site.Sound.no_label {s : Site} (sound : s.Sound) (none_label : s.label = none) :
    splitLabel (s.word ++ s.operands) = none := by
  have stops : ∀ c ∈ s.operands.head?, isLabelChar c = false :=
    fun c mem => isLabelChar_of_isBlank (sound.gap c mem)
  obtain ⟨taken, dropped⟩ := takeWhile_append_of_stop sound.word stops
  rw [splitLabel, taken, dropped]
  split
  -- a colon behind the word is what `noColon` excludes
  · next more shape => exact absurd shape (sound.noColon none_label more)
  · rfl

/-- **A sound site is the site of its line.** -/
theorem site_text {s : Site} (sound : s.Sound) : site s.text = s := by
  have code : stripComment s.text = s.code := stripComment_append sound.noComment sound.tail
  have noFeed : '\n' ∉ s.code := fun mem => sound.noFeed (List.mem_append_left _ mem)
  obtain ⟨label, statement⟩ := body_append_front sound.front sound.word_started noFeed
    sound.no_label
  have front : s.code.take (s.code.length - (s.word ++ s.operands).length) = s.front := by
    simp [Site.code]
  have tail : s.text.drop s.code.length = s.tail := List.drop_left
  -- the word has no blank, and the operands start with one
  have stays : ∀ c ∈ s.word, (!isBlank c) = true :=
    fun c mem => by simp [not_isBlank_of_isLabelChar (sound.word c mem)]
  have word : (s.word ++ s.operands).takeWhile (fun c => !isBlank c) = s.word ∧
      (s.word ++ s.operands).dropWhile (fun c => !isBlank c) = s.operands := by
    rw [List.takeWhile_append_of_pos stays, List.dropWhile_append_of_pos stays]
    have gap := sound.gap
    cases operands : s.operands with
    | nil => simp
    | cons b more =>
      have blank : isBlank b = true := gap b (by rw [operands]; rfl)
      simp [blank]
  have unfolded : site s.text =
      { label := (splitLabel (trimStart s.code)).map Prod.fst
        front := s.code.take (s.code.length - (body s.code).length)
        word := (body s.code).takeWhile fun c => !isBlank c
        operands := (body s.code).dropWhile fun c => !isBlank c
        tail := s.text.drop s.code.length } := by
    rw [site, code]
  rw [unfolded]
  have bodyEq : body s.code = s.word ++ s.operands := statement
  have labelEq : (splitLabel (trimStart s.code)).map Prod.fst = s.label := label
  rw [bodyEq, labelEq, front, tail, word.1, word.2]

/-- A text in front of its statement. -/
theorem exists_front (code : List Char) :
    ∃ front, Front ((splitLabel (trimStart code)).map Prod.fst) front ∧
      code = front ++ body code ∧
      (∀ c ∈ (body code).head?, isBlank c = false) ∧
      (splitLabel (trimStart code) = none → splitLabel (body code) = none) := by
  have lead := takeWhile_append_trimStart code
  -- blanks in front, and a label with its colon if there is one
  cases found : splitLabel (trimStart code) with
  | none =>
    have statement : body code = trimStart code := by rw [body, found]
    refine ⟨code.takeWhile isBlank, .blanks (allBlank_takeWhile code), ?_, ?_, fun _ => ?_⟩
    · rw [statement, lead]
    · rw [statement]
      exact first_trimStart code
    · rw [statement, found]
  | some parts =>
    obtain ⟨name, rest⟩ := parts
    have statement : body code = trimStart rest := by rw [body, found]
    obtain ⟨gap, shape, nonempty, isWord, blankGap, -⟩ := splitLabel_eq_some_iff.1 found
    refine ⟨_, .label (allBlank_takeWhile code) nonempty isWord blankGap (allBlank_takeWhile rest),
      ?_, ?_, fun impossible => by cases impossible⟩
    · rw [statement, List.append_assoc, List.append_assoc, List.cons_append,
        takeWhile_append_trimStart, ← shape, lead]
    · rw [statement]
      exact first_trimStart rest

/-- The stretches of a line are the line. -/
theorem code_site (raw : List Char) :
    (site raw).code = stripComment raw ∧ (site raw).text = raw ∧
      Front (site raw).label (site raw).front ∧
      (site raw).word ++ (site raw).operands = body (stripComment raw) := by
  obtain ⟨tail, -, -, shape⟩ := exists_eq_stripComment_append raw
  obtain ⟨front, isFront, split, -, -⟩ := exists_front (stripComment raw)
  have joined : (site raw).word ++ (site raw).operands = body (stripComment raw) :=
    List.takeWhile_append_dropWhile
  -- a front is found by its length, which is what the statement leaves
  have frontEq : (site raw).front = front := by
    have length := congrArg List.length split
    rw [List.length_append] at length
    show (stripComment raw).take ((stripComment raw).length - (body (stripComment raw)).length) = _
    rw [length, Nat.add_sub_cancel, split]
    exact List.take_left
  have code : (site raw).code = stripComment raw := by
    rw [Site.code, joined, frontEq, ← split]
  refine ⟨code, ?_, frontEq ▸ isFront, joined⟩
  rw [Site.text, code]
  have back : (site raw).tail = tail := by
    show raw.drop (stripComment raw).length = tail
    rw [show raw.drop (stripComment raw).length =
      (stripComment raw ++ tail).drop (stripComment raw).length from by rw [← shape]]
    exact List.drop_left
  rw [back, ← shape]

/-- The operand list starts with a blank. -/
theorem gap_site (raw : List Char) : ∀ c ∈ (site raw).operands.head?, isBlank c = true := by
  intro c mem
  have stopped := List.head?_dropWhile_not (fun c => !isBlank c) (body (stripComment raw))
  have operands : (site raw).operands =
      (body (stripComment raw)).dropWhile fun c => !isBlank c := rfl
  rw [operands] at mem
  rw [Option.mem_def] at mem
  rw [mem] at stopped
  simpa using stopped

/-- Without a mnemonic there are no operands, as a statement does not start with a blank. -/
theorem begun_site {raw : List Char} (noWord : (site raw).word = []) :
    (site raw).operands = [] := by
  obtain ⟨_, _, _, started, _⟩ := exists_front (stripComment raw)
  rw [← (code_site raw).2.2.2, noWord, List.nil_append] at started
  cases operands : (site raw).operands with
  | nil => rfl
  | cons d more =>
    have blank := gap_site raw d (by rw [operands]; rfl)
    rw [started d (by rw [operands]; rfl)] at blank
    cases blank

/-- A colon behind the mnemonic would make the mnemonic a label. -/
theorem noColon_site {raw : List Char} (noFeed : '\n' ∉ raw)
    (word : ∀ c ∈ (site raw).word, isLabelChar c = true) (noLabel : (site raw).label = none)
    (more : List Char) : trimStart (site raw).operands ≠ ':' :: more := by
  intro colon
  obtain ⟨-, text, -, statement⟩ := code_site raw
  obtain ⟨_, _, _, _, noLabelBody⟩ := exists_front (stripComment raw)
  have unlabelled := noLabelBody (Option.map_eq_none_iff.1 noLabel)
  rw [← statement] at unlabelled
  have nonempty : (site raw).word ≠ [] := by
    intro noWord
    rw [begun_site noWord] at colon
    cases colon
  have inOperands : ∀ c ∈ more, c ∈ (site raw).operands := by
    intro c mem
    rw [← takeWhile_append_trimStart (site raw).operands, colon]
    exact List.mem_append_right _ (List.mem_cons_of_mem _ mem)
  have noFeedMore : '\n' ∉ more := by
    intro mem
    refine noFeed ?_
    rw [← text, Site.text, Site.code]
    exact List.mem_append_left _ (List.mem_append_right _
      (List.mem_append_right _ (inOperands _ mem)))
  -- word, blanks and colon would be found as a label
  have found : splitLabel ((site raw).word ++ (site raw).operands) =
      some ((site raw).word, more) := by
    refine splitLabel_eq_some_iff.2 ⟨(site raw).operands.takeWhile isBlank, ?_, nonempty, word,
      allBlank_takeWhile _, noFeedMore⟩
    rw [List.append_assoc, ← colon, takeWhile_append_trimStart]
  rw [found] at unlabelled
  cases unlabelled

/-- **The site of a line is sound**, if its word could also be a label. -/
theorem sound_site {raw : List Char} (noFeed : '\n' ∉ raw)
    (word : ∀ c ∈ (site raw).word, isLabelChar c = true) : (site raw).Sound := by
  obtain ⟨code, text, isFront, -⟩ := code_site raw
  obtain ⟨tail, isTail, noComment, shape⟩ := exists_eq_stripComment_append raw
  -- the tail is what is left when the code is taken away
  have back : (site raw).tail = tail := by
    have same := text.trans shape
    rw [Site.text, code] at same
    exact List.append_cancel_left same
  exact
    { front := isFront
      word := word
      begun := begun_site
      gap := gap_site raw
      noColon := noColon_site noFeed word
      noComment := by rwa [code]
      tail := by rwa [code, back]
      noFeed := by rwa [text] }

/-! ## Reading a line from its site -/

/-- The statement of a line. -/
def Site.statement (s : Site) : Option Statement :=
  statementOf s.word s.operands

/-- **A line is read from its site.** -/
theorem parse_eq_site {raw : List Char} (noFeed : '\n' ∉ raw) :
    Line.parse raw =
      { raw, label := (site raw).label, statement := (site raw).statement } := by
  have noFeedCode : '\n' ∉ stripComment raw := by
    obtain ⟨tail, -, -, shape⟩ := exists_eq_stripComment_append raw
    intro mem
    rw [shape] at noFeed
    exact noFeed (List.mem_append_left tail mem)
  -- a reader trims both ends first, and a site keeps the blanks at the end
  obtain ⟨trail, blank, split⟩ := exists_eq_trimEnd_append (trimStart (stripComment raw))
  have core : trimEnd (trimStart (stripComment raw)) = trim (stripComment raw) := rfl
  rw [core] at split
  have noFeedTrail : '\n' ∉ trail := by
    intro mem
    refine noFeedCode ?_
    rw [← takeWhile_append_trimStart (stripComment raw), split]
    exact List.mem_append_right _ (List.mem_append_right _ mem)
  have statement : (site raw).statement = Statement.parse (body (stripComment raw)) :=
    (Statement.parse_eq _).symm
  rw [statement, Line.parse]
  split
  · next name first found =>
    have inWhole : splitLabel (trimStart (stripComment raw)) = some (name, first ++ trail) := by
      rw [split]
      exact (splitLabel_append_iff blank noFeedTrail).2 ⟨first, found, rfl⟩
    have label : (site raw).label = some name := by
      show (splitLabel (trimStart (stripComment raw))).map Prod.fst = some name
      rw [inWhole]
      rfl
    have behind : trim first = trimEnd (body (stripComment raw)) := by
      rw [body, inWhole, ← trim_append_right blank first]
      rfl
    rw [label, behind, Statement.parse_trimEnd]
  · next unlabelled =>
    have inWhole : splitLabel (trimStart (stripComment raw)) = none := by
      cases found : splitLabel (trimStart (stripComment raw)) with
      | none => rfl
      | some parts =>
        -- blanks at the end make no label
        rw [split] at found
        obtain ⟨first, inCore, -⟩ := (splitLabel_append_iff blank noFeedTrail).1 found
        rw [unlabelled] at inCore
        cases inCore
    have label : (site raw).label = none := by
      show (splitLabel (trimStart (stripComment raw))).map Prod.fst = none
      rw [inWhole]
      rfl
    have behind : trim (stripComment raw) = trimEnd (body (stripComment raw)) := by
      rw [body, inWhole]
      rfl
    rw [label, behind, Statement.parse_trimEnd]

/-! ## Lines without labels and comments -/

/-- A mnemonic with operands, as a line. -/
def written (word : List Char) (operands : List (List Char)) : List Char :=
  if operands.isEmpty then word else word ++ ' ' :: [',', ' '].intercalate operands

/-- The first operand of a list is where the list starts. -/
theorem exists_intercalate_eq_append (operand : List Char) (rest : List (List Char)) :
    ∃ more, [',', ' '].intercalate (operand :: rest) = operand ++ more := by
  cases rest with
  | nil => exact ⟨[], by simp⟩
  | cons next others =>
    exact ⟨',' :: ' ' :: [',', ' '].intercalate (next :: others), by simp [List.intercalate]⟩

/-- A word and a text behind it are a sound site, as there is no comment without quotes and
semicolons. -/
theorem sound_plain {word list : List Char} (isWord : ∀ c ∈ word, isLabelChar c = true)
    (nonempty : word ≠ []) (inList : ∀ c ∈ list, isQuote c = false ∧ c ≠ ';' ∧ c ≠ '\n')
    (gap : ∀ c ∈ list.head?, isBlank c = true) (noColon : ∀ more, trimStart list ≠ ':' :: more) :
    (⟨none, [], word, list, []⟩ : Site).Sound := by
  -- neither the word nor the list has a character that means anything but itself
  have inWord : ∀ c ∈ word, isQuote c = false ∧ c ≠ ';' ∧ c ≠ '\n' := by
    intro c mem
    have isLabel := isWord c mem
    refine ⟨(opensNothing_of_isLabelChar isLabel).1, (opensNothing_of_isLabelChar isLabel).2, ?_⟩
    rintro rfl
    cases isLabel
  have all : ∀ c ∈ [] ++ (word ++ list), isQuote c = false ∧ c ≠ ';' ∧ c ≠ '\n' := by
    intro c mem
    rw [List.nil_append] at mem
    exact (List.mem_append.1 mem).elim (inWord c) (inList c)
  have noQuote : NoQuote ([] ++ (word ++ list)) := fun c mem => (all c mem).1
  exact
    { front := .blanks AllBlank.nil
      word := isWord
      begun := fun noWord => absurd noWord nonempty
      gap := gap
      noColon := fun _ => noColon
      noComment := noQuote.noComment fun c mem => (all c mem).2.1
      tail := .inl rfl
      noFeed := fun mem => (all _ ((List.append_nil _).subst mem)).2.2 rfl }

/-- The site of a line that is only a mnemonic and operands. -/
theorem sound_written {word : List Char} {operands : List (List Char)}
    (isWord : ∀ c ∈ word, isLabelChar c = true) (nonempty : word ≠ [])
    (simple : ∀ operand ∈ operands, Simple operand) :
    ∃ list, written word operands = word ++ list ∧ operandList list = operands ∧
      (⟨none, [], word, list, []⟩ : Site).Sound := by
  -- with no operands the line is its word alone
  cases operands with
  | nil =>
    refine ⟨[], by simp [written], rfl, sound_plain isWord nonempty ?_ ?_ ?_⟩
    · simp
    · simp
    · intro more colon
      cases colon
  | cons operand rest =>
    have first := simple operand List.mem_cons_self
    -- neither the operands nor what joins them can end the line or open anything
    have inJoined : ∀ c ∈ [',', ' '].intercalate (operand :: rest),
        isQuote c = false ∧ c ≠ ';' ∧ c ≠ '\n' := by
      refine forall_mem_intercalate (by decide) (by decide) fun o inList c mem => ?_
      refine ⟨((simple o inList).mem mem).1, ((simple o inList).mem mem).2.1, ?_⟩
      rintro rfl
      cases (simple o inList).noBreak _ mem
    -- the first operand begins the list, and is not a colon
    obtain ⟨more, joined⟩ := exists_intercalate_eq_append operand rest
    obtain ⟨c, others, shape⟩ := List.exists_cons_of_ne_nil first.nonempty
    have start : trimStart (' ' :: [',', ' '].intercalate (operand :: rest)) =
        [',', ' '].intercalate (operand :: rest) := by
      rw [← List.singleton_append, trimStart_append allBlank_space, joined, shape, List.cons_append,
        trimStart_cons (first.trimmed.first c (by rw [shape]; rfl))]
    refine ⟨' ' :: [',', ' '].intercalate (operand :: rest), by simp [written], ?_,
      sound_plain isWord nonempty ?_ ?_ ?_⟩
    · rw [operandList, start, if_neg (by rw [joined, shape]; simp), ← splitOperands_trimStart, start,
        splitOperands_intercalate (by simp) fun o mem => (simple o mem).toLoose]
    · intro d mem
      rcases List.mem_cons.1 mem with rfl | inside
      · decide
      · exact inJoined d inside
    · intro d mem
      simp only [List.head?_cons, Option.mem_def, Option.some.injEq] at mem
      subst mem
      decide
    · intro after
      rw [start, joined]
      intro colon
      rw [shape, List.cons_append, List.cons.injEq] at colon
      exact first.noColon others (by rw [shape, colon.1])

/-- **A line that is only a mnemonic and operands is read as that.** -/
theorem parse_written {word : List Char} {operands : List (List Char)}
    (isWord : ∀ c ∈ word, isLabelChar c = true) (nonempty : word ≠ [])
    (simple : ∀ operand ∈ operands, Simple operand) :
    Line.parse (written word operands) =
      { raw := written word operands, statement := some ⟨upper word, operands⟩ } := by
  obtain ⟨list, shape, operandsEq, sound⟩ := sound_written isWord nonempty simple
  have text : (⟨none, [], word, list, []⟩ : Site).text = written word operands := by
    rw [shape, Site.text, Site.code, List.append_nil]
    rfl
  have noFeed := sound.noFeed
  have siteEq := site_text sound
  rw [text] at noFeed siteEq
  rw [parse_eq_site noFeed, siteEq, Site.statement, statementOf, if_neg nonempty, operandsEq]

/-- Every line break is a blank. -/
theorem isBlank_of_isLineBreak {c : Char} (breaks : isLineBreak c = true) : isBlank c = true := by
  simp only [isLineBreak, Bool.or_eq_true, beq_iff_eq, or_assoc] at breaks
  rcases breaks with rfl | rfl | rfl | rfl | rfl | rfl | rfl | rfl | rfl | rfl <;> decide

/-- A mnemonic and operands make a line that is not empty. -/
theorem line_written {word : List Char} {operands : List (List Char)}
    (isWord : ∀ c ∈ word, isLabelChar c = true) (nonempty : word ≠ [])
    (simple : ∀ operand ∈ operands, Simple operand) :
    NoBreak (written word operands) ∧ written word operands ≠ [] := by
  -- a word has no line break since every line break is a blank
  have inWord : NoBreak word := by
    intro c mem
    have notBlank := not_isBlank_of_isLabelChar (isWord c mem)
    by_contra breaks
    rw [Bool.not_eq_false] at breaks
    rw [isBlank_of_isLineBreak breaks] at notBlank
    cases notBlank
  have inJoined : ∀ c ∈ [',', ' '].intercalate operands, isLineBreak c = false :=
    forall_mem_intercalate (by decide) (by decide) fun operand mem => (simple operand mem).noBreak
  unfold written
  split
  · exact ⟨inWord, nonempty⟩
  · exact ⟨inWord.append (NoBreak.cons (by decide) inJoined), by simp⟩

end EightBit.Source
