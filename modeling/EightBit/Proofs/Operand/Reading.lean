import EightBit.Operand.Basic

/-!
# What Reading an Operand Comes To

A text is read as an operand, or something is wrong with it, or a number in it has too many digits;
the last of these needs a limit. What is wrong shows in the text alone, so it is never a label that
is defined nowhere. The operands that are read are in range: an offset is one that its register
allows.

## Main Definitions

- `Rejection.OfText`: the reasons that a text alone can give.
- `Reading`: the possible outcomes of reading a text.
- `Operand.InRange`: the offset of an operand, if it has one, is encoded without loss.

## Main Statements

- `classify_reading`: what reading an operand comes to.
-/

namespace EightBit

/-- A text alone gives this reason: it needs no knowledge of the labels, and an excess of digits
needs a limit. -/
def Rejection.OfText (limit : DigitLimit) : Rejection Problem → Prop
  | .wrong problem => problem.kind ≠ .undefinedLabel
  | .excess _ => limit ≠ none

section Reading

variable {limit : DigitLimit} {α β : Type} {P : α → Prop} {Q : β → Prop}

/-- The outcomes of reading a text: a value with the property, a problem, or an excess of digits if
there is a limit. -/
inductive Reading (limit : DigitLimit) (P : α → Prop) : Except (Rejection Problem) α → Prop
  | ok {value : α} (has : P value) : Reading limit P (.ok value)
  | wrong (problem : Problem) (own : problem.kind ≠ .undefinedLabel := by nofun) :
    Reading limit P (.error (.wrong problem))
  | excess (excess : Excess) (limited : limit ≠ none) : Reading limit P (.error (.excess excess))

theorem Reading.value {result : Except (Rejection Problem) α} (reading : Reading limit P result)
    {value : α} (isValue : result = .ok value) : P value := by
  cases isValue
  cases reading with
  | ok has => exact has

theorem Reading.ofText {result : Except (Rejection Problem) α} (reading : Reading limit P result)
    {rejection : Rejection Problem} (isError : result = .error rejection) :
    rejection.OfText limit := by
  cases isError
  cases reading with
  | wrong _ own => exact own
  | excess _ limited => exact limited

theorem Reading.bind {first : Except (Rejection Problem) α}
    {next : α → Except (Rejection Problem) β} (isFirst : Reading limit P first)
    (isNext : ∀ value, P value → Reading limit Q (next value)) :
    Reading limit Q (first >>= next) := by
  cases isFirst with
  | ok has => exact isNext _ has
  | wrong problem own => exact .wrong problem own
  | excess excess limited => exact .excess excess limited

theorem Reading.ite {p : Prop} [Decidable p] {left right : Except (Rejection Problem) α}
    (isLeft : p → Reading limit P left) (isRight : ¬p → Reading limit P right) :
    Reading limit P (if p then left else right) := by
  split
  · next holds => exact isLeft holds
  · next fails => exact isRight fails

/-- An action that succeeds without a limit. -/
theorem Reading.mapError {result : Except Excess α} {value : α}
    (unlimited : limit = none → result = .ok value) :
    Reading limit (fun _ => True) (result.mapError .excess) := by
  cases result with
  | ok value => exact .ok trivial
  | error excess => exact .excess excess fun none => nomatch unlimited none

/-- Texts that are read one after the other. -/
theorem Reading.mapM {f : α → Except (Rejection Problem) β} (isItem : ∀ a, Reading limit Q (f a))
    (items : List α) : Reading limit (fun values => ∀ value ∈ values, Q value) (items.mapM f) := by
  induction items with
  | nil => exact .ok nofun
  | cons item items ih =>
    rw [List.mapM_cons]
    refine .bind (isItem item) fun first hasFirst => .bind ih fun rest haveRest => .ok ?_
    exact List.forall_mem_cons.2 ⟨hasFirst, haveRest⟩

end Reading

namespace Operand

/-- An offset from a general register has five bits, one from the stack pointer eight, and the stack
pointer without offset is the only other form of it. -/
def InRange : Operand → Prop
  | .indirect (.general _) offset => -16 ≤ offset ∧ offset ≤ 15
  | .indirect .stack offset => offset = 0
  | .stackOffset offset => -128 ≤ offset ∧ offset ≤ 127
  | _ => True

variable {limit : DigitLimit}

-- Every reason below is shown by hand to be the text's own: a default is looked up anew wherever it is used.

theorem number_reading (text : List Char) :
    Reading limit (fun _ => True) (number limit text) :=
  .mapError fun unlimited => by rw [unlimited, Numeral.read_none]

theorem expression_reading (text : List Char) :
    Reading limit (fun _ => True) (expression limit text) :=
  .mapError fun unlimited => by rw [unlimited, Expression.read_none]

theorem immediateOf_reading (source : List Char) (value : Int) :
    Reading limit InRange (immediateOf source value) :=
  .ite (fun _ => .ok trivial) fun _ => .wrong _ nofun

/-- The register decides how far an offset may go. -/
theorem offsetFrom_reading (inner : List Char) (pointer : Pointer) (offset : Int) :
    Reading limit InRange (offsetFrom inner pointer offset) := by
  refine .ite (fun _ => .ite (fun range => .ok range) fun _ => .wrong _ nofun) fun notStack => ?_
  refine .ite (fun range => .ok ?_) fun _ => .wrong _ nofun
  cases pointer with
  | general register => exact range
  | stack => exact absurd rfl notStack

theorem classifyMemory_reading (inner : List Char) :
    Reading limit InRange (classifyMemory limit inner) := by
  -- a pointer alone, a pointer with an offset, a name or a number
  unfold classifyMemory
  split
  · next pointer _ =>
    refine .ok ?_
    cases pointer with
    | general register => exact ⟨by decide, by decide⟩
    | stack => exact rfl
  · split
    · refine .bind (number_reading _) fun value _ => ?_
      cases value with
      | none => exact .wrong _ nofun
      | some value => exact offsetFrom_reading _ _ _
    · refine .bind (number_reading _) fun value _ => ?_
      cases value with
      | some value => exact .ite (fun _ => .ok trivial) fun _ => .wrong _ nofun
      | none => exact .ite (fun _ => .ok trivial) fun _ => .wrong _ nofun

theorem classifyText_reading (source : List Char) :
    Reading limit InRange (classifyText source) :=
  .ite (fun _ => .wrong _ nofun) fun _ => .ite (fun _ => .wrong _ nofun) fun _ => .ok trivial

theorem classifyCharacter_reading (source : List Char) :
    Reading limit InRange (classifyCharacter source) := by
  unfold classifyCharacter
  split
  · exact .ite (fun _ => .wrong _ nofun) fun _ => .ok trivial
  · exact .wrong _ nofun

theorem classifyWord_reading (source : List Char) :
    Reading limit InRange (classifyWord limit source) := by
  unfold classifyWord
  split
  · exact .wrong _ nofun
  · exact .ok trivial
  · refine .ite (fun _ => .ok trivial) fun _ => .bind (number_reading _) fun value _ => ?_
    cases value with
    | some value => exact immediateOf_reading _ _
    | none => exact .wrong _ nofun

/-- **What reading an operand comes to**: an operand in range, a problem, or an excess of digits. -/
theorem classify_reading (source : List Char) :
    Reading limit InRange (classify limit source) := by
  unfold classify
  split
  · exact .wrong _ nofun
  · exact .ite (fun _ => classifyMemory_reading _) fun _ => .wrong _ nofun
  · exact classifyText_reading _
  · refine .bind (expression_reading _) fun value _ => ?_
    cases value with
    | some value => exact immediateOf_reading _ _
    -- what is no expression is a character if it is in quotes, and a word otherwise
    | none => exact .ite (fun _ => classifyCharacter_reading _) fun _ => classifyWord_reading _

end Operand

end EightBit
