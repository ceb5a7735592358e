import EightBit.Proofs.Machine.Comparison

/-!
# Shifts in Two Parts

A shift by some places and then by some more comes to the same as one shift by all of them, in the
result and in all flags. In between the result is cut to a byte, while the carry of a shift is taken
from a number that is not cut; no bit that was cut off would come to stand where the carry is read.

For the processor this needs the fault flag to be clear: an instruction that completes with the fault
flag set stops the processor, so the second shift would not be executed.

## Main Definitions

- `ShiftsBy`: the next instruction shifts a register by a number of places.

## Main Statements

- `Alu.shl_eq`: a shift to the left, with no bound on the places that are taken.
- `Shift.eval?_add`: the operation in two parts.
- `shifted_of_step`: what a step leaves that shifts.
- `shifts_compose`: two instructions and one.
-/

namespace EightBit

/-! ## Numbers and their low bytes -/

/-- A number that is cut to a byte before it is multiplied has the same low byte afterwards. -/
theorem emod_mul_emod (x y : Int) : x % 256 * y % 256 = x * y % 256 := by
  rw [Int.mul_emod, Int.emod_emod, ← Int.mul_emod]

/-- Zero and sign are those of the low byte. -/
theorem Flags.ofResult_congr {x y : Int} (same : x % 256 = y % 256) :
    Flags.ofResult x = Flags.ofResult y := by
  rw [ofResult, ofResult, Bits.bit_seven, Bits.bit_seven, same]

/-- Eight places to the left, nothing of a number is left in the low byte. -/
theorem mul_two_pow_emod (a : Int) {count : Nat} (far : 8 ≤ count) : a * 2 ^ count % 256 = 0 := by
  obtain ⟨more, rfl⟩ := Nat.exists_eq_add_of_le far
  rw [pow_add, ← mul_assoc, mul_right_comm]
  exact Int.mul_emod_left _ 256

namespace Alu

/-! ## Shifts without bounds -/

/-- **A shift to the left takes all of its places.** Ten places or more come to the same as nine. -/
theorem shl_eq (a : Int) (count : Nat) :
    shl a count = ⟨a * 2 ^ count % 256,
      { Flags.ofResult (a * 2 ^ count) with carry := Bits.bit 7 (a * 2 ^ (count - 1)) }⟩ := by
  have power : ∀ places, Int.pow 2 places = 2 ^ places := fun _ => rfl
  rw [shl, power, power]
  rcases Nat.le_total count 9 with near | far
  · rw [Nat.min_eq_left near]
  · have same : a * 2 ^ 9 % 256 = a * 2 ^ count % 256 := by
      rw [mul_two_pow_emod a (by omega), mul_two_pow_emod a (by omega)]
    have lastBit : a * 2 ^ (9 - 1) % 256 = a * 2 ^ (count - 1) % 256 := by
      rw [mul_two_pow_emod a (by omega), mul_two_pow_emod a (by omega)]
    rw [Nat.min_eq_right far, same, Flags.ofResult_congr same, Bits.bit_seven, lastBit,
      ← Bits.bit_seven]

/-- A shift to the left in two parts. The byte in between has the bits that the rest of the shift can
bring to the carry. -/
theorem shl_shl (a : Int) (first : Nat) {second : Nat} (positive : 1 ≤ second) :
    shl (shl a first).value second = shl a (first + second) := by
  have cut : ∀ places, a * 2 ^ first % 256 * 2 ^ places % 256 = a * 2 ^ (first + places) % 256 := by
    intro places
    rw [emod_mul_emod, mul_assoc, ← pow_add]
  have last : first + second - 1 = first + (second - 1) := by omega
  rw [shl_eq a first, shl_eq, shl_eq, cut, Flags.ofResult_congr (cut second), Bits.bit_seven, cut,
    ← last, ← Bits.bit_seven]

/-- A byte that is shifted to the right is a byte. -/
theorem shiftRight_byte {a : Int} (byte : 0 ≤ a ∧ a < 256) (count : Nat) :
    0 ≤ a >>> count ∧ a >>> count < 256 := by
  rw [Int.shiftRight_eq_div_pow]
  have positive : (0 : Int) < (2 ^ count : Nat) := by exact_mod_cast Nat.two_pow_pos count
  refine ⟨Int.ediv_nonneg byte.1 positive.le, ?_⟩
  exact lt_of_le_of_lt (Int.ediv_le_self _ byte.1) byte.2

/-- A shift to the right in two parts. -/
theorem shr_shr {a : Int} (byte : 0 ≤ a ∧ a < 256) (first : Nat) {second : Nat}
    (positive : 1 ≤ second) : shr (shr a first).value second = shr a (first + second) := by
  obtain ⟨low, high⟩ := shiftRight_byte byte first
  have whole : (shr a first).value = a >>> first := Int.emod_eq_of_lt low high
  have last : first + second - 1 = first + (second - 1) := by omega
  rw [whole, shr, shr, last, Int.shiftRight_add, Int.shiftRight_add]

end Alu

namespace Shift

variable {a count : Int}

theorem eval?_left (positive : 1 ≤ count) : left.eval? a count = some (Alu.shl a count.toNat) :=
  if_neg (by omega)

theorem eval?_right (positive : 1 ≤ count) : right.eval? a count = some (Alu.shr a count.toNat) :=
  if_neg (by omega)

/-- The result of a shift is a byte. -/
theorem value_of_eval? {direction : Shift} {outcome : Outcome}
    (evaluated : direction.eval? a count = some outcome) :
    0 ≤ outcome.value ∧ outcome.value < 256 := by
  have cut : ∀ x : Int, 0 ≤ x % 256 ∧ x % 256 < 256 := by omega
  unfold eval? at evaluated
  split at evaluated
  · cases evaluated
  · cases direction with
    | left =>
      obtain rfl := Option.some.inj evaluated
      exact cut _
    | right =>
      obtain rfl := Option.some.inj evaluated
      exact cut _

/-- **A shift in two parts** comes to the same as the whole shift, in the byte and in all flags. -/
theorem eval?_add (direction : Shift) {first second : Int} (byte : 0 ≤ a ∧ a < 256)
    (firstPositive : 1 ≤ first) (secondPositive : 1 ≤ second) :
    ∃ middle outcome, direction.eval? a first = some middle ∧
      (0 ≤ middle.value ∧ middle.value < 256) ∧
      direction.eval? middle.value second = some outcome ∧
      direction.eval? a (first + second) = some outcome := by
  have whole : (first + second).toNat = first.toNat + second.toNat := by omega
  have places : 1 ≤ second.toNat := by omega
  cases direction with
  | left =>
    refine ⟨_, _, eval?_left firstPositive, value_of_eval? (eval?_left firstPositive),
      eval?_left secondPositive, ?_⟩
    rw [eval?_left (by omega), whole, Alu.shl_shl a first.toNat places]
  | right =>
    refine ⟨_, _, eval?_right firstPositive, value_of_eval? (eval?_right firstPositive),
      eval?_right secondPositive, ?_⟩
    rw [eval?_right (by omega), whole, Alu.shr_shr byte first.toNat places]

end Shift

namespace Machine

variable {σ : Type} {env : Env σ}

/-! ## Shifts as instructions -/

/-- The next instruction shifts a register by a number of places, whatever its operand is. -/
def ShiftsBy (regs : Registers) (memory : Memory) (direction : Shift) (register : Register)
    (count : UInt8) : Prop :=
  ∃ right, Fetches regs memory (.shift direction right) ∧
    Names regs memory (.shift direction right) 0 register ∧
    Values regs memory (.shift direction right) 1 count

/-- A shift by a number that stands in the code. -/
theorem shiftsBy_of_holds {regs : Registers} {memory : Memory} {direction : Shift}
    {register : Register} {count : UInt8} {rest : List UInt8}
    (there : memory.Holds regs.ip (UInt8.ofNat (Instr.shift direction .immediate).opcode ::
      UInt8.ofNat register.index :: count :: rest)) :
    ShiftsBy regs memory direction register count := by
  refine ⟨.immediate, fetches_of_holds there, ⟨_, hasOperand_of_holds there.tail rfl rfl, ?_⟩,
    ⟨.immediate, count, hasOperand_of_holds there.tail rfl rfl, rfl⟩⟩
  cases register <;> rfl

section Executes

variable {regs now : Registers} {memory after : Memory} {direction : Shift} {right : Right}
  {register : Register} {count : UInt8}
  (named : Names regs memory (.shift direction right) 0 register)
  (counts : Values regs memory (.shift direction right) 1 count)
include named counts

/-- Nothing stops a shift whose operands have values. -/
theorem not_breaks_shift {failure : Failure} :
    ¬Breaks env regs memory (.shift direction right) failure now after := by
  intro breaks
  have noStore : ∀ {address value},
      ¬Stores regs memory (.shift direction right) address value := by
    intro address value stores
    cases stores with
    | push pushes => cases pushes
  -- each of the two operands has a value
  have operands : ∀ {index}, index < (Instr.shift direction right).shapes.length →
      ∃ value, Values regs memory (.shift direction right) index value := by
    intro index within
    obtain rfl | rfl : index = 0 ∨ index = 1 := by
      have two : (Instr.shift direction right).shapes.length = 2 := rfl
      omega
    · exact ⟨_, named.value⟩
    · exact ⟨_, counts⟩
  cases breaks with
  | short within beyond before =>
    obtain ⟨value, shape, code, is, -⟩ := operands within
    have inside := Memory.inside_of_load is.byte
    omega
  | operand is lacks =>
    obtain ⟨value, shape, code, known, has⟩ :=
      operands (List.getElem?_eq_some_iff.1 is.slot).1
    obtain ⟨rfl, rfl⟩ := is.unique known
    rw [lacks] at has
    cases has
  | divisor is zero => cases is
  | outside stores lacks => exact noStore stores
  | refused stores inside refuses => exact noStore stores
  | overflow pushes inside full => exact noStore (.push pushes)
  | nothingOnTop popping lacks => cases popping
  | underflow popping empty => cases popping
  | port is raises => rcases is with is | is <;> cases is

/-- A shift changes its register and the flags. -/
theorem shifted_of_executes {outcome : Outcome}
    (evaluated : direction.eval? (regs.get register).toNat count.toNat = some outcome)
    (executes : Executes env regs memory (.shift direction right) now after) :
    now = ((regs.set register (Bits.toByte outcome.value)).withFlags outcome.flags).past
        (.shift direction right) ∧ after = memory := by
  cases executes with
  | shift left operand result =>
    obtain rfl := named.unique left
    obtain rfl := counts.unique operand
    obtain rfl := Option.some.inj (evaluated.symm.trans result)
    exact ⟨rfl, rfl⟩
  | shiftByZero left operand result =>
    obtain rfl := named.unique left
    obtain rfl := counts.unique operand
    rw [evaluated] at result
    cases result

end Executes

/-- **A step that shifts** completes, and changes the register and the flags. The processor can go on
if the fault flag is clear. -/
theorem shifted_of_step {m : Machine σ} {direction : Shift} {register : Register} {count : UInt8}
    (ready : m.cpu.mode = .ready)
    (shifts : ShiftsBy m.cpu.regs m.memory direction register count) {outcome : Outcome}
    (evaluated : direction.eval? (m.cpu.regs.get register).toNat count.toNat = some outcome) :
    ∃ after, step env m = .ok () after ∧
      after.cpu.regs.get register = Bits.toByte outcome.value ∧
      after.cpu.regs.sr = Status.setFlags m.cpu.regs.sr outcome.flags ∧
      (Status.fault m.cpu.regs.sr = false → after.cpu.mode = .ready) := by
  -- a shift asks for nothing outside, so it is what it would be with no devices
  obtain ⟨right, fetches, named, counts⟩ := shifts
  have silently : step env m = step silent m := step_eq_silent ready fetches rfl
  obtain ⟨after, ran⟩ := exists_step bystander_silent ready fetches fun _ _ _ =>
    not_breaks_shift named counts
  obtain ⟨regs, -⟩ := shifted_of_executes named counts evaluated
    (step_executes bystander_silent ready fetches ran)
  have status : after.cpu.regs.sr = Status.setFlags m.cpu.regs.sr outcome.flags := by
    rw [regs, Registers.sr_past, Registers.withFlags, Registers.sr_set]
  refine ⟨after, silently.trans ran, ?_, status, fun clear => ?_⟩
  · rw [regs, Registers.get_past, Registers.get_withFlags, Registers.get_set_self]
  -- it is not a halt, so that the mode depends on the fault flag alone
  · have running : Instr.shift direction right ≠ .halt := by
      intro isHalt
      cases isHalt
    rw [mode_of_completed bystander_silent ready fetches running ran, status,
      Status.fault_setFlags, clear]
    rfl

/-- **Shifts compose.** As operations, two shifts are one, for all counts of one or more. As
instructions they are one as well, if the processor is ready and its fault flag is clear: the register
and the status are the same behind both. -/
theorem shifts_compose (direction : Shift) :
    (∀ (a : UInt8) (first second : Int), 1 ≤ first → 1 ≤ second →
      ∃ middle outcome, direction.eval? a.toNat first = some middle ∧
        (0 ≤ middle.value ∧ middle.value < 256) ∧
        direction.eval? middle.value second = some outcome ∧
        direction.eval? a.toNat (first + second) = some outcome) ∧
    ∀ (m : Machine σ) (register : Register) (first second total : UInt8),
      m.cpu.mode = .ready → Status.fault m.cpu.regs.sr = false →
      1 ≤ first.toNat → 1 ≤ second.toNat → total.toNat = first.toNat + second.toNat →
      ShiftsBy m.cpu.regs m.memory direction register first →
      ∃ middle, step env m = .ok () middle ∧
        (ShiftsBy middle.cpu.regs middle.memory direction register second →
          ∃ after, step env middle = .ok () after ∧
            ∀ once : Machine σ, once.cpu.mode = .ready → once.cpu.regs = m.cpu.regs →
              ShiftsBy once.cpu.regs once.memory direction register total →
              ∃ done, step env once = .ok () done ∧
                done.cpu.regs.get register = after.cpu.regs.get register ∧
                done.cpu.regs.sr = after.cpu.regs.sr) := by
  have byte : ∀ a : UInt8, 0 ≤ (a.toNat : Int) ∧ (a.toNat : Int) < 256 := fun a =>
    ⟨Int.natCast_nonneg _, by exact_mod_cast a.toNat_lt⟩
  refine ⟨fun a first second => direction.eval?_add (byte a), ?_⟩
  intro m register first second total ready clear firstPositive secondPositive sum firstShifts
  obtain ⟨part, outcome, isPart, isByte, isRest, isWhole⟩ :=
    direction.eval?_add (byte (m.cpu.regs.get register))
      (show 1 ≤ (first.toNat : Int) by omega) (show 1 ≤ (second.toNat : Int) by omega)
  obtain ⟨middle, firstRan, value, status, readyMiddle⟩ := shifted_of_step ready firstShifts isPart
  refine ⟨middle, firstRan, fun secondShifts => ?_⟩
  -- the register holds the result of the first shift, which is a byte
  have held : ((middle.cpu.regs.get register).toNat : Int) = part.value := by
    rw [value]
    exact (Bits.toNat_toByte part.value).trans (Int.emod_eq_of_lt isByte.1 isByte.2)
  rw [← held] at isRest
  obtain ⟨after, secondRan, valueAfter, statusAfter, -⟩ :=
    shifted_of_step (readyMiddle clear) secondShifts isRest
  refine ⟨after, secondRan, fun once readyOnce same onceShifts => ?_⟩
  have isOnce : direction.eval? (once.cpu.regs.get register).toNat total.toNat = some outcome := by
    rw [same, sum, Int.natCast_add]
    exact isWhole
  obtain ⟨done, ran, valueDone, statusDone, -⟩ := shifted_of_step readyOnce onceShifts isOnce
  refine ⟨done, ran, valueDone.trans valueAfter.symm, ?_⟩
  rw [statusDone, statusAfter, status, Status.setFlags_setFlags, same]

/-- A machine that is about to shift `BL` to the left in two parts. -/
def shifting : Machine Unit :=
  { cpu := { regs := { bl := 0x81, sr := 2 } }
    memory := beginning [75, 1, 3, 75, 1, 4]
    notes := () }

/-- The bits of `BL` leave the byte, the last one into the carry. -/
theorem shifts_compose_left :
    ∃ middle after done : Machine Unit,
      step alone shifting = .ok () middle ∧ step alone middle = .ok () after ∧
      step alone { shifting with memory := beginning [75, 1, 7] } = .ok () done ∧
      done.cpu.regs.get .bl = after.cpu.regs.get .bl ∧ done.cpu.regs.sr = after.cpu.regs.sr := by
  -- the three shifts are three programs, one of which stands for the other two
  have firstShifts : ShiftsBy shifting.cpu.regs shifting.memory .left .bl 3 :=
    shiftsBy_of_holds (show shifting.memory.Holds shifting.cpu.regs.ip [75, 1, 3] by decide +kernel)
  obtain ⟨middle, firstRan, next⟩ := (shifts_compose .left).2 shifting .bl 3 4 7 rfl rfl
    (by decide) (by decide) (by decide) firstShifts
  obtain ⟨other, again, there⟩ := exists_of_leadsTo alone shifting
    (fun middle => decide (middle.memory.Holds middle.cpu.regs.ip [75, 1, 4])) (by decide +kernel)
  obtain ⟨-, rfl⟩ := EStateM.Result.ok.inj (again.symm.trans firstRan)
  obtain ⟨after, secondRan, together⟩ := next (shiftsBy_of_holds (of_decide_eq_true there))
  have whole : (beginning [75, 1, 7]).Holds shifting.cpu.regs.ip [75, 1, 7] := by decide +kernel
  obtain ⟨done, ran, value, status⟩ :=
    together { shifting with memory := beginning [75, 1, 7] } rfl rfl (shiftsBy_of_holds whole)
  exact ⟨other, after, done, firstRan, secondRan, ran, value, status⟩

/-- With the fault flag set, the first of two shifts completes and stops the processor, so the second
one is not executed. -/
theorem exists_shift_not_composed :
    ¬∀ (m once : Machine Unit) (direction : Shift) (register : Register)
        (first second total : UInt8), m.cpu.mode = .ready → once.cpu.mode = .ready →
      once.cpu.regs = m.cpu.regs → 1 ≤ first.toNat → 1 ≤ second.toNat →
      total.toNat = first.toNat + second.toNat →
      ShiftsBy m.cpu.regs m.memory direction register first →
      ShiftsBy once.cpu.regs once.memory direction register total →
      ∃ middle, step alone m = .ok () middle ∧
        (ShiftsBy middle.cpu.regs middle.memory direction register second →
          ∃ after done, step alone middle = .ok () after ∧ step alone once = .ok () done ∧
            done.cpu.regs.get register = after.cpu.regs.get register ∧
            done.cpu.regs.sr = after.cpu.regs.sr) := by
  -- the fault flag is set at first, so that the processor has faulted behind the first shift
  intro claim
  let m : Machine Unit :=
    { cpu := { regs := { al := 1, sr := 1 } }, memory := beginning [75, 0, 1, 75, 0, 1], notes := () }
  let once : Machine Unit := { m with memory := beginning [75, 0, 2] }
  obtain ⟨middle, firstRan, next⟩ := claim m once .left .al 1 1 2 rfl rfl rfl (by decide) (by decide)
    (by decide)
    (shiftsBy_of_holds (show m.memory.Holds m.cpu.regs.ip [75, 0, 1] by decide +kernel))
    (shiftsBy_of_holds (show once.memory.Holds once.cpu.regs.ip [75, 0, 2] by decide +kernel))
  obtain ⟨other, again, checked⟩ := exists_of_leadsTo alone m
    (fun middle => decide (middle.memory.Holds middle.cpu.regs.ip [75, 0, 1]) &&
      faultsWith alone middle fun _ _ => true) (by decide +kernel)
  -- the step in between is the one that was computed
  obtain ⟨-, rfl⟩ := EStateM.Result.ok.inj (again.symm.trans firstRan)
  rw [Bool.and_eq_true] at checked
  obtain ⟨after, done, secondRan, -⟩ := next (shiftsBy_of_holds (of_decide_eq_true checked.1))
  obtain ⟨fault, stopped, failed, -⟩ := exists_of_faultsWith alone other _ checked.2
  rw [failed] at secondRan
  cases secondRan

end Machine

end EightBit
