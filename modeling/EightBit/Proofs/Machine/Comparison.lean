import EightBit.Proofs.Assembly.Meaning
import EightBit.Proofs.Machine.Boundaries
import EightBit.Proofs.Machine.Frame
import EightBit.Proofs.Machine.Progress

/-!
# Comparing and Jumping

A comparison leaves nothing behind but flags, and a conditional jump looks at nothing but flags. Put
together they compare two bytes: the flags of a difference tell whether it was below zero, whether it
is zero, and what the top bit of its low byte is, and each condition asks for one of the comparisons
that can be told from that. Bytes are compared as numbers without sign.

The two lines may stand anywhere in a source that assembles, and the machine may be anything that has
their bytes at the instruction pointer. Neither instruction asks observers or devices.

## Main Definitions

- `Comparison`, `Comparison.Holds`: the comparisons, and what they say of two bytes.
- `Comparison.condition`, `Comparison.names`: the condition for a comparison, and its mnemonics.

## Main Statements

- `holds_withFlags_sub_iff`: what a condition says behind a comparison.
- `compare_and_jump`: two assembled lines that compare and jump.
-/

namespace EightBit

/-! ## Comparisons -/

/-- The comparisons that a conditional jump can make. -/
inductive Comparison
  | below
  | notBelow
  | equal
  | notEqual
  | above
  | notAbove
  | negative
  | notNegative
  deriving DecidableEq, Repr

namespace Comparison

/-- What a comparison says of two bytes. The last two look at the low byte of their difference. -/
def Holds (a b : UInt8) : Comparison → Prop
  | .below => a < b
  | .notBelow => b ≤ a
  | .equal => a = b
  | .notEqual => a ≠ b
  | .above => b < a
  | .notAbove => a ≤ b
  | .negative => 128 ≤ ((a.toNat : Int) - b.toNat) % 256
  | .notNegative => ((a.toNat : Int) - b.toNat) % 256 < 128

instance (a b : UInt8) : (test : Comparison) → Decidable (test.Holds a b)
  | .below => inferInstanceAs (Decidable (a < b))
  | .notBelow => inferInstanceAs (Decidable (b ≤ a))
  | .equal => inferInstanceAs (Decidable (a = b))
  | .notEqual => inferInstanceAs (Decidable (a ≠ b))
  | .above => inferInstanceAs (Decidable (b < a))
  | .notAbove => inferInstanceAs (Decidable (a ≤ b))
  | .negative => inferInstanceAs (Decidable (128 ≤ ((a.toNat : Int) - b.toNat) % 256))
  | .notNegative => inferInstanceAs (Decidable (((a.toNat : Int) - b.toNat) % 256 < 128))

/-- The condition that tells whether a comparison holds. -/
def condition : Comparison → Condition
  | .below => .carry
  | .notBelow => .notCarry
  | .equal => .zero
  | .notEqual => .notZero
  | .above => .above
  | .notAbove => .notAbove
  | .negative => .sign
  | .notNegative => .notSign

/-- The mnemonics of the jumps that make a comparison. -/
def names : Comparison → List String
  | .below => ["JC", "JB"]
  | .notBelow => ["JNC", "JNB", "JAE"]
  | .equal => ["JZ", "JE"]
  | .notEqual => ["JNZ", "JNE"]
  | .above => ["JA", "JNBE"]
  | .notAbove => ["JNA", "JBE"]
  | .negative => ["JS"]
  | .notNegative => ["JNS"]

/-- Each of its names stands for the condition of a comparison. -/
theorem canonical_of_mem_names {test : Comparison} {name : String} (named : name ∈ test.names) :
    Instr.canonical name = test.condition.mnemonic ∧ name ∈ Instr.mnemonics := by
  have checked : test.names.all (fun name => Instr.canonical name == test.condition.mnemonic &&
      Instr.mnemonics.contains name) = true := by
    cases test <;> decide +kernel
  simpa using List.all_eq_true.1 checked name named

end Comparison

/-! ## Flags -/

/-- Bit 7 of a number is the sign of its low byte. -/
theorem Bits.bit_seven (value : Int) : bit 7 value = decide (128 ≤ value % 256) := by
  have power : Int.pow 2 7 = 128 := rfl
  rw [bit, power, Bool.eq_iff_iff, beq_iff_eq, decide_eq_true_iff]
  omega

/-- **What a condition says behind a comparison.** -/
theorem Registers.holds_withFlags_sub_iff (regs : Registers) (test : Comparison) (a b : UInt8) :
    (regs.withFlags (Alu.sub a.toNat b.toNat).flags).holds test.condition = true ↔ test.Holds a b := by
  have smallLeft : a.toNat < 256 := a.toNat_lt
  have smallRight : b.toNat < 256 := b.toNat_lt
  -- the three flags that conditions look at, as facts about the two numbers
  have carry : Status.carry (regs.withFlags (Alu.sub a.toNat b.toNat).flags).sr =
      decide ((a.toNat : Int) < b.toNat) := Status.carry_setFlags ..
  have zero : Status.zero (regs.withFlags (Alu.sub a.toNat b.toNat).flags).sr =
      decide (((a.toNat : Int) - b.toNat) % 256 = 0) := by
    refine (Status.zero_setFlags ..).trans ?_
    rw [Bool.eq_iff_iff, decide_eq_true_iff]
    exact beq_iff_eq
  have sign : Status.sign (regs.withFlags (Alu.sub a.toNat b.toNat).flags).sr =
      decide (128 ≤ ((a.toNat : Int) - b.toNat) % 256) :=
    (Status.sign_setFlags ..).trans (Bits.bit_seven _)
  cases test <;>
    simp only [Comparison.condition, Comparison.Holds, holds, carry, zero, sign, Bool.not_eq_true',
      Bool.and_eq_true, Bool.or_eq_true, decide_eq_true_iff, decide_eq_false_iff_not,
      UInt8.lt_iff_toNat_lt, UInt8.le_iff_toNat_le, ne_eq, ← UInt8.toNat_inj] <;>
    omega

/-! ## Lines that compare and jump -/

namespace Instr

/-- What is found by the name of the comparison compares a register with its right operand. -/
theorem exists_compare_of_lookup {shapes : List Shape} {instr : Instr}
    (found : lookup? "CMP" shapes = some instr) :
    ∃ right, instr = .compare right ∧
      List.Forall₂ (fun shape expected => shape ∈ slot true expected) shapes [.register, right.shape] := by
  obtain ⟨mnemonic, spelled⟩ := lookup?_eq_some_iff.1 found
  have listed : all.filter (·.mnemonic == canonical "CMP") = overRight .compare := by decide +kernel
  have member := mem_filter_mnemonic mnemonic
  rw [listed] at member
  obtain ⟨right, rfl⟩ : ∃ right, instr = .compare right := by
    simp only [overRight, List.mem_cons, List.not_mem_nil, or_false] at member
    rcases member with rfl | rfl | rfl | rfl <;> exact ⟨_, rfl⟩
  exact ⟨right, rfl, forall₂_of_mem_spellings spelled nofun⟩

/-- What is found by a name of a comparison jumps on its condition. -/
theorem exists_jump_of_lookup {test : Comparison} {name : String} (named : name ∈ test.names)
    {shapes : List Shape} {instr : Instr} (found : lookup? name shapes = some instr) :
    ∃ destination, instr = .jump test.condition destination ∧
      List.Forall₂ (fun shape expected => shape ∈ slot true expected) shapes [destination.shape] := by
  obtain ⟨mnemonic, spelled⟩ := lookup?_eq_some_iff.1 found
  rw [(Comparison.canonical_of_mem_names named).1] at mnemonic
  have listed : all.filter (·.mnemonic == test.condition.mnemonic) =
      overDestination (.jump test.condition) := by
    cases test <;> decide +kernel
  have member := mem_filter_mnemonic mnemonic
  rw [listed] at member
  obtain ⟨destination, rfl⟩ : ∃ destination, instr = .jump test.condition destination := by
    simp only [overDestination, List.mem_cons, List.not_mem_nil, or_false] at member
    rcases member with rfl | rfl <;> exact ⟨_, rfl⟩
  exact ⟨destination, rfl, forall₂_of_mem_spellings spelled nofun⟩

end Instr

/-! ## Steps that compare and jump -/

namespace Machine

variable {σ : Type} {env : Env σ} {m : Machine σ}

/-- The value of an operand is the value of the byte that stands for it. -/
theorem value?_of_values {regs : Registers} {memory : Memory} {instr : Instr} {index : Nat}
    {symbols : List (List Char × Nat)} {operand : Operand} {code value : UInt8} {expected : Shape}
    {takesLabel : Bool} (is : HasOperand regs memory instr index expected code)
    (encodedBy : operand.EncodedBy symbols code)
    (inSlot : operand.shape ∈ Instr.slot takesLabel expected)
    (values : Values regs memory instr index value) : operand.value? regs memory symbols = some value := by
  obtain ⟨shape, byte, again, isValue⟩ := values
  obtain ⟨rfl, rfl⟩ := is.unique again
  have encoded : expected.isEncoded = true := Instr.isEncoded_of_mem (List.mem_of_getElem? is.slot)
  rw [← Operand.operand?_of_encodedBy encodedBy encoded inSlot, isValue]
  rfl

/-- An instruction that asks nobody is executed alike in every environment. -/
theorem step_eq_silent (ready : m.cpu.mode = .ready) {instr : Instr}
    (fetches : Fetches m.cpu.regs m.memory instr) (asksNobody : execute env instr = execute silent instr) :
    step env m = step silent m := by
  have same : work env m.cpu.regs.ip m = work silent m.cpu.regs.ip m := by
    rw [work_of_fetches fetches, work_of_fetches fetches, asksNobody]
  cases worked : work silent m.cpu.regs.ip m with
  | ok done now => rw [step_of_work_ok ready (same.trans worked), step_of_work_ok ready worked]
  | error cause now =>
    rw [step_of_work_error ready (same.trans worked), step_of_work_error ready worked]

/-- A processor that has completed a comparison and then a step was ready in between. -/
theorem ready_between (ready : m.cpu.mode = .ready) {middle after : Machine σ} {instr : Instr}
    (fetches : Fetches m.cpu.regs m.memory instr) (running : instr ≠ .halt)
    (compared : step silent m = .ok () middle) (jumped : step env middle = .ok () after) :
    middle.cpu.mode = .ready := by
  have mode := mode_of_completed bystander_silent ready fetches running compared
  rcases mode_of_step jumped with isReady | ⟨isHalted, -⟩
  · exact isReady
  · rw [isHalted] at mode
    split at mode <;> cases mode

/-- A comparison takes the instruction pointer past itself and leaves all else but the status. -/
theorem compared_of_executes {regs now : Registers} {memory after : Memory} {right : Right}
    (executes : Executes (silent : Env σ) regs memory (.compare right) now after) :
    ∃ register value, Names regs memory (.compare right) 0 register ∧
      Values regs memory (.compare right) 1 value ∧
      now = (regs.withFlags (Alu.sub (regs.get register).toNat value.toNat).flags).past
        (.compare right) ∧ after = memory := by
  cases executes with
  | compare named values => exact ⟨_, _, named, values, rfl, rfl⟩

/-- A jump is taken or passed as its condition says, and leaves all else. -/
theorem jumped_of_executes {regs now : Registers} {memory after : Memory} {condition : Condition}
    {destination : Destination}
    (executes : Executes (silent : Env σ) regs memory (.jump condition destination) now after) :
    ∃ target, Values regs memory (.jump condition destination) 0 target ∧
      (regs.holds condition = true → now.ip = target.toNat) ∧
      (regs.holds condition = false → now.ip = regs.ip + 2) ∧
      (∀ r, now.get r = regs.get r) ∧ now.sp = regs.sp ∧ after = memory := by
  have size : (Instr.jump condition destination).size = 2 := rfl
  -- a jump that is taken and one that is passed, with the condition that makes the difference
  cases executes with
  | jumpTaken operand holds =>
    refine ⟨_, operand, fun _ => rfl, fun fails => ?_, fun r => by cases r <;> rfl, rfl, rfl⟩
    rw [holds] at fails
    cases fails
  | jumpPassed operand fails =>
    refine ⟨_, operand, fun holds => ?_, fun _ => ?_, fun r => by cases r <;> rfl, rfl, rfl⟩
    · rw [fails] at holds
      cases holds
    · rw [Registers.ip_past, size]
      rfl

section Steps

variable {symbols : List (List Char × Nat)} {operand : Operand} {code : UInt8}
  (ready : m.cpu.mode = .ready) (encodedBy : operand.EncodedBy symbols code)
include ready encodedBy

/-- A comparison of a register with an encoded operand has only set flags, and the processor was ready for
the step behind it. -/
theorem compared_of_step {form : Right} {register : Register} {registerCode : UInt8} {rest : List UInt8}
    (there : m.memory.Holds m.cpu.regs.ip
      (UInt8.ofNat (Instr.compare form).opcode :: registerCode :: code :: rest))
    (isRegister : Register.ofIndex? registerCode.toNat = some register)
    (inSlot : operand.shape ∈ Instr.slot true form.shape) {middle after : Machine σ}
    (compared : step env m = .ok () middle) (jumped : step env middle = .ok () after) :
    ∃ b, operand.value? m.cpu.regs m.memory symbols = some b ∧ middle.cpu.mode = .ready ∧
      middle.cpu.regs = (m.cpu.regs.withFlags
        (Alu.sub (m.cpu.regs.get register).toNat b.toNat).flags).past (.compare form) ∧
      middle.memory = m.memory := by
  have fetches : Fetches m.cpu.regs m.memory (.compare form) := fetches_of_holds there
  -- a comparison asks for nothing outside, so it is what it would be with no devices
  have silently : step env m = step silent m := step_eq_silent ready fetches rfl
  rw [silently] at compared
  obtain ⟨subject, value, named, isValue, regs, memory⟩ := compared_of_executes
    (step_executes bystander_silent ready fetches compared)
  have leftIs : HasOperand m.cpu.regs m.memory (.compare form) 0 .register registerCode :=
    ⟨rfl, there 1 registerCode rfl⟩
  have rightIs : HasOperand m.cpu.regs m.memory (.compare form) 1 form.shape code :=
    ⟨rfl, there 2 code rfl⟩
  -- both descriptions name the register through the one byte behind the opcode
  obtain rfl := named.unique ⟨registerCode, leftIs, isRegister⟩
  exact ⟨value, value?_of_values rightIs encodedBy inSlot isValue,
    ready_between ready fetches nofun compared jumped, regs, memory⟩

/-- A jump to an encoded operand has gone there or on, as its condition says. -/
theorem jumped_of_step {condition : Condition} {form : Destination}
    (there : m.memory.Holds m.cpu.regs.ip [UInt8.ofNat (Instr.jump condition form).opcode, code])
    (inSlot : operand.shape ∈ Instr.slot true form.shape) {after : Machine σ}
    (jumped : step env m = .ok () after) :
    ∃ t, operand.value? m.cpu.regs m.memory symbols = some t ∧
      (m.cpu.regs.holds condition = true → after.cpu.regs.ip = t.toNat) ∧
      (m.cpu.regs.holds condition = false → after.cpu.regs.ip = m.cpu.regs.ip + 2) ∧
      (∀ r, after.cpu.regs.get r = m.cpu.regs.get r) ∧ after.cpu.regs.sp = m.cpu.regs.sp ∧
      after.memory = m.memory := by
  have fetches : Fetches m.cpu.regs m.memory (.jump condition form) := fetches_of_holds there
  have silently : step env m = step silent m := step_eq_silent ready fetches rfl
  rw [silently] at jumped
  obtain ⟨target, isTarget, done⟩ := jumped_of_executes
    (step_executes bystander_silent ready fetches jumped)
  have is : HasOperand m.cpu.regs m.memory (.jump condition form) 0 form.shape code :=
    ⟨rfl, there 1 code rfl⟩
  exact ⟨target, value?_of_values is encodedBy inSlot isTarget, done⟩

end Steps

/-! ## Lines -/

section Lines

variable {limit : DigitLimit} {source : List Char} {program : Program}
  (assembled : assembleText limit source = .ok program) {line : Source.Line}
  (isLine : line ∈ (Layout.start source).lines)
include assembled isLine

/-- The bytes of a line that compares. -/
theorem exists_compare_of_line {left right : List Char}
    (compares : line.statement = some ⟨"CMP".toList, [left, right]⟩) :
    ∃ form register operand leftCode rightCode,
      Operand.classify limit left = .ok (.register register) ∧
      Operand.classify limit right = .ok operand ∧
      line.bytes limit program.symbols =
        [UInt8.ofNat (Instr.compare form).opcode, leftCode, rightCode] ∧
      Register.ofIndex? leftCode.toNat = some register ∧
      operand.EncodedBy program.symbols rightCode ∧ operand.shape ∈ Instr.slot true form.shape := by
  have isName : String.ofList "CMP".toList = "CMP" := String.ofList_toList
  obtain ⟨instr, operands, codes, read, found, bytes, encoded⟩ :=
    exists_instr_of_line assembled isLine compares
      (by rw [isName]; exact Instr.mem_mnemonics (.compare .immediate))
  rw [isName] at found
  -- the mnemonic fixes the kind of instruction, and its shapes fix the two operands
  obtain ⟨form, rfl, spelled⟩ := Instr.exists_compare_of_lookup found
  obtain ⟨first, last, rfl, isLeft, isRight⟩ := exists_pair_of_forall₂ read
  obtain ⟨leftCode, rightCode, rfl, encodedLeft, encodedRight⟩ := exists_pair_of_forall₂ encoded
  obtain _ | ⟨leftSlot, _ | ⟨rightSlot, _⟩⟩ := spelled
  have isRegister : first.shape = .register := by simpa [Instr.slot] using leftSlot
  -- in the first place there is a register, and nothing else
  cases first with
  | register register =>
    obtain rfl : leftCode = UInt8.ofNat register.index := encodedLeft.cell
    have index : Register.ofIndex? (UInt8.ofNat register.index).toNat = some register := by
      cases register <;> rfl
    exact ⟨form, register, last, _, _, isLeft, isRight, bytes, index, encodedRight, rightSlot⟩
  | _ => cases isRegister

/-- The bytes of a line that jumps on a comparison. -/
theorem exists_jump_of_line {name : String} {test : Comparison} {target : List Char}
    (jumps : line.statement = some ⟨name.toList, [target]⟩) (named : name ∈ test.names) :
    ∃ form destination code, Operand.classify limit target = .ok destination ∧
      line.bytes limit program.symbols =
        [UInt8.ofNat (Instr.jump test.condition form).opcode, code] ∧
      destination.EncodedBy program.symbols code ∧
      destination.shape ∈ Instr.slot true form.shape := by
  have isName : String.ofList name.toList = name := String.ofList_toList
  obtain ⟨instr, operands, codes, read, found, bytes, encoded⟩ :=
    exists_instr_of_line assembled isLine jumps
      (by rw [isName]; exact (Comparison.canonical_of_mem_names named).2)
  rw [isName] at found
  obtain ⟨form, rfl, spelled⟩ := Instr.exists_jump_of_lookup named found
  obtain ⟨destination, rfl, isTarget⟩ := exists_single_of_forall₂ read
  obtain ⟨code, rfl, encodedTarget⟩ := exists_single_of_forall₂ encoded
  obtain _ | ⟨slot, _⟩ := spelled
  exact ⟨form, destination, code, isTarget, bytes, encodedTarget, slot⟩

end Lines

/-! ## Both together -/

/-- **A comparison and a conditional jump compare two bytes.** When two lines of a source that assembles
compare a register with an operand and then jump on a comparison, the jump is taken just when the
comparison holds of the two values, as they were when the comparison began; otherwise the processor goes
on behind the jump. No register, stack pointer or byte of memory has changed by then. -/
theorem compare_and_jump {limit : DigitLimit} {source : List Char} {program : Program}
    (assembled : assembleText limit source = .ok program) {first second : Source.Line}
    (isFirst : first ∈ (Layout.start source).lines) (isSecond : second ∈ (Layout.start source).lines)
    {left right target : List Char} {test : Comparison} {name : String}
    (compares : first.statement = some ⟨"CMP".toList, [left, right]⟩)
    (jumps : second.statement = some ⟨name.toList, [target]⟩) (named : name ∈ test.names)
    (ready : m.cpu.mode = .ready)
    (there : m.memory.Holds m.cpu.regs.ip
      (first.bytes limit program.symbols ++ second.bytes limit program.symbols))
    {middle after : Machine σ} (compared : step env m = .ok () middle)
    (jumped : step env middle = .ok () after) :
    ∃ register operand destination b t,
      Operand.classify limit left = .ok (.register register) ∧
      Operand.classify limit right = .ok operand ∧
      Operand.classify limit target = .ok destination ∧
      operand.value? m.cpu.regs m.memory program.symbols = some b ∧
      destination.value? m.cpu.regs m.memory program.symbols = some t ∧
      (test.Holds (m.cpu.regs.get register) b → after.cpu.regs.ip = t.toNat) ∧
      (¬test.Holds (m.cpu.regs.get register) b → after.cpu.regs.ip = m.cpu.regs.ip + 5) ∧
      (∀ r, after.cpu.regs.get r = m.cpu.regs.get r) ∧ after.cpu.regs.sp = m.cpu.regs.sp ∧
      after.memory = m.memory := by
  obtain ⟨form, register, operand, leftCode, rightCode, isLeft, isRight, firstBytes, index,
    encodedRight, rightSlot⟩ := exists_compare_of_line assembled isFirst compares
  obtain ⟨jumpForm, destination, code, isTarget, secondBytes, encodedTarget, targetSlot⟩ :=
    exists_jump_of_line assembled isSecond jumps named
  rw [firstBytes, secondBytes] at there
  obtain ⟨value, rightValue, readyMiddle, regs, memory⟩ :=
    compared_of_step ready encodedRight there index rightSlot compared jumped
  -- the jump starts three bytes further on, with the same registers and memory
  have general : ∀ r, middle.cpu.regs.get r = m.cpu.regs.get r := by
    intro r
    rw [regs, Registers.get_past, Registers.get_withFlags]
  have ip : middle.cpu.regs.ip = m.cpu.regs.ip + 3 := by
    rw [regs]
    rfl
  have sp : middle.cpu.regs.sp = m.cpu.regs.sp := by
    rw [regs]
    rfl
  have behind : middle.memory.Holds middle.cpu.regs.ip
      [UInt8.ofNat (Instr.jump test.condition jumpForm).opcode, code] := by
    rw [memory, ip]
    exact there.behind
  obtain ⟨t, targetValue, taken, passed, sameGeneral, sameSp, sameMemory⟩ :=
    jumped_of_step readyMiddle encodedTarget behind targetSlot jumped
  rw [Operand.value?_congr general sp, memory] at targetValue
  have holds : middle.cpu.regs.holds test.condition = true ↔
      test.Holds (m.cpu.regs.get register) value := by
    rw [← Registers.holds_withFlags_sub_iff m.cpu.regs, regs, Registers.past, Registers.holds_forward]
  refine ⟨register, operand, destination, value, t, isLeft, isRight, isTarget, rightValue,
    targetValue, fun tested => taken (holds.2 tested), fun failed => ?_,
    fun r => (sameGeneral r).trans (general r), sameSp.trans sp, sameMemory.trans memory⟩
  rw [passed (Bool.eq_false_iff.2 fun other => failed (holds.1 other)), ip]
  omega

/-- A register that holds 200 is about to be compared with the memory byte 6. -/
def comparing : Machine Unit :=
  { cpu := { regs := { al := 3, bl := 200 } }
    memory := beginning [25, 1, 8, 38, 6, 0, 0]
    notes := () }

/-- As a number without sign 200 is above 6, so the jump is passed. -/
theorem compare_and_jump_of_negative :
    ∃ (limit : DigitLimit) (source : List Char) (middle after : Machine Unit),
      source = "CMP BL, [al + 1]\njbe out\nHLT\nout: HLT".toList ∧
      (assembleText limit source).toOption.map Program.code = some [25, 1, 8, 38, 6, 0, 0] ∧
      step alone comparing = .ok () middle ∧ step alone middle = .ok () after ∧
      after.cpu.regs.ip = 5 ∧ after.memory = comparing.memory := by
  let source := "CMP BL, [al + 1]\njbe out\nHLT\nout: HLT".toList
  let program : Program :=
    { code := [25, 1, 8, 38, 6, 0, 0]
      lines := [(0, 1), (1, 1), (2, 1), (3, 2), (4, 2), (5, 3), (6, 4)]
      symbols := [("out".toList, 6)] }
  let first := Source.Line.parse "CMP BL, [al + 1]".toList
  let second := Source.Line.parse "jbe out".toList
  have assembled : assembleText (some digitLimit) source = .ok program := by decide +kernel
  have isFirst : first ∈ (Layout.start source).lines := by decide +kernel
  have isSecond : second ∈ (Layout.start source).lines := by decide +kernel
  have compares : first.statement = some ⟨"CMP".toList, ["BL".toList, "[al + 1]".toList]⟩ := by
    decide +kernel
  have jumps : second.statement = some ⟨"JBE".toList, ["out".toList]⟩ := by decide +kernel
  have named : "JBE" ∈ Comparison.notAbove.names := by decide
  -- the two lines lie one behind the other where the pointer is
  have there : comparing.memory.Holds comparing.cpu.regs.ip
      (first.bytes (some digitLimit) program.symbols ++
        second.bytes (some digitLimit) program.symbols) := by
    decide +kernel
  obtain ⟨middle, compared, goesOn⟩ := exists_of_leadsTo alone comparing
    (fun middle => leadsTo alone middle fun _ => true) (by decide +kernel)
  obtain ⟨after, jumped, -⟩ := exists_of_leadsTo alone middle (fun _ => true) goesOn
  -- what the two steps do is the theorem; only its operands are left to be computed
  obtain ⟨register, operand, -, b, -, isRegister, isOperand, -, value, -, -, passed, -, -, memory⟩ :=
    compare_and_jump assembled isFirst isSecond compares jumps named rfl there compared jumped
  have isBl : Operand.classify (some digitLimit) "BL".toList = .ok (.register .bl) := by
    decide +kernel
  have isPlace : Operand.classify (some digitLimit) "[al + 1]".toList =
      .ok (.indirect (.general .al) 1) := by
    decide +kernel
  have isSix : (Operand.indirect (.general .al) 1).value? comparing.cpu.regs comparing.memory
      program.symbols = some 6 := by
    decide +kernel
  obtain rfl := Operand.register.inj (Except.ok.inj (isRegister.symm.trans isBl))
  obtain rfl := Except.ok.inj (isOperand.symm.trans isPlace)
  obtain rfl := Option.some.inj (value.symm.trans isSix)
  exact ⟨some digitLimit, source, middle, after, rfl, by rw [assembled]; rfl, compared, jumped,
    passed (by decide), memory⟩

end Machine

end EightBit
