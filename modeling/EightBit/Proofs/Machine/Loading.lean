import EightBit.Proofs.Assembly.Report
import EightBit.Proofs.Assembly.WellFormed
import EightBit.Proofs.Machine.Display

/-!
# Loading Is All or Nothing

Loading a program changes memory, processor and control panel one after the other. Nothing of this is done
before the program is known to be good: a source is assembled first, and code is measured against the program
region before a byte of it is written. What assembles always fits, so the second check never stops an assembled
program halfway. A load that fails therefore leaves the machine as it was, and one that succeeds does all there
is to do.

## Main Definitions

- `Loaded`: what a load that succeeds leaves behind.

## Main Statements

- `Memory.load_fill`: the bytes of a memory whose program region was replaced.
- `exists_loadAssembled`, `exists_loadBinary`: loading code that fits does everything.
- `assemble_of_error`, `loadBinary_of_lt`: loading anything else does nothing.
- `loading_is_atomic`: both controls that load, on any machine without a run.
-/

namespace EightBit

/-! ## The program region -/

namespace Memory

theorem size_fill (memory : Memory) (code : List UInt8) : (memory.fill code).size = memory.size := by
  rw [fill]

theorem getElem?_fill {memory : Memory} {code : List UInt8} (fits : code.length ≤ programLimit)
    (full : memory.Full) (address : Nat) :
    (memory.fill code).bytes[address]? =
      if address < programLimit then some (code.getD address 0) else memory.bytes[address]? := by
  -- program and padding fill the region of programs exactly
  have front : (code ++ List.replicate (programLimit - code.length) 0).toArray.size = programLimit := by
    rw [List.size_toArray, List.length_append, List.length_replicate, Nat.add_sub_cancel' fits]
  rw [fill]
  split
  · next below =>
    rw [Array.getElem?_append_left (below.trans_eq front.symm), List.getElem?_toArray,
      List.getD_eq_getElem?_getD]
    -- below the end of the program its byte, and zero from there on
    by_cases short : address < code.length
    · rw [List.getElem?_append_left short, List.getElem?_eq_getElem short, Option.getD_some]
    · have behind : code.length ≤ address := Nat.le_of_not_lt short
      rw [List.getElem?_append_right behind, List.getElem?_replicate, if_pos (by omega),
        List.getElem?_eq_none behind, Option.getD_none]
  -- above the region memory is what it was, as far as it reaches
  · next above =>
    have behind : programLimit ≤ address := Nat.le_of_not_lt above
    rw [Array.getElem?_append_right (front.trans_le behind), front, Array.getElem?_extract,
      Nat.add_sub_cancel' behind, Nat.min_self, full.bytes]
    split
    · rfl
    · next outside =>
      rw [Array.getElem?_eq_none]
      rw [full.bytes]
      omega

/-- **The bytes of a memory whose program region was replaced**: the code, zeros behind it, and what was there
before from the display region on. -/
theorem load_fill {memory : Memory} (full : memory.Full) {code : List UInt8}
    (fits : code.length ≤ programLimit) (address : Nat) :
    (memory.fill code).load address =
      if address < programLimit then .ok (code.getD address 0) else memory.load address := by
  rw [load, load, size_fill, full.size, Int.toNat_natCast, Array.getD_eq_getD_getElem?,
    Array.getD_eq_getD_getElem?, getElem?_fill fits full]
  by_cases below : address < programLimit
  · have inside : (0 : Int) ≤ address ∧ (address : Int) < memorySize := by
      simp only [programLimit, memorySize] at below ⊢
      omega
    rw [if_pos below, if_pos below, if_pos inside, Option.getD_some]
  · rw [if_neg below, if_neg below]

end Memory

namespace Machine

variable {σ : Type}

/-! ## Loaded machines -/

/-- **What a load that succeeds leaves behind**: the program region holds the code and zeros behind it, the
processor is as after a reset, and the control panel knows the program. All else is as it was; only the
journal has grown. -/
structure Loaded (m : Machine σ) (code : List UInt8) (program : Option Program)
    (after : Machine σ) : Prop where
  region : ∀ address < programLimit, after.memory.load (address : Nat) = .ok (code.getD address 0)
  beyond : ∀ address, programLimit ≤ address →
    after.memory.load (address : Nat) = m.memory.load address
  full : after.memory.Full
  processor : after.cpu = { tracing := m.cpu.tracing }
  control : after.control = { m.control with program }
  devices : after.devices = m.devices
  display : after.display = m.display
  bus : after.bus = m.bus
  observers : after.observers = m.observers
  operator : after.operator = m.operator
  notes : after.notes = m.notes

/-- The changes that a load makes to a machine, all of them together. -/
theorem loaded_fill {m : Machine σ} (full : m.memory.Full) {code : List UInt8}
    (fits : code.length ≤ programLimit) (program : Option Program) (journal : List Journal.Record) :
    Loaded m code program { m with
      memory := m.memory.fill code, cpu := m.cpu.reset, control := { m.control with program }, journal } where
  region := fun address below => by rw [Memory.load_fill full fits, if_pos below]
  beyond := fun address above => by rw [Memory.load_fill full fits, if_neg (Nat.not_lt.2 above)]
  full := full.fill fits
  processor := rfl
  control := rfl
  devices := rfl
  display := rfl
  bus := rfl
  observers := rfl
  operator := rfl
  notes := rfl

/-! ## Parts of a load -/

/-- Without a run there is nothing to stop. -/
theorem requestStop_of_idle {m : Machine σ} (idle : m.control.running = false) :
    requestStop m = .ok () m := by
  rw [requestStop, get_bind, if_neg (by simp [idle])]
  rfl

/-- **Code that is too large is refused** before a byte of it is written. -/
theorem loadProgram_of_lt (m : Machine σ) {code : List UInt8} (large : programLimit < code.length) :
    loadProgram code m = .error (.refused (.programTooLarge code.length)) m := by
  rw [loadProgram, if_pos large]
  rfl

/-- Code that fits is written. -/
theorem exists_loadProgram (m : Machine σ) {code : List UInt8} (fits : code.length ≤ programLimit) :
    ∃ journal, loadProgram code m = .ok () { m with memory := m.memory.fill code, journal } := by
  rw [loadProgram, if_neg (Nat.not_lt.2 fits)]
  exact ⟨_, rfl⟩

section Idle

variable {m : Machine σ} (full : m.memory.Full) (idle : m.control.running = false)

section Full

include full idle

/-- **An assembled program that fits is loaded.** -/
theorem exists_loadAssembled {program : Program} (fits : program.code.length ≤ programLimit) :
    ∃ after, loadAssembled program m = .ok () after ∧ Loaded m program.code (some program) after := by
  obtain ⟨journal, loads⟩ := exists_loadProgram m fits
  rw [loadAssembled, bind_of_ok (requestStop_of_idle idle), bind_of_ok loads]
  exact ⟨_, rfl, loaded_fill full fits _ _⟩

/-- **Code that fits is loaded.** -/
theorem exists_loadBinary {code : List UInt8} (fits : code.length ≤ programLimit) :
    ∃ after, loadBinary code m = .ok () after ∧ Loaded m code none after := by
  obtain ⟨journal, loads⟩ := exists_loadProgram m fits
  rw [loadBinary, bind_of_ok (requestStop_of_idle idle), bind_of_ok loads]
  exact ⟨_, rfl, loaded_fill full fits _ _⟩

/-- A source that assembles is loaded: its code fits. -/
theorem exists_assemble {limit : DigitLimit} {source : List Char} {program : Program}
    (assembled : assembleText limit source = .ok program) :
    ∃ after, assemble limit source m = .ok program after ∧
      Loaded m program.code (some program) after := by
  let noted : Machine σ := { m with journal := assembledRecord program :: m.journal }
  obtain ⟨after, loads, loaded⟩ := exists_loadAssembled (m := noted) full idle (length_code_le assembled)
  refine ⟨after, ?_, { loaded with }⟩
  rw [assemble, assembled]
  show (loadAssembled program >>= fun _ => pure program) noted = _
  rw [bind_of_ok loads]
  rfl

end Full

include idle

/-- **Code that does not fit leaves the machine alone.** -/
theorem loadBinary_of_lt {code : List UInt8} (large : programLimit < code.length) :
    loadBinary code m = .error (.refused (.programTooLarge code.length)) m := by
  rw [loadBinary, bind_of_ok (requestStop_of_idle idle), bind_of_error (loadProgram_of_lt m large)]

end Idle

/-- **A source that does not assemble leaves the machine alone.** -/
theorem assemble_of_error {limit : DigitLimit} {source : List Char}
    {rejection : Rejection AssemblyError} (rejected : assembleText limit source = .error rejection)
    (m : Machine σ) : assemble limit source m = .error (.refused (.ofRejection rejection)) m := by
  rw [assemble, rejected]
  rfl

/-- What was assembled has been loaded. -/
theorem loaded_of_assemble {m after : Machine σ} (full : m.memory.Full)
    (idle : m.control.running = false) {limit : DigitLimit} {source : List Char} {program : Program}
    (assembles : assemble limit source m = .ok program after) :
    assembleText limit source = .ok program ∧ Loaded m program.code (some program) after := by
  cases outcome : assembleText limit source with
  | error rejection =>
    rw [assemble_of_error outcome] at assembles
    cases assembles
  | ok assembled =>
    obtain ⟨now, again, loaded⟩ := exists_assemble full idle outcome
    rw [again] at assembles
    cases assembles
    exact ⟨rfl, loaded⟩

/-! ## Both controls -/

/-- **Loading is all or nothing**, on any machine without a run. Either a control fails and nothing at all has
changed, or it has done everything. Assembling fails for the sources that do not assemble, and if integers may
have any number of digits, then with the error of the assembler and with nothing else; plain code is refused if
it is larger than the program region. -/
theorem loading_is_atomic {m : Machine σ} (full : m.memory.Full) (idle : m.control.running = false) :
    (∀ limit source,
      (∃ rejection, assembleText limit source = .error rejection ∧
        assemble limit source m = .error (.refused (.ofRejection rejection)) m) ∨
      ∃ program after, assembleText limit source = .ok program ∧
        assemble limit source m = .ok program after ∧ Loaded m program.code (some program) after) ∧
    (∀ source failure after, assemble none source m = .error failure after →
      ∃ error, failure = .refused (.unassembled error)) ∧
    (∀ code : List UInt8, programLimit < code.length →
      loadBinary code m = .error (.refused (.programTooLarge code.length)) m) ∧
    ∀ code : List UInt8, code.length ≤ programLimit →
      ∃ after, loadBinary code m = .ok () after ∧ Loaded m code none after := by
  refine ⟨fun limit source => ?_, fun source failure after failed => ?_,
    fun _ large => loadBinary_of_lt idle large, fun _ fits => exists_loadBinary full idle fits⟩
  -- the text assembles or is refused, before anything of the machine is touched
  · cases outcome : assembleText limit source with
    | error rejection => exact .inl ⟨rejection, rfl, assemble_of_error outcome m⟩
    | ok program =>
      obtain ⟨after, assembles, loaded⟩ := exists_assemble full idle outcome
      exact .inr ⟨program, after, rfl, assembles, loaded⟩
  -- with no limit the text cannot be refused for its digits
  · rcases (assembleText_total none source).1 with
      ⟨program, assembled⟩ | ⟨error, wrong, -⟩ | ⟨_, _, unlimited⟩
    · obtain ⟨after, assembles, -⟩ := exists_assemble full idle assembled
      rw [assembles] at failed
      cases failed
    · rw [assemble_of_error wrong] at failed
      cases failed
      exact ⟨error, rfl⟩
    · exact absurd rfl unlimited

/-- A machine that has met a fault, with a letter on its display and its lights on. -/
def worn : Machine Nat :=
  { simulator 7 with
    cpu := {
      regs := { al := 1, sr := 1, ip := 9 }
      mode := .faulted
      lastFault := some ⟨.trap .stackOverflow, 8⟩ }
    memory := (Memory.fresh memorySize).write 0xC0 72
    display := (simulator 7).display.update 0xC0 72
    devices := { lights := { state := 9 } } }

theorem loading_is_atomic_worn :
    worn.memory.Full ∧ worn.control.running = false ∧
      (∃ after, assemble none "HLT".toList worn = .ok ⟨[0], [(0, 1)], []⟩ after ∧
        Loaded worn [0] (some ⟨[0], [(0, 1)], []⟩) after) ∧
      (∃ error, assemble none "DB 300".toList worn = .error (.refused (.unassembled error)) worn) ∧
      loadBinary (List.replicate 193 0) worn = .error (.refused (.programTooLarge 193)) worn := by
  have full : worn.memory.Full := Memory.full_fresh.write _ _
  obtain ⟨loads, fails, refuses, -⟩ := loading_is_atomic full rfl
  -- the code is one byte too long
  have refused := refuses (List.replicate 193 0) (by rw [List.length_replicate]; decide)
  rw [List.length_replicate] at refused
  refine ⟨full, rfl, ?_, ?_, refused⟩
  · have assembled : assembleText none "HLT".toList = .ok ⟨[0], [(0, 1)], []⟩ := by decide +kernel
    obtain ⟨_, rejected, -⟩ | ⟨program, after, accepted, assembles, loaded⟩ := loads none "HLT".toList
    · rw [assembled] at rejected
      cases rejected
    · rw [assembled] at accepted
      cases accepted
      exact ⟨after, assembles, loaded⟩
  -- the value is out of range
  · have rejected : (assembleText none "DB 300".toList).toOption = none := by decide +kernel
    obtain ⟨_, -, unchanged⟩ | ⟨program, _, accepted, -⟩ := loads none "DB 300".toList
    · obtain ⟨error, wrong⟩ := fails _ _ _ unchanged
      exact ⟨error, wrong ▸ unchanged⟩
    · rw [accepted] at rejected
      cases rejected

end Machine

end EightBit
