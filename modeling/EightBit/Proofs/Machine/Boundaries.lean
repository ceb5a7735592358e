import EightBit.Proofs.Disassembly.RoundTrip
import EightBit.Proofs.Machine.Progress

/-!
# Instruction Boundaries

The processor counts the bytes of an instruction while it executes it, one fetch after the other; the
disassembler takes them from a table. They agree: a step that does not jump ends where the next item of
the disassembled code begins, and a step that fails has not gone further than the last byte of its
instruction.

Every instruction fetches its operand bytes before it does anything else. What it does then happens with
the instruction pointer on its last byte, and only at its end the pointer moves on. Observers and attached
devices are asked in between. They may do whatever they like to the machine, and fail, as long as they
leave the instruction pointer where it is.

## Main Definitions

- `Pinned`: the action leaves the instruction pointer alone.
- `Env.Passenger`: observers and attached devices that do.
- `sequential`, `continues`: instructions that are followed by the next one in memory.
- `StepEnds`: where a step ends that starts at an instruction.
- `Memory.Holds`, `startOf`: code in memory, and where its items begin.

## Main Statements

- `departs_execute`: the instruction pointer behind and inside an instruction.
- `exists_of_disassemble`: an item of disassembled code, with the code around it.
- `step_boundaries`: processor and disassembler agree.
- `exists_output_led_astray`: not so with an observer that moves the instruction pointer.
-/

namespace EightBit

/-! ## Items of code -/

/-- Memory has this code from an address on. -/
def Memory.Holds (memory : Memory) (address : Int) (code : List UInt8) : Prop :=
  ∀ (index : Nat) (byte : UInt8), code[index]? = some byte → memory.load (address + index) = .ok byte

instance (memory : Memory) (address : Int) (code : List UInt8) :
    Decidable (memory.Holds address code) :=
  decidable_of_iff (∀ index : Fin code.length, memory.load (address + index) = .ok code[index])
    ⟨fun all index byte found => by
      obtain ⟨within, rfl⟩ := List.getElem?_eq_some_iff.1 found
      exact all ⟨index, within⟩,
    fun holds index => holds index _ (List.getElem?_eq_getElem index.isLt)⟩

section Holds

variable {memory : Memory} {address : Int} {byte : UInt8} {front rest : List UInt8}

/-- Behind the front part of some code, memory has the rest of it. -/
theorem Memory.Holds.behind (there : memory.Holds address (front ++ rest)) :
    memory.Holds (address + front.length) rest := by
  intro index byte found
  have further : (front ++ rest)[front.length + index]? = some byte := by
    rwa [List.getElem?_append_right (Nat.le_add_right ..), Nat.add_sub_cancel_left]
  have loaded := there _ byte further
  rwa [Int.natCast_add, ← Int.add_assoc] at loaded

theorem Memory.Holds.tail (there : memory.Holds address (byte :: rest)) :
    memory.Holds (address + 1) rest :=
  Memory.Holds.behind (show memory.Holds address ([byte] ++ rest) from there)

theorem Memory.Holds.head (there : memory.Holds address (byte :: rest)) :
    memory.load address = .ok byte := by
  have first := there 0 byte rfl
  rwa [Int.natCast_zero, Int.add_zero] at first

/-- Code in memory ends with memory at the latest. -/
theorem Memory.Holds.fits (there : memory.Holds address (byte :: rest)) :
    address + ((byte :: rest).length : Nat) ≤ memory.size := by
  have last := there rest.length _ (List.getElem?_eq_getElem (Nat.lt_succ_self rest.length))
  have inside := Memory.inside_of_load last
  rw [List.length_cons]
  omega

end Holds

namespace Disassembly

/-- Where items begin that end at some address. -/
def startOf (items : List Item) (stop : Int) : Int :=
  match items with
  | [] => stop
  | item :: _ => item.address

theorem startOf_disassemble (address : Int) (code : List UInt8) :
    startOf (disassemble address code) (address + code.length) = address := by
  induction address, code using disassemble.induct with
  | case1 address => simp [disassemble, startOf]
  | case2 address opcode operands noInstr => rw [disassemble, noInstr]; rfl
  | case3 address opcode operands instr whole => rw [disassemble, whole]; rfl

/-- **An item of disassembled code** has its bytes at its address, and the items behind it are those of
the code behind it. -/
theorem exists_of_disassemble {address : Int} {code : List UInt8} {before rest : List Item}
    {item : Item} (items : disassemble address code = before ++ item :: rest) :
    ∃ front back, code = front ++ (item.bytes ++ back) ∧ item.address = address + front.length ∧
      rest = disassemble (item.address + item.bytes.length) back := by
  -- along the decoder, until the items before this one are used up
  induction address, code using disassemble.induct generalizing before with
  | case1 address => simp [disassemble] at items
  | case2 address opcode operands noInstr ih =>
    rw [disassemble, noInstr] at items
    cases before with
    | nil =>
      obtain ⟨rfl, rfl⟩ := List.cons.inj items
      exact ⟨[], operands, rfl, by simp [dataItem], rfl⟩
    | cons first before =>
      obtain ⟨front, back, rfl, place, behind⟩ := ih (List.cons.inj items).2
      exact ⟨opcode :: front, back, rfl, by rw [place, List.length_cons]; omega, behind⟩
  | case3 address opcode operands instr whole ih =>
    rw [disassemble, whole] at items
    obtain ⟨-, enough⟩ := whole?_eq_some_iff.1 whole
    have length : (opcode :: operands.take instr.shapes.length).length = instr.size := by
      rw [List.length_cons, List.length_take, Instr.size]
      omega
    cases before with
    | nil =>
      obtain ⟨rfl, rfl⟩ := List.cons.inj items
      refine ⟨[], operands.drop instr.shapes.length, ?_, by simp, by rw [length]⟩
      rw [List.nil_append, List.cons_append, List.take_append_drop]
    | cons first before =>
      obtain ⟨front, back, split, place, behind⟩ := ih (List.cons.inj items).2
      refine ⟨opcode :: operands.take instr.shapes.length ++ front, back, ?_, ?_, behind⟩
      · rw [List.append_assoc, ← split, List.cons_append, List.take_append_drop]
      · rw [place, List.length_append, length]
        omega

theorem isData_dataItem (address : Int) (byte : UInt8) : (dataItem address byte).isData = true :=
  List.isPrefixOf_iff_prefix.2 (List.prefix_append ..)

end Disassembly

namespace Machine

variable {σ α β : Type}

/-! ## The instruction pointer -/

/-- The action leaves the instruction pointer where it is, whether it succeeds or fails. -/
def Pinned (action : Action σ α) : Prop :=
  ∀ ip, Keeps (fun m => m.cpu.regs.ip = ip) action

end Machine

/-- **Observers and attached devices that leave the instruction pointer alone.** They may do anything else,
and fail in any way. -/
structure Env.Passenger {σ : Type} (env : Env σ) : Prop where
  notify : ∀ hook notice, Machine.Pinned (env.notify hook notice)
  answer : ∀ hook port, Machine.Pinned (env.answer hook port)

/-- Observers that leave a store alone which they are told of: its byte stays, and so does the stack
pointer. -/
structure Env.LeavesStores {σ : Type} (env : Env σ) : Prop where
  notify : ∀ hook notice address value, notice.IsAbout address value → ∀ sp,
    Machine.Keeps (fun m => m.cpu.regs.sp = sp ∧ m.memory.load address = .ok value)
      (env.notify hook notice)

namespace Machine

open Disassembly

variable {σ α β : Type} {env : Env σ} {start : Int} {count size : Nat} {onward : Prop}

section Pinned

variable {action : Action σ α}

theorem Quiet.pinned (quiet : Quiet action) : Pinned action :=
  fun ip => ⟨Quiet.keeps (P := fun cpu _ => cpu.regs.ip = ip) quiet⟩

theorem Pinned.bind {next : α → Action σ β} (pinned : Pinned action) (behind : ∀ a, Pinned (next a)) :
    Pinned (action >>= next) :=
  fun ip => .bind (pinned ip) fun a => behind a ip

theorem pinned_modifyRegs {f : Registers → Registers} (same : ∀ regs, (f regs).ip = regs.ip) :
    Pinned (modifyRegs f : Action σ Unit) :=
  fun _ => .modify fun m there => (same m.cpu.regs).trans there

theorem pinned_writeRegister (r : Register) (value : Int) :
    Pinned (writeRegister r value : Action σ Unit) :=
  pinned_modifyRegs fun regs => by cases r <;> rfl

theorem pinned_writeFlags (flags : Flags) : Pinned (writeFlags flags : Action σ Unit) :=
  pinned_modifyRegs fun _ => rfl

theorem pinned_pop : Pinned (pop : Action σ UInt8) := by
  refine .bind (pinned_modifyRegs fun _ => rfl) fun _ => .bind quiet_getRegs.pinned fun _ =>
    .bind (quiet_load _).pinned fun value => .bind quiet_getRegs.pinned fun regs => ?_
  split
  · exact .bind (Quiet.throw _).pinned fun _ => (Quiet.pure _).pinned
  · exact .bind (Quiet.pure _).pinned fun _ => (Quiet.pure _).pinned

theorem central_pointer (ip : Int) : Central fun m : Machine σ => m.cpu.regs.ip = ip where
  keeps := fun _ _ _ _ there => there

end Pinned

section Passenger

variable (passenger : env.Passenger)
include passenger

theorem pinned_store (address value : Int) : Pinned (store env address value) := by
  refine fun ip => .bind ((quiet_load _).pinned ip) fun old => .bind (.modify fun _ there => there)
    fun _ => .get fun m => .bind (.forM fun hook => passenger.notify hook _ ip) fun _ => ?_
  split
  · exact keeps_tellListeners (fun hook => passenger.notify hook _ ip) fun _ _ there => there
  · exact .pure _

theorem pinned_writeOperand (shape : Shape) (code value : UInt8) :
    Pinned (writeOperand env shape code value) := by
  cases shape with
  | register => exact .bind (quiet_register code).pinned fun r => pinned_writeRegister r _
  | address => exact pinned_store passenger _ _
  | indirect => exact .bind quiet_getRegs.pinned fun _ => pinned_store passenger _ _
  | stackOffset => exact .bind quiet_getRegs.pinned fun _ => pinned_store passenger _ _
  | immediate => exact (Quiet.pure _).pinned
  | target => exact (Quiet.pure _).pinned
  | label => exact (Quiet.pure _).pinned
  | text => exact (Quiet.pure _).pinned

theorem pinned_push (value : Int) : Pinned (push env value) := by
  refine .bind quiet_getRegs.pinned fun _ => .bind (pinned_store passenger _ _) fun _ =>
    .bind (pinned_modifyRegs fun _ => rfl) fun _ => .bind quiet_getRegs.pinned fun regs => ?_
  split
  · exact (Quiet.throw _).pinned
  · exact (Quiet.pure _).pinned

theorem pinned_readPort (port : Int) : Pinned (readPort env port) :=
  fun ip => (central_pointer ip).readPort (fun hook port => passenger.answer hook port ip) port

theorem pinned_writePort (port value : Int) : Pinned (writePort env port value) :=
  fun ip => (central_pointer ip).writePort (fun hook notice => passenger.notify hook notice ip) port value

end Passenger

/-! ### Inside an instruction -/

/-- The instruction pointer is on a byte of the instruction, or at the end of memory. -/
structure Inside (start : Int) (size : Nat) (m : Machine σ) : Prop where
  onward : start ≤ m.cpu.regs.ip
  before : m.cpu.regs.ip < start + size
  within : m.cpu.regs.ip ≤ memorySize

/-- So many operand bytes have been fetched, and the instruction pointer is on the last of them. -/
structure Reading (start : Int) (count : Nat) (m : Machine σ) : Prop where
  ip : m.cpu.regs.ip = start + count
  within : start + count < memorySize
  size : m.memory.size = memorySize

theorem inside_of_ip {m : Machine σ} (within : start + count < memorySize)
    (there : m.cpu.regs.ip = start + count) (more : count < size) : Inside start size m where
  onward := by omega
  before := by omega
  within := by omega

theorem Quiet.reading {action : Action σ α} (quiet : Quiet action) (more : count < size) :
    Ensures (Reading start count) action (fun _ => Reading start count) fun _ => Inside start size :=
  fun m reading => Ensures.mono
    (Quiet.keeps (P := fun cpu memory => cpu.regs.ip = start + count ∧ memory.size = memorySize) quiet)
    (fun _ now => ⟨now.ip, now.size⟩) (fun _ _ now => ⟨now.1, reading.within, now.2⟩)
    (fun _ _ now => inside_of_ip reading.within now.1 more) m reading

/-- **An operand byte is fetched**, unless memory ends in front of it. -/
theorem reading_fetch (more : count + 1 < size) :
    Ensures (Reading start count) (fetch : Action σ UInt8) (fun _ => Reading start (count + 1))
      fun _ => Inside start size := by
  refine .bind (Q := fun _ m => m.cpu.regs.ip = start + count + 1 ∧ start + count < memorySize ∧
      m.memory.size = memorySize) (.modify fun m reading => ?_) fun _ => .get ?_
  · exact ⟨congrArg (· + 1) reading.ip, reading.within, reading.size⟩
  rintro m ⟨there, before, full⟩
  split
  -- the pointer has already moved when the end of memory is noticed
  · refine .throw fun now same => ?_
    subst same
    exact
      { onward := by omega
        before := by omega
        within := by omega }
  · next within =>
    have reading : Reading start (count + 1) m :=
      { ip := by omega
        within := by omega
        size := full }
    exact .of_eq reading ((quiet_load _).reading more)

theorem reading_fetchPair (right : Right) :
    Ensures (Reading start 0) (fetchPair right : Action σ (UInt8 × UInt8)) (fun _ => Reading start 2)
      fun _ => Inside start 3 :=
  .bind (reading_fetch (by decide)) fun _ => .bind (reading_fetch (by decide)) fun _ =>
    ((quiet_readOperand _ _).bind fun _ => .pure _).reading (by decide)

/-- **The end of an instruction**: it fails where the instruction pointer is, or moves on from there. Where
it goes is not said unless it goes on with the next byte. -/
def Departs (onward : Prop) (action : Action σ Unit) : Prop :=
  ∀ ip, Ensures (fun m => m.cpu.regs.ip = ip) action (fun _ m => onward → m.cpu.regs.ip = ip + 1)
    fun _ m => m.cpu.regs.ip = ip

theorem Departs.advance : Departs onward (advance : Action σ Unit) :=
  fun _ => .modify fun _ there _ => congrArg (· + 1) there

theorem Departs.goto (elsewhere : ¬onward) (address : UInt8) :
    Departs onward (goto address : Action σ Unit) :=
  fun _ => .modify fun _ _ ahead => absurd ahead elsewhere

theorem Departs.behind {first : Action σ α} {next : α → Action σ Unit} (pinned : Pinned first)
    (departs : ∀ a, Departs onward (next a)) : Departs onward (first >>= next) :=
  fun ip => .bind (pinned ip).ensures fun a => departs a ip

theorem Departs.ends {action : Action σ Unit} (departs : Departs onward action) :
    Ensures (Reading start count) action (fun _ m => onward → m.cpu.regs.ip = start + (count + 1 : Nat))
      fun _ => Inside start (count + 1) :=
  fun m reading => Ensures.mono (departs (start + count)) (fun _ => Reading.ip)
    (fun _ now moved ahead => by rw [moved ahead]; omega)
    (fun _ _ there => inside_of_ip reading.within there (Nat.lt_succ_self count)) m reading

/-! ## Where instructions end -/

/-- The instruction is no jump, no call and no return. -/
def sequential : Instr → Bool
  | .jump _ _ | .call _ | .ret => false
  | _ => true

/-- The instruction goes on behind itself: it is no jump that is taken, no call and no return. -/
def continues (regs : Registers) : Instr → Bool
  | .jump condition _ => !regs.holds condition
  | .call _ | .ret => false
  | _ => true

theorem Executes.ip_eq {regs now : Registers} {memory after : Memory} {instr : Instr}
    (executes : Executes env regs memory instr now after) (onward : continues regs instr = true) :
    now.ip = regs.ip + instr.size := by
  cases executes with
  | jumpTaken operand holds => simp [continues, holds] at onward
  | call operand pushes room => cases onward
  | ret top => cases onward
  | _ => simp

section Passenger

variable (passenger : env.Passenger)
include passenger

/-- **The instruction pointer behind and inside an instruction.** It is on the last byte of the instruction
when that has been carried out, and then it moves on; an instruction that fails has not got further. -/
theorem departs_execute (instr : Instr) :
    Ensures (Reading start 0) (execute env instr)
      (fun _ m => sequential instr = true → m.cpu.regs.ip = start + instr.size)
      fun _ => Inside start instr.size := by
  -- the one byte behind an opcode, or the first and the second of two
  have only : 0 + 1 < 2 := by decide
  have first : 0 + 1 < 3 := by decide
  have second : 0 + 1 + 1 < 3 := by decide
  -- behind its bytes an instruction does its work without moving the pointer, and leaves at the end
  cases instr with
  | halt =>
    have stops : Departs (sequential .halt = true) (halt : Action σ Unit) :=
      fun _ _ there _ => congrArg (· + 1) there
    exact stops.ends
  | move form =>
    exact .bind (reading_fetch first) fun _ => .bind (reading_fetch second) fun _ =>
      Departs.ends <| .behind (quiet_readOperand _ _).pinned fun _ =>
        .behind (pinned_writeOperand passenger _ _ _) fun _ => .advance
  | binary op right =>
    exact .bind (reading_fetchPair right) fun _ => Departs.ends <|
      .behind (quiet_register _).pinned fun _ => .behind (quiet_readRegister _).pinned fun _ =>
        .behind (quiet_orTrap _).pinned fun _ => .behind (pinned_writeRegister _ _) fun _ =>
        .behind (pinned_writeFlags _) fun _ => .advance
  | compare right =>
    exact .bind (reading_fetchPair right) fun _ => Departs.ends <|
      .behind (quiet_register _).pinned fun _ => .behind (quiet_readRegister _).pinned fun _ =>
        .behind (pinned_writeFlags _) fun _ => .advance
  | shift direction right =>
    refine .bind (reading_fetchPair right) fun _ => Departs.ends <|
      .behind (quiet_register _).pinned fun _ => .behind (quiet_readRegister _).pinned fun _ => ?_
    split
    · exact .behind (pinned_writeRegister _ _) fun _ => .behind (pinned_writeFlags _) fun _ => .advance
    · exact .advance
  | unary op =>
    refine .bind (reading_fetch only) fun _ => Departs.ends <|
      .behind (quiet_register _).pinned fun _ => .behind (quiet_readRegister _).pinned fun _ =>
        .behind (pinned_writeRegister _ _) fun _ => ?_
    -- either way of keeping the carry leaves the pointer alone
    split
    · exact .behind (pinned_modifyRegs fun _ => rfl) fun _ => .advance
    · exact .behind (pinned_writeFlags _) fun _ => .advance
  | jump condition destination =>
    refine .bind (reading_fetch only) fun _ => Departs.ends <|
      .behind (quiet_readOperand _ _).pinned fun _ => .behind quiet_getRegs.pinned fun _ => ?_
    -- a jump that is taken is not one that goes on behind itself
    split
    · exact .goto nofun _
    · exact .advance
  | push right =>
    exact .bind (reading_fetch only) fun _ => Departs.ends <|
      .behind (quiet_readOperand _ _).pinned fun _ => .behind (pinned_push passenger _) fun _ => .advance
  | pushFlags =>
    exact Departs.ends <| .behind quiet_getRegs.pinned fun _ =>
      .behind (pinned_push passenger _) fun _ => .advance
  | pop =>
    exact .bind (reading_fetch only) fun _ => Departs.ends <|
      .behind (quiet_register _).pinned fun _ => .behind pinned_pop fun _ =>
        .behind (pinned_writeRegister _ _) fun _ => .advance
  | popFlags =>
    exact Departs.ends <| .behind pinned_pop fun _ =>
      .behind (pinned_modifyRegs fun _ => rfl) fun _ => .advance
  | call destination =>
    exact .bind (reading_fetch only) fun _ => Departs.ends <|
      .behind (quiet_readOperand _ _).pinned fun _ => .behind quiet_getRegs.pinned fun _ =>
        .behind (pinned_push passenger _) fun _ => .goto nofun _
  | ret => exact Departs.ends <| .behind pinned_pop fun _ => .goto nofun _
  | output =>
    exact .bind (reading_fetch only) fun _ => Departs.ends <|
      .behind quiet_getRegs.pinned fun _ => .behind (pinned_writePort passenger _ _) fun _ => .advance
  | input =>
    exact .bind (reading_fetch only) fun _ => Departs.ends <|
      .behind (pinned_readPort passenger _) fun _ =>
        .behind (pinned_modifyRegs fun _ => rfl) fun _ => .advance

end Passenger

/-- An instruction whose opcode is at the instruction pointer is fetched. -/
theorem fetches_of_holds {regs : Registers} {memory : Memory} {instr : Instr} {codes : List UInt8}
    (there : memory.Holds regs.ip (UInt8.ofNat instr.opcode :: codes)) : Fetches regs memory instr := by
  refine ⟨UInt8.ofNat instr.opcode, there.head, ?_⟩
  rw [Instr.toNat_ofNat_opcode]
  exact Instr.decode?_opcode instr

/-- The operands of an instruction are the bytes behind its opcode. -/
theorem hasOperand_of_holds {regs : Registers} {memory : Memory} {instr : Instr} {codes : List UInt8}
    (there : memory.Holds (regs.ip + 1) codes) {index : Nat} {shape : Shape} {code : UInt8}
    (slot : instr.shapes[index]? = some shape) (byte : codes[index]? = some code) :
    HasOperand regs memory instr index shape code := by
  refine ⟨slot, ?_⟩
  have loaded := there index code byte
  have same : regs.ip + ((index + 1 : Nat) : Int) = regs.ip + 1 + index := by omega
  rwa [same]

/-- No instruction has more than two operands. -/
theorem length_shapes_le (instr : Instr) : instr.shapes.length ≤ 2 := by
  cases instr <;> simp [Instr.shapes]

/-! ## Jumps and calls -/

section Targets

variable {m after : Machine σ} {instr : Instr} {condition : Condition} {destination : Destination}

/-- What jumps and calls begin with: the target is the value of their operand. -/
theorem exists_target {next : UInt8 → Action σ Unit} {done : Unit}
    (slot : instr.shapes[0]? = some destination.shape)
    (ran : (do next (← readOperand destination.shape (← fetch))) m = .ok done after) :
    ∃ target now, Values m.cpu.regs m.memory instr 0 target ∧ Ahead m 1 now ∧
      next target now = .ok done after := by
  obtain ⟨code, now, fetched, reads⟩ := exists_of_bind_ok ran
  obtain ⟨loaded, ahead⟩ := (Ahead.start m).fetch fetched
  obtain ⟨target, same, read, goes⟩ := exists_of_bind_ok reads
  obtain ⟨found, rfl⟩ := ahead.operand read
  exact ⟨target, _, ⟨destination.shape, code, ⟨slot, loaded⟩, found⟩, ahead, goes⟩

/-- **A jump** goes to its target if its condition holds, and on to the next instruction if not. -/
theorem ip_of_jump {done : Unit} (ran : execute env (.jump condition destination) m = .ok done after) :
    if m.cpu.regs.holds condition then
      ∃ target, Values m.cpu.regs m.memory (.jump condition destination) 0 target ∧
        after.cpu.regs.ip = target.toNat
    else after.cpu.regs.ip = m.cpu.regs.ip + (Instr.jump condition destination).size := by
  have slot : (Instr.jump condition destination).shapes[0]? = some destination.shape := rfl
  obtain ⟨target, now, value, ahead, ran⟩ := exists_target slot ran
  change (ite (now.cpu.regs.holds condition = true) (goto target) advance : Action σ Unit) now = _ at ran
  -- the flags are not changed by reading the target
  rw [ahead.regs, Registers.holds_forward] at ran
  split at ran
  · next holds =>
    rw [if_pos holds]
    cases ran
    exact ⟨target, value, rfl⟩
  · next passes =>
    rw [if_neg passes]
    cases ran
    show now.cpu.regs.ip + 1 = _
    rw [ahead.regs, Registers.ip_forward, Int.add_assoc]
    rfl

theorem endPush_ok {done : Unit} (ran : endPush m = .ok done after) :
    after = { m with cpu := { m.cpu with regs := { m.cpu.regs with sp := m.cpu.regs.sp - 1 } } } := by
  change (ite (m.cpu.regs.sp - 1 < stackLimit) _ _ : Action σ Unit) _ = _ at ran
  split at ran
  · cases ran
  · cases ran
    rfl

/-- A store whose observers leave it alone has left its byte in memory. -/
theorem store_left (leaves : env.LeavesStores) (full : m.memory.Full) {address value : Int} {done : Unit}
    (ran : store env address value m = .ok done after) :
    after.cpu.regs.sp = m.cpu.regs.sp ∧ after.memory.load address = .ok (Bits.toByte value) := by
  obtain ⟨old, same, loaded, rest⟩ := exists_of_bind_ok ran
  obtain ⟨inside, rfl⟩ := query_ok (load_eq _ _) loaded
  -- what happens behind the store keeps the byte and the stack pointer
  let Left (now : Machine σ) : Prop :=
    now.cpu.regs.sp = same.cpu.regs.sp ∧ now.memory.load address = .ok (Bits.toByte value)
  have told : Keeps Left (do
      ((← get).observers.watching address).forM fun hook =>
        env.notify hook (.watch address old (Bits.toByte value))
      if displayStart ≤ address ∧ address ≤ displayEnd then
        tellListeners env address (Bits.toByte value)) := by
    -- watchpoints are told of every store, listeners of stores to the display
    refine .get fun m => .bind (.forM fun hook => leaves.notify _ _ _ _ (.watch old) _) fun _ => ?_
    split
    · exact keeps_tellListeners (fun hook => leaves.notify _ _ _ _ .display _) fun _ _ left => left
    · exact .pure _
  have written := told.ensures
    { same with memory := same.memory.write address.toNat (Bits.toByte value) }
    ⟨rfl, Memory.load_write_self full (Memory.inside_of_load inside) _⟩
  have ends := (bind_of_ok rfl).symm.trans rest
  rw [ends] at written
  exact written

/-- The byte has been pushed: it was stored at the stack pointer, and nothing else was done around the
processor. If the observers of the store leave it alone, it is on top of the stack now. -/
structure Pushed (env : Env σ) (m : Machine σ) (byte : UInt8) (after : Machine σ) : Prop where
  stored : ∃ before between, Inward m before ∧
    store env m.cpu.regs.sp byte.toNat before = .ok () between ∧ Inward between after
  top : env.LeavesStores →
    after.cpu.regs.sp = m.cpu.regs.sp - 1 ∧ after.memory.load m.cpu.regs.sp = .ok byte

/-- What happens inside the processor before and behind a push does not matter. -/
theorem Pushed.around {byte : UInt8} {begun now : Machine σ} (pushed : Pushed env begun byte now)
    (before : Inward m begun) (pointer : begun.cpu.regs.sp = m.cpu.regs.sp) (behind : Inward now after)
    (kept : after.cpu.regs = now.cpu.regs) : Pushed env m byte after := by
  obtain ⟨⟨started, between, reached, stored, rest⟩, top⟩ := pushed
  rw [pointer] at stored top
  rw [← kept, ← behind.memory_eq] at top
  exact ⟨⟨started, between, before.trans reached, stored, rest.trans behind⟩, top⟩

/-- **A call** pushes the address behind it, the low byte of it at least, and goes to its target. -/
theorem pushed_of_call (full : m.memory.Full) {done : Unit}
    (ran : execute env (.call destination) m = .ok done after) :
    (∃ target, Values m.cpu.regs m.memory (.call destination) 0 target ∧
        after.cpu.regs.ip = target.toNat) ∧
      Pushed env m (Bits.toByte (m.cpu.regs.ip + (Instr.call destination).size)) after := by
  have slot : (Instr.call destination).shapes[0]? = some destination.shape := rfl
  obtain ⟨target, now, value, ahead, calls⟩ := exists_target slot ran
  obtain ⟨regs, same, got, pushes⟩ := exists_of_bind_ok calls
  -- from here on the parts of the call, one after the other: its push, then its jump
  obtain ⟨rfl, rfl⟩ := EStateM.Result.ok.inj got
  obtain ⟨⟨⟩, pushed, stores, went⟩ := exists_of_bind_ok pushes
  rw [push_eq] at stores
  obtain ⟨⟨⟩, between, stored, checked⟩ := exists_of_bind_ok stores
  obtain rfl := endPush_ok checked
  obtain rfl := (EStateM.Result.ok.inj went).2
  -- the return address is counted from behind the operand
  have behind : now.cpu.regs.ip + 1 = m.cpu.regs.ip + (Instr.call destination).size := by
    rw [ahead.regs]
    exact Int.add_assoc ..
  have pointer : now.cpu.regs.sp = m.cpu.regs.sp := by rw [ahead.regs]; rfl
  rw [behind, pointer, store_toByte] at stored
  refine ⟨⟨target, value, rfl⟩, ⟨now, between, ahead.inward, stored, rfl⟩, fun leaves => ?_⟩
  have full : now.memory.Full := by rwa [ahead.inward.memory_eq]
  obtain ⟨kept, top⟩ := store_left leaves full stored
  rw [Bits.toByte_toNat] at top
  -- the byte is found again if no callback stores
  exact ⟨(congrArg (· - 1) kept).trans (by rw [pointer]), top⟩

end Targets

/-! ## Steps -/

/-- **Where a step ends** that starts at this instruction. -/
structure StepEnds (env : Env σ) (m : Machine σ) (instr : Instr) : Prop where
  onward : ∀ after, step env m = .ok () after → continues m.cpu.regs instr = true →
    after.cpu.regs.ip = m.cpu.regs.ip + instr.size
  jump : ∀ after condition destination, step env m = .ok () after →
    instr = .jump condition destination → m.cpu.regs.holds condition = true →
      ∃ target, Values m.cpu.regs m.memory instr 0 target ∧ after.cpu.regs.ip = target.toNat
  call : ∀ after destination, step env m = .ok () after → instr = .call destination →
    (∃ target, Values m.cpu.regs m.memory instr 0 target ∧ after.cpu.regs.ip = target.toNat) ∧
      ∃ byte, (byte.toNat : Int) = (m.cpu.regs.ip + instr.size) % 256 ∧ Pushed env m byte after
  fault : ∀ fault after, step env m = .error (.fault fault) after →
    m.cpu.regs.ip ≤ after.cpu.regs.ip ∧ after.cpu.regs.ip < m.cpu.regs.ip + instr.size ∧
      0 ≤ after.cpu.regs.ip ∧ after.cpu.regs.ip ≤ memorySize

section Step

variable (passenger : env.Passenger) {m : Machine σ} (full : m.memory.Full)

include full in
/-- With an instruction at the instruction pointer, no operand byte has been read yet. -/
theorem reading_of_fetches {instr : Instr} (fetches : Fetches m.cpu.regs m.memory instr) :
    Reading m.cpu.regs.ip 0 { m with cpu := m.cpu.traced instr } := by
  obtain ⟨opcode, loaded, -⟩ := fetches
  have inside := Memory.inside_of_load loaded
  rw [full.size] at inside
  exact
    { ip := by rw [Processor.regs_traced, Int.natCast_zero, Int.add_zero]
      within := by omega
      size := full.size }

/-- Between instructions, a jump that is not taken is as good as none. -/
theorem sequential_of_continues {regs : Registers} {instr : Instr}
    (onward : continues regs instr = true) :
    sequential instr = true ∨ ∃ condition destination, instr = .jump condition destination ∧
      regs.holds condition = false := by
  cases instr with
  | jump condition destination => exact .inr ⟨condition, destination, rfl, by simpa [continues] using onward⟩
  | call destination => cases onward
  | ret => cases onward
  | _ => exact .inl rfl

include passenger full

theorem stepEnds (ready : m.cpu.mode = .ready) {instr : Instr}
    (fetches : Fetches m.cpu.regs m.memory instr) : StepEnds env m instr := by
  -- the step runs on the machine that has been traced, which differs in nothing that counts
  have begun : ({ m with cpu := m.cpu.traced instr } : Machine σ).memory.Full := full
  have reading := reading_of_fetches full fetches
  obtain ⟨opcode, loaded, -⟩ := id fetches
  have inside := Memory.inside_of_load loaded
  have ends := departs_execute passenger instr _ reading
  exact
    { onward := by
        intro after ran onward
        obtain ⟨now, worked, same, -⟩ := exists_of_step_ok ready fetches ran
        rw [same]
        -- what does not jump ends behind itself by its shape, and a jump that is not taken by its flags
        obtain next | ⟨condition, destination, rfl, passes⟩ := sequential_of_continues onward
        · rw [worked] at ends
          exact ends next
        · have jumped := ip_of_jump worked
          rw [Processor.regs_traced, passes] at jumped
          exact jumped
      jump := by
        rintro after condition destination ran rfl holds
        obtain ⟨now, worked, same, -⟩ := exists_of_step_ok ready fetches ran
        have jumped := ip_of_jump worked
        rw [Processor.regs_traced, holds] at jumped
        rw [same]
        exact jumped
      call := by
        rintro after destination ran rfl
        obtain ⟨now, worked, same, rest⟩ := exists_of_step_ok ready fetches ran
        obtain ⟨went, pushed⟩ := pushed_of_call begun worked
        have pointer := congrArg Registers.sp (Processor.regs_traced m.cpu (.call destination))
        rw [Processor.regs_traced, ← same] at went
        refine ⟨went, _, Bits.toNat_toByte _, ?_⟩
        rw [← Processor.regs_traced m.cpu (.call destination)]
        exact pushed.around rfl pointer rest same
      fault := by
        intro fault after failed
        obtain ⟨cause, stopped, worked, same⟩ := exists_of_step_fault ready fetches failed
        rw [worked] at ends
        -- a fault has left the pointer inside of the instruction
        obtain ⟨onward, before, within⟩ := ends
        rw [← same] at onward before within
        exact ⟨onward, before, inside.1.trans onward, within⟩ }

/-- **Processor and disassembler agree** on where instructions end. -/
theorem step_boundaries (ready : m.cpu.mode = .ready) :
    (∀ instr, Fetches m.cpu.regs m.memory instr → StepEnds env m instr) ∧
      ∀ address code before item rest, m.memory.Holds address code →
        disassemble address code = before ++ item :: rest → item.isData = false →
        m.cpu.regs.ip = item.address →
        ∃ instr, Fetches m.cpu.regs m.memory instr ∧ item.bytes.length = instr.size ∧
          ∀ after, step env m = .ok () after → continues m.cpu.regs instr = true →
            after.cpu.regs.ip = startOf rest (address + code.length) := by
  refine ⟨fun instr fetches => stepEnds passenger full ready fetches, ?_⟩
  intro address code before item rest holds items noData place
  -- the items in front of it cut the code at its bytes
  obtain ⟨front, back, rfl, start, rfl⟩ := exists_of_disassemble items
  obtain ⟨instr, fetches, length⟩ : ∃ instr, Fetches m.cpu.regs m.memory instr ∧
      item.bytes.length = instr.size := by
    -- an item that is no data has been decoded from an opcode, and that is what is fetched
    cases origin_of_mem_disassemble (items ▸ List.mem_append_right before List.mem_cons_self) with
    | data address byte =>
      rw [isData_dataItem] at noData
      cases noData
    | @instr _ opcode instr operands decoded enough =>
      refine ⟨instr, ⟨opcode, ?_, decoded⟩, ?_⟩
      · rw [place, start]
        exact holds front.length opcode (by simp)
      · rw [List.length_cons, enough, Instr.size, Nat.add_comm]
  refine ⟨instr, fetches, length, fun after ran onward => ?_⟩
  -- what is left of the code begins behind its bytes
  have stop : address + ((front ++ (item.bytes ++ back)).length : Nat) =
      item.address + item.bytes.length + back.length := by
    rw [start, List.length_append, List.length_append]
    omega
  rw [stop, startOf_disassemble, (stepEnds passenger full ready fetches).onward after ran onward, place,
    length]

end Step

/-- Whoever is told of an output stores a seven. -/
def scribbling : Env Unit :=
  ⟨fun _ _ => modify fun m => { m with memory := m.memory.write 200 7 }, fun _ _ => pure 0⟩

/-- The code is an output in front of a halt, and there is an observer of the port. -/
def outputAndHalt : Machine Unit :=
  { memory := beginning [Instr.output.opcode, 2, Instr.halt.opcode]
    observers := { writeTaps := [(2, 0)] }
    notes := () }

theorem fetches_outputAndHalt :
    Fetches outputAndHalt.cpu.regs outputAndHalt.memory .output := by
  decide +kernel

/-- An output in front of a halt: the step ends at the address of the second item, although its observer has
stored a byte meanwhile. -/
theorem step_boundaries_of_output :
    ∃ (after : Machine Unit) (output halt : Item), scribbling.Passenger ∧ outputAndHalt.memory.Full ∧
      outputAndHalt.cpu.mode = .ready ∧ outputAndHalt.memory.Holds 0 [83, 2, 0] ∧
      disassemble 0 [83, 2, 0] = [output, halt] ∧ output.isData = false ∧
      outputAndHalt.cpu.regs.ip = output.address ∧ step scribbling outputAndHalt = .ok () after ∧
      after.memory.load 200 = .ok 7 ∧ StepEnds scribbling outputAndHalt .output ∧
      after.cpu.regs.ip = halt.address := by
  -- the callback of the port stores and does not move the pointer
  have passenger : scribbling.Passenger :=
    ⟨fun _ _ _ => .modify fun _ there => there, fun _ _ _ => .pure _⟩
  have full : outputAndHalt.memory.Full := full_beginning (by decide)
  have holds : outputAndHalt.memory.Holds 0 [83, 2, 0] := by decide +kernel
  have items : disassemble 0 [83, 2, 0] =
      [⟨0, [83, 2], instrText .output [2]⟩, ⟨2, [0], instrText .halt []⟩] := by
    decide +kernel
  obtain ⟨after, ran, stored⟩ := exists_of_leadsTo scribbling outputAndHalt
    (fun after => after.memory.load 200 = .ok 7) (by decide +kernel)
  -- both halves of the theorem: how the step ends, and where the disassembler goes on
  obtain ⟨ends, agree⟩ := step_boundaries passenger full rfl
  obtain ⟨instr, same, -, next⟩ := agree 0 [83, 2, 0] [] _ _ holds items (isData_instr ..) rfl
  obtain rfl := fetches_outputAndHalt.unique same
  exact ⟨after, _, _, passenger, full, rfl, holds, items, isData_instr .., rfl, ran,
    of_decide_eq_true stored, ends _ fetches_outputAndHalt, next after ran rfl⟩

/-- **An output can be led astray.** Its observer resets the processor, and the instruction pointer moves on
from the address zero. -/
theorem exists_output_led_astray :
    ∃ after, outputAndHalt.memory.Full ∧ outputAndHalt.cpu.mode = .ready ∧
      Fetches outputAndHalt.cpu.regs outputAndHalt.memory .output ∧
      step restarting outputAndHalt = .ok () after ∧
      continues outputAndHalt.cpu.regs .output = true ∧
      outputAndHalt.cpu.regs.ip + Instr.output.size = 2 ∧ after.cpu.regs.ip = 1 := by
  obtain ⟨after, ran, astray⟩ := exists_of_leadsTo restarting outputAndHalt
    (fun after => after.cpu.regs.ip = 1) (by decide +kernel)
  exact ⟨after, full_beginning (by decide), rfl, fetches_outputAndHalt, ran, rfl, rfl,
    of_decide_eq_true astray⟩

end Machine

end EightBit
