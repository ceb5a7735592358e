import EightBit.Proofs.Disassembly.Reassembly
import EightBit.Proofs.Machine.Twins

/-!
# Executing a Reassembled Instruction

An instruction that is assembled again from its text can have other bytes, but they mean the same. Put in
the place of the instruction they do the same, as long as nobody looks at them: neither an operand of the
instruction nor a push may be at one of these addresses, and observers must not tell them apart. The two
machines then complete or fail alike, and agree afterwards in all but the bytes that were replaced.

Instructions without an operand in memory always come back as they were. For all others the operand bytes
are fetched first, and what is done then is the same for both machines, since the bytes that were fetched
denote the same places.

## Main Definitions

- `Spans`: the addresses of some bytes.
- `Memory.patch`, `reloaded`: memory with other bytes from an address on, and a machine with other bytes at
  its instruction pointer.
- `InFrontOf`: a machine that is ready to execute an instruction whose bytes nothing else uses.

## Main Statements

- `paired_execute`: an instruction and one that restates it come to the same.
- `step_reassembled`: so does a step with the reassembled bytes.
-/

namespace EightBit

open Disassembly

/-! ## Bytes put into memory -/

/-- The addresses of some bytes from a start on. -/
def Spans (start : Int) (length : Nat) (address : Int) : Prop :=
  start ≤ address ∧ address < start + length

instance (start : Int) (length : Nat) (address : Int) : Decidable (Spans start length address) :=
  inferInstanceAs (Decidable (_ ∧ _))

namespace Memory

/-- The memory with these bytes from an address on. -/
def patch (memory : Memory) (address : Int) : List UInt8 → Memory
  | [] => memory
  | byte :: rest => (memory.write address.toNat byte).patch (address + 1) rest

/-- Putting a byte where it is already changes nothing. -/
theorem write_of_load {memory : Memory} {address : Int} {byte : UInt8} (full : memory.Full)
    (loaded : memory.load address = .ok byte) : memory.write address.toNat byte = memory := by
  obtain ⟨low, high⟩ := inside_of_load loaded
  have within : address.toNat < memory.bytes.size := by
    have sizes := full.size.trans full.bytes.symm
    omega
  rw [load, if_pos ⟨low, high⟩] at loaded
  have there : memory.bytes[address.toNat] = byte := by
    simpa [within] using loaded
  have same : memory.bytes.setIfInBounds address.toNat byte = memory.bytes := by
    rw [Array.setIfInBounds, dif_pos within, ← there]
    exact Array.set_getElem_self ..
  rw [write, same]

theorem patch_of_holds {memory : Memory} {address : Int} {bytes : List UInt8} (full : memory.Full)
    (there : memory.Holds address bytes) : memory.patch address bytes = memory := by
  induction bytes generalizing address with
  | nil => rfl
  | cons byte rest ih =>
    rw [patch, write_of_load full there.head]
    exact ih there.tail

/-- Outside of the bytes that were put there, memory is as it was. -/
theorem sameBut_patch (memory : Memory) {address : Int} (nonneg : 0 ≤ address) (bytes : List UInt8) :
    memory.SameBut (Spans address bytes.length) (memory.patch address bytes) := by
  induction bytes generalizing memory address with
  | nil => exact .refl _ memory
  | cons byte rest ih =>
    have next : 0 ≤ address + 1 := by omega
    -- the first byte is in front of all that is written behind it
    obtain ⟨size, length, outside⟩ := ih (memory.write address.toNat byte) next
    refine ⟨size, length.trans Array.size_setIfInBounds, fun place apart => ?_⟩
    simp only [Spans, List.length_cons] at apart outside
    rw [patch, outside place (by omega), load_write_of_ne nonneg (by omega)]

/-- The bytes that were put into memory are there. -/
theorem holds_patch {memory : Memory} (full : memory.Full) {address : Int} (nonneg : 0 ≤ address)
    {bytes : List UInt8} (fits : address + bytes.length ≤ memory.size) :
    (memory.patch address bytes).Holds address bytes := by
  induction bytes generalizing memory address with
  | nil => nofun
  | cons byte rest ih =>
    rw [List.length_cons] at fits
    have again := full.write address.toNat byte
    have next : 0 ≤ address + 1 := by omega
    have later := ih again next (by rw [again.size, ← full.size]; omega)
    -- the bytes behind it are written at other addresses, so the first one is still there
    have here : ((memory.write address.toNat byte).patch (address + 1) rest).load address = .ok byte := by
      rw [(sameBut_patch _ next rest).outside address (by simp only [Spans]; omega)]
      exact load_write_self full ⟨nonneg, by omega⟩ byte
    intro index value found
    -- the first byte by itself, the others by the hypothesis one address further
    cases index with
    | zero =>
      cases found
      rwa [Int.natCast_zero, Int.add_zero]
    | succ index =>
      have loaded := later index value found
      rwa [Int.add_assoc, Int.add_comm 1] at loaded

end Memory

/-! ## Operands that mean the same -/

/-- Operands of this shape are places in memory. -/
def Shape.isPlace : Shape → Bool
  | .address | .indirect | .stackOffset => true
  | .register | .immediate | .target | .label | .text => false

namespace Registers

variable (regs : Registers) {shape other : Shape} {code value : UInt8}

theorem address?_of_not_isPlace (noPlace : shape.isPlace = false) (code : UInt8) :
    regs.address? shape code = none := by
  cases shape <;> first | rfl | cases noPlace

/-- Operand bytes that mean the same denote the same place, if any. -/
theorem address?_of_synonymous (synonymous : Synonymous shape code other value) :
    regs.address? other value = regs.address? shape code := by
  cases synonymous with
  | refl => rfl
  | place address one another => rw [one, another]

/-- They have the same value in memories that are the same where the operand is. -/
theorem operand?_of_synonymous (synonymous : Synonymous shape code other value) {inside : Int → Prop}
    {memory after : Memory} (same : memory.SameBut inside after)
    (apart : regs.Avoids inside shape code) :
    regs.operand? after other value = regs.operand? memory shape code := by
  rw [← regs.operand?_of_sameBut same apart]
  cases synonymous with
  | refl => rfl
  | place address one another =>
    rw [Machine.operand?_of_address? (one regs), Machine.operand?_of_address? (another regs)]

end Registers

namespace Machine

variable {σ α β : Type} {m n : Machine σ}

/-! ## Fetched operands -/

/-- What follows a byte that was fetched. -/
theorem fetch_bind {next : UInt8 → Action σ β} {code : UInt8}
    (loaded : m.memory.load (m.cpu.regs.ip + 1) = .ok code) :
    (fetch >>= next) m = next code (m.forward 1) :=
  bind_of_ok (fetch_of_load loaded)

theorem fetch_bind_bind {next : UInt8 → UInt8 → Action σ β} {left right : UInt8}
    (there : m.memory.Holds (m.cpu.regs.ip + 1) [left, right]) :
    (fetch >>= fun first => fetch >>= fun second => next first second) m =
      next left right (m.forward 2) := by
  have second : (m.forward 1).memory.load ((m.forward 1).cpu.regs.ip + 1) = .ok right := there.tail.head
  rw [fetch_bind there.head, fetch_bind second, forward_forward]

theorem fetchPair_bind {right : Right} {next : UInt8 × UInt8 → Action σ β} {left code : UInt8}
    (there : m.memory.Holds (m.cpu.regs.ip + 1) [left, code]) :
    (fetchPair right >>= next) m =
      (readOperand right.shape code >>= fun value => next (left, value)) (m.forward 2) := by
  simp only [fetchPair, bind_assoc, pure_bind]
  exact fetch_bind_bind there

theorem Twins.forward {inside : Int → Prop} (twins : Twins inside m n) (count : Nat) :
    Twins inside (m.forward count) (n.forward count) := by
  cases twins with
  | intro bytes lines => exact .intro (m := m.forward count) bytes lines

/-! ## Reading and writing operands that mean the same -/

section Operands

variable {inside : Int → Prop} (twins : Twins inside m n) {shape other : Shape} {code value : UInt8}
  (synonymous : Synonymous shape code other value)
  (apart : m.cpu.regs.Avoids inside shape code)
include twins synonymous apart

/-- Both machines read the same, and what follows can use it. -/
theorem paired_readOperand {Q : Machine σ → Machine σ → Prop} {next next' : UInt8 → Action σ β}
    (behind : ∀ byte, m.cpu.regs.operand? m.memory shape code = .ok byte →
      Paired Q (fun _ => Twins inside) (next byte m) (next' byte n)) :
    Paired Q (fun _ => Twins inside) ((readOperand shape code >>= next) m)
      ((readOperand other value >>= next') n) := by
  refine Paired.query (readOperand_eq shape code m) ?_ behind fun _ _ => twins
  rw [readOperand_eq, twins.regs_eq,
    m.cpu.regs.operand?_of_synonymous synonymous twins.sameBut apart]

/-- Both machines store the same in the same place, or change the same register. -/
theorem paired_writeOperand {env : Env σ} (overlooks : env.Overlooks inside) (byte : UInt8) :
    Paired (Twins inside) (fun _ => Twins inside) (writeOperand env shape code byte m)
      (writeOperand env other value byte n) := by
  cases place : m.cpu.regs.address? shape code with
  | some address =>
    have placeToo : n.cpu.regs.address? other value = some address := by
      rw [twins.regs_eq, m.cpu.regs.address?_of_synonymous synonymous, place]
    rw [writeOperand_eq place, writeOperand_eq placeToo]
    exact overlook_store overlooks (apart address place) _ m n twins
  | none =>
    -- no place, so it is the same operand of both
    cases synonymous with
    | place address one another =>
      rw [one] at place
      cases place
    | refl =>
      cases shape with
      | register => exact ((overlook_register code).bind fun _ => overlook_modifyRegs _) m n twins
      | immediate => exact .ok twins
      | target => exact .ok twins
      | label => exact .ok twins
      | text => exact .ok twins
      | address => cases place
      | indirect => cases place
      | stackOffset => cases place

end Operands

/-! ## Instructions -/

section Instructions

variable {env : Env σ} {inside : Int → Prop} (twins : Twins inside m n)
include twins

/-- Two moves between operands that mean the same. -/
theorem paired_move (overlooks : env.Overlooks inside) {form other : Move}
    {left right value value' : UInt8}
    (there : m.memory.Holds (m.cpu.regs.ip + 1) [left, right])
    (thereToo : n.memory.Holds (n.cpu.regs.ip + 1) [value, value'])
    (destination : Synonymous form.shapes.1 left other.shapes.1 value)
    (source : Synonymous form.shapes.2 right other.shapes.2 value')
    (apartLeft : m.cpu.regs.Avoids inside form.shapes.1 left)
    (apartRight : m.cpu.regs.Avoids inside form.shapes.2 right) :
    Paired (Twins inside) (fun _ => Twins inside) (move env form m) (move env other n) := by
  have ahead := twins.forward 2
  rw [move, move, fetch_bind_bind there, fetch_bind_bind thereToo]
  refine paired_readOperand ahead source (apartRight.forward 2) fun byte _ => ?_
  exact (paired_writeOperand ahead destination (apartLeft.forward 2) overlooks byte).bind
    fun _ one two _ now => overlook_modifyRegs _ one two now

/-- What follows a register and a right operand. The register has the same byte in both. -/
theorem paired_fetchPair {right : Right} {codes values : List UInt8} (length : codes.length = 2)
    (there : m.memory.Holds (m.cpu.regs.ip + 1) codes)
    (thereToo : n.memory.Holds (n.cpu.regs.ip + 1) values)
    (all : List.Forall₂ (fun pair value => Synonymous pair.1 pair.2 pair.1 value)
      ([Shape.register, right.shape].zip codes) values)
    (apart : ∀ code, codes[1]? = some code → m.cpu.regs.Avoids inside right.shape code)
    {next : UInt8 × UInt8 → Action σ Unit} (behind : ∀ pair, Overlook inside (next pair) (next pair)) :
    Paired (Twins inside) (fun _ => Twins inside) ((fetchPair right >>= next) m)
      ((fetchPair right >>= next) n) := by
  match codes, length with
  | [left, code], _ =>
    obtain ⟨same, value, rfl, isRegister, synonymous⟩ := exists_pair_of_forall₂
      (show List.Forall₂ _ [(Shape.register, left), (right.shape, code)] values from all)
    -- a register is encoded by one byte only, so the left operand is the same on both machines
    obtain ⟨-, rfl⟩ := isRegister.eq_of_placeless fun _ => rfl
    have ahead := twins.forward 2
    rw [fetchPair_bind there, fetchPair_bind thereToo]
    exact paired_readOperand ahead synonymous ((apart code rfl).forward 2) fun byte _ =>
      behind _ _ _ ahead

/-- Two pushes of operands that mean the same. -/
theorem paired_pushOperand (overlooks : env.Overlooks inside) {right : Right} {code value : UInt8}
    (there : m.memory.Holds (m.cpu.regs.ip + 1) [code])
    (thereToo : n.memory.Holds (n.cpu.regs.ip + 1) [value])
    (synonymous : Synonymous right.shape code right.shape value)
    (apart : m.cpu.regs.Avoids inside right.shape code)
    (apartStack : ∀ byte, m.cpu.regs.operand? m.memory right.shape code = .ok byte →
      ¬inside m.cpu.regs.sp) :
    Paired (Twins inside) (fun _ => Twins inside) (pushOperand env right m)
      (pushOperand env right n) := by
  have ahead := twins.forward 1
  rw [pushOperand, fetch_bind there.head, fetch_bind thereToo.head]
  refine paired_readOperand ahead synonymous (apart.forward 1) fun byte isByte => ?_
  -- the operand has been fetched, and its address does not depend on that
  have found : m.cpu.regs.operand? m.memory right.shape code = .ok byte :=
    (m.cpu.regs.operand?_forward 1 m.memory right.shape code).symm.trans isByte
  exact (paired_push overlooks ahead (apartStack byte found) _).bind fun _ one two _ now =>
    overlook_modifyRegs _ one two now

end Instructions

/-- Without an operand in memory, bytes that mean the same are the same. -/
theorem eq_of_placeless {pairs : List (Shape × UInt8)} {values : List UInt8}
    (all : List.Forall₂ (fun pair value => Synonymous pair.1 pair.2 pair.1 value) pairs values)
    (placeless : ∀ pair ∈ pairs, pair.1.isPlace = false) : values = pairs.map Prod.snd := by
  induction all with
  | nil => rfl
  | @cons pair value pairs values first _ ih =>
    rw [List.forall_mem_cons] at placeless
    obtain ⟨-, rfl⟩ := first.eq_of_placeless fun regs => regs.address?_of_not_isPlace placeless.1 _
    rw [List.map_cons, ih placeless.2]

/-- **An instruction and one that restates it** come to the same, if they are not the same bytes and the
operands are elsewhere. -/
theorem paired_execute {env : Env σ} {inside : Int → Prop} (overlooks : env.Overlooks inside)
    (twins : Twins inside m n) {instr other : Instr} {codes values : List UInt8}
    (restates : Restates instr codes other values) (length : codes.length = instr.shapes.length)
    (changed : other = instr → values ≠ codes)
    (there : m.memory.Holds (m.cpu.regs.ip + 1) codes)
    (thereToo : n.memory.Holds (n.cpu.regs.ip + 1) values)
    (operands : ∀ index address, Denotes m.cpu.regs m.memory instr index address → ¬inside address)
    (pushes : ∀ byte, Pushes m.cpu.regs m.memory instr byte → ¬inside m.cpu.regs.sp) :
    Paired (Twins inside) (fun _ => Twins inside) (execute env instr m) (execute env other n) := by
  have apart : ∀ index {shape code}, instr.shapes[index]? = some shape → codes[index]? = some code →
      m.cpu.regs.Avoids inside shape code :=
    fun index _ _ slot byte address place =>
      operands index address ⟨_, _, hasOperand_of_holds there slot byte, place⟩
  cases restates with
  | move destination source =>
    exact paired_move twins overlooks there thereToo destination source (apart 0 rfl rfl)
      (apart 1 rfl rfl)
  | operands all =>
    -- an instruction without an operand in memory comes back with the same bytes
    have hasPlace : instr.shapes.all (fun shape => !shape.isPlace) = true → False := by
      intro placeless
      have equal := eq_of_placeless all fun pair mem => by
        simpa using List.all_eq_true.1 placeless _ (List.of_mem_zip mem).1
      rw [List.map_snd_zip (by omega)] at equal
      exact changed rfl equal
    cases instr with
    | move form =>
      match codes, length with
      | [left, right], _ =>
        obtain ⟨value, value', rfl, destination, source⟩ := exists_pair_of_forall₂
          (show List.Forall₂ _ [(form.shapes.1, left), (form.shapes.2, right)] values from all)
        exact paired_move twins overlooks there thereToo destination source (apart 0 rfl rfl)
          (apart 1 rfl rfl)
    | binary op right =>
      exact paired_fetchPair twins length there thereToo all (fun _ => apart 1 rfl) fun (left, value) =>
        (overlook_register left).bind fun r => (overlook_readRegister r).bind fun _ =>
          (overlook_orTrap _).bind fun _ => (overlook_modifyRegs _).bind fun _ =>
          (overlook_modifyRegs _).bind fun _ => overlook_modifyRegs _
    | compare right =>
      exact paired_fetchPair twins length there thereToo all (fun _ => apart 1 rfl) fun (left, value) =>
        (overlook_register left).bind fun r => (overlook_readRegister r).bind fun _ =>
          (overlook_modifyRegs _).bind fun _ => overlook_modifyRegs _
    | shift direction right =>
      refine paired_fetchPair twins length there thereToo all (fun _ => apart 1 rfl)
        fun (left, value) => (overlook_register left).bind fun r =>
          (overlook_readRegister r).bind fun _ => ?_
      split
      · exact (overlook_modifyRegs _).bind fun _ => (overlook_modifyRegs _).bind fun _ =>
          overlook_modifyRegs _
      · exact overlook_modifyRegs _
    | push right =>
      match codes, length with
      | [code], _ =>
        obtain ⟨value, rfl, synonymous⟩ := exists_single_of_forall₂
          (show List.Forall₂ _ [(right.shape, code)] values from all)
        have is : HasOperand m.cpu.regs m.memory (.push right) 0 right.shape code :=
          hasOperand_of_holds there rfl rfl
        exact paired_pushOperand twins overlooks there thereToo synonymous (apart 0 rfl rfl)
          fun byte found => pushes byte (.operand ⟨_, _, is, found⟩)
    | jump condition destination => cases destination <;> exact (hasPlace rfl).elim
    | call destination => cases destination <;> exact (hasPlace rfl).elim
    | halt => exact (hasPlace rfl).elim
    | unary op => exact (hasPlace rfl).elim
    | pop => exact (hasPlace rfl).elim
    | pushFlags => exact (hasPlace rfl).elim
    | popFlags => exact (hasPlace rfl).elim
    | ret => exact (hasPlace rfl).elim
    | output => exact (hasPlace rfl).elim
    | input => exact (hasPlace rfl).elim

/-! ## The step -/

theorem mnemonic_of_restates {instr other : Instr} {codes values : List UInt8}
    (restates : Restates instr codes other values) : other.mnemonic = instr.mnemonic := by
  cases restates with
  | operands => rfl
  | move => rfl

/-- **A ready machine in front of an instruction** with these bytes, none of which is an operand of the
instruction or the place of a push. -/
structure InFrontOf (m : Machine σ) (instr : Instr) (bytes : List UInt8) : Prop where
  ready : m.cpu.mode = .ready
  full : m.memory.Full
  there : m.memory.Holds m.cpu.regs.ip bytes
  operands : ∀ index address, Denotes m.cpu.regs m.memory instr index address →
    ¬Spans m.cpu.regs.ip instr.size address
  pushes : ∀ byte, Pushes m.cpu.regs m.memory instr byte →
    ¬Spans m.cpu.regs.ip instr.size m.cpu.regs.sp

/-- The machine with other bytes at its instruction pointer. -/
def reloaded (m : Machine σ) (bytes : List UInt8) : Machine σ :=
  { m with memory := m.memory.patch m.cpu.regs.ip bytes }

/-- **Reassembling an instruction keeps its meaning.** If the text of an instruction assembles, then to as
many bytes, and a step of a machine in front of these bytes does what it does in front of the instruction:
it completes or fails alike, and leaves the same machine but for those bytes. -/
theorem step_reassembled {opcode : UInt8} {instr : Instr} {codes : List UInt8}
    (decoded : Instr.decode? opcode.toNat = some instr) (length : codes.length = instr.shapes.length)
    {program : Program}
    (assembled : EightBit.assemble (String.ofList (instrText instr codes)) = .ok program) :
    program.code.length = instr.size ∧
      ∀ {σ : Type} {env : Env σ} {m : Machine σ}, InFrontOf m instr (opcode :: codes) →
        env.Overlooks (Spans m.cpu.regs.ip instr.size) →
        Paired (Twins (Spans m.cpu.regs.ip instr.size)) (fun _ => Twins (Spans m.cpu.regs.ip instr.size))
          (step env m) (step env (m.reloaded program.code)) := by
  obtain ⟨other, values, code, count, restates⟩ := assemble_instrText length assembled
  have size : program.code.length = instr.size := by
    rw [code, List.length_cons, count, length, Instr.size, Nat.add_comm]
  refine ⟨size, fun {σ env m} front overlooks => ?_⟩
  by_cases same : other = instr ∧ values = codes
  · -- the same bytes are put in the place where they are
    obtain ⟨rfl, rfl⟩ := same
    have isOpcode : UInt8.ofNat other.opcode = opcode := by
      rw [Instr.opcode_of_decode? decoded, UInt8.ofNat_toNat]
    have unchanged : m.reloaded program.code = m := by
      rw [reloaded, code, isOpcode, Memory.patch_of_holds front.full front.there]
    rw [unchanged]
    exact .refl _
  · have inside := Memory.inside_of_load front.there.head
    have fits := front.there.fits
    have bytes := m.memory.sameBut_patch inside.1 program.code
    have holds : (m.reloaded program.code).memory.Holds m.cpu.regs.ip
        (UInt8.ofNat other.opcode :: values) := by
      rw [← code]
      refine Memory.holds_patch front.full inside.1 ?_
      rwa [size, Instr.size, ← length, Nat.add_comm]
    rw [size] at bytes
    have twins : Twins (Spans m.cpu.regs.ip instr.size) m (m.reloaded program.code) := .intro bytes rfl
    have fetches : Fetches m.cpu.regs m.memory instr := ⟨opcode, front.there.head, decoded⟩
    have work := paired_execute overlooks (twins.traced (mnemonic_of_restates restates)) restates length
      (fun isInstr isCodes => same ⟨isInstr, isCodes⟩)
    simp only [Processor.regs_traced] at work
    rw [step_of_ready front.ready, step_of_ready (show (m.reloaded program.code).cpu.mode = .ready from
      front.ready)]
    refine paired_guarded ?_
    show Paired _ _ (Machine.work env m.cpu.regs.ip m)
      (Machine.work env (m.reloaded program.code).cpu.regs.ip (m.reloaded program.code))
    rw [work_of_fetches fetches, work_of_fetches (fetches_of_holds holds)]
    exact work front.there.tail holds.tail front.operands front.pushes

/-- A machine that is about to load a register from the stack. -/
def loadingFromStack : Machine Unit where
  memory := beginning [4, 0, 20]
  notes := ()

/-- A register in brackets with five bits of offset comes back as the stack pointer with eight. -/
theorem step_reassembled_stack :
    ∃ program, EightBit.assemble (String.ofList (instrText (.move .registerIndirect) [0, 20])) =
        .ok program ∧ program.code = [5, 0, 2] ∧
      InFrontOf loadingFromStack (.move .registerIndirect) [4, 0, 20] ∧ alone.Overlooks (Spans 0 3) ∧
      program.code.length = 3 ∧
      Paired (Twins (Spans 0 3)) (fun _ => Twins (Spans 0 3)) (step alone loadingFromStack)
        (step alone (loadingFromStack.reloaded program.code)) := by
  have assembled : EightBit.assemble (String.ofList (instrText (.move .registerIndirect) [0, 20])) =
      .ok ⟨[5, 0, 2], [(0, 1), (1, 1), (2, 1)], []⟩ := by
    decide +kernel
  have there : loadingFromStack.memory.Holds 0 [4, 0, 20] := by decide +kernel
  have front : InFrontOf loadingFromStack (.move .registerIndirect) [4, 0, 20] := by
    refine ⟨rfl, full_beginning (by decide), there, ?_, nofun⟩
    -- the one place that the instruction means lies outside of its own bytes
    rintro index address ⟨shape, code, is, place⟩
    match index with
    | 0 =>
      obtain rfl : Shape.register = shape := Option.some.inj is.slot
      cases place
    | 1 =>
      have isOperand : HasOperand loadingFromStack.cpu.regs loadingFromStack.memory
          (.move .registerIndirect) 1 .indirect 20 := by
        decide +kernel
      obtain ⟨rfl, rfl⟩ := is.unique isOperand
      have computed : loadingFromStack.cpu.regs.address? .indirect 20 = some 193 := by decide +kernel
      obtain rfl := Option.some.inj (computed.symm.trans place)
      decide
    | _ + 2 => cases is.slot
  have overlooks : alone.Overlooks (Spans 0 3) := fun _ _ => overlook_pure ()
  have decoded : Instr.decode? (4 : UInt8).toNat = some (.move .registerIndirect) := rfl
  have reassembled := step_reassembled decoded rfl assembled
  exact ⟨_, assembled, rfl, front, overlooks, reassembled.1, reassembled.2 front overlooks⟩

end Machine

end EightBit
