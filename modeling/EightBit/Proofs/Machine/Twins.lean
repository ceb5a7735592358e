import EightBit.Proofs.Machine.Local
import EightBit.Proofs.Machine.Progress

/-!
# Machines that are Twins

Two machines are twins if they have the same bytes but for some addresses, and agree in all else. Nothing
that keeps away from these addresses tells them apart: reading and storing elsewhere, computing, counting an
instruction or latching a fault comes to the same on both, and leaves them twins. Their traces may name
different instructions, as long as the lines read the same.

## Main Definitions

- `Memory.SameBut`: two memories with the same bytes but for some addresses.
- `Twins`: two machines that agree in all else.
- `Overlook`: actions that come to the same on twins.
- `Env.Overlooks`: observers that do not look at some addresses.

## Main Statements

- `Paired.query`: both machines are asked the same.
- `overlook_store`: storing elsewhere keeps machines twins.
- `paired_guarded`: so does what is made of an instruction and its failures.
-/

namespace EightBit

/-! ## Memories -/

/-- Two memories of one size with the same bytes but for some addresses. -/
structure Memory.SameBut (inside : Int → Prop) (memory other : Memory) : Prop where
  size : other.size = memory.size
  length : other.bytes.size = memory.bytes.size
  outside : ∀ address, ¬inside address → other.load address = memory.load address

theorem Memory.SameBut.refl (inside : Int → Prop) (memory : Memory) : memory.SameBut inside memory :=
  ⟨rfl, rfl, fun _ _ => rfl⟩

/-- The same byte stored in both, wherever it is. -/
theorem Memory.SameBut.write {inside : Int → Prop} {memory other : Memory}
    (same : memory.SameBut inside other) (address : Nat) (value : UInt8) :
    (memory.write address value).SameBut inside (other.write address value) where
  size := same.size
  length := by
    simp only [Memory.write, Array.size_setIfInBounds]
    exact same.length
  outside := by
    intro place apart
    -- at the address itself both have the new byte, and at any other one what they had
    by_cases here : place = address
    · subst here
      simp [load, Memory.write, Array.getElem?_setIfInBounds, same.size, same.length]
    · have elsewhere : ∀ memory : Memory, (memory.write address value).load place = memory.load place :=
        fun memory => load_write_of_ne (Int.natCast_nonneg address) here value
      rw [elsewhere, elsewhere]
      exact same.outside place apart

/-! ## Operands -/

/-- The operand is at none of these addresses, if it is a place in memory at all. -/
def Registers.Avoids (regs : Registers) (inside : Int → Prop) (shape : Shape) (code : UInt8) : Prop :=
  ∀ address, regs.address? shape code = some address → ¬inside address

/-- Moving the instruction pointer does not move operands. -/
theorem Registers.Avoids.forward {regs : Registers} {inside : Int → Prop} {shape : Shape} {code : UInt8}
    (apart : regs.Avoids inside shape code) (count : Nat) :
    (regs.forward count).Avoids inside shape code := by
  intro address place
  rw [address?_forward] at place
  exact apart address place

/-- An operand elsewhere has the same value in both memories. -/
theorem Registers.operand?_of_sameBut {inside : Int → Prop} {memory other : Memory}
    (same : memory.SameBut inside other) (regs : Registers) {shape : Shape} {code : UInt8}
    (apart : regs.Avoids inside shape code) :
    regs.operand? other shape code = regs.operand? memory shape code := by
  cases place : regs.address? shape code with
  | some address =>
    rw [Machine.operand?_of_address? place, Machine.operand?_of_address? place,
      same.outside address (apart address place)]
  | none => cases shape <;> first | rfl | cases place

namespace Machine

variable {σ α β : Type}

/-! ## Machines -/

/-- **Two machines are twins** but for the bytes at some addresses. The lines of their traces read the
same. -/
inductive Twins (inside : Int → Prop) (m : Machine σ) : Machine σ → Prop
  | intro {memory : Memory} {trace : Array TraceEntry} (bytes : m.memory.SameBut inside memory)
      (lines : trace.toList.map TraceEntry.line = m.cpu.trace.toList.map TraceEntry.line) :
      Twins inside m { m with memory, cpu := { m.cpu with trace } }

/-- Actions that come to the same on machines that are twins, and leave them twins. -/
abbrev Overlook (inside : Int → Prop) (action other : Action σ α) : Prop :=
  Coupled (Twins inside) action other (Twins inside) fun _ => Twins inside

section Twins

variable {inside : Int → Prop} {m n : Machine σ}

theorem Twins.refl (inside : Int → Prop) (m : Machine σ) : Twins inside m m :=
  .intro (.refl inside m.memory) rfl

theorem Twins.regs_eq (twins : Twins inside m n) : n.cpu.regs = m.cpu.regs := by
  cases twins
  rfl

theorem Twins.sameBut (twins : Twins inside m n) : m.memory.SameBut inside n.memory := by
  cases twins with
  | intro bytes => exact bytes

/-- Instructions of one mnemonic have the same line in a trace. -/
theorem Twins.traced (twins : Twins inside m n) {instr other : Instr}
    (mnemonic : other.mnemonic = instr.mnemonic) :
    Twins inside { m with cpu := m.cpu.traced instr } { n with cpu := n.cpu.traced other } := by
  cases twins with
  | @intro memory trace bytes lines =>
    -- the line of the trace shows the mnemonic and the registers, and these are the same
    have line : TraceEntry.line ⟨m.cpu.regs.ip, other, m.cpu.regs⟩ =
        TraceEntry.line ⟨m.cpu.regs.ip, instr, m.cpu.regs⟩ := by
      simp only [TraceEntry.line, mnemonic]
    unfold Processor.traced
    dsimp only
    split
    · refine .intro (m := { m with cpu := { m.cpu with
        trace := m.cpu.trace.push ⟨m.cpu.regs.ip, instr, m.cpu.regs⟩ } }) bytes ?_
      simp only [Array.toList_push, List.map_append, lines, List.map_singleton, line]
    · exact .intro bytes lines

/-- The same machine comes to the same. -/
theorem Paired.refl (result : EStateM.Result Failure (Machine σ) α) :
    Paired (Twins inside) (fun _ => Twins inside) result result := by
  cases result with
  | ok a now => exact .ok (.refl inside now)
  | error failure now => exact .error (.refl inside now)

end Twins

/-- Both machines are asked the same, and what follows starts with machines that are as they were. -/
theorem Paired.query {Q : Machine σ → Machine σ → Prop} {E : Failure → Machine σ → Machine σ → Prop}
    {first second : Action σ α} {next next' : α → Action σ β} {m n : Machine σ} {ε : Type}
    {wrap : ε → Failure} {result : Except ε α} (asks : first m = answer wrap result m)
    (asksToo : second n = answer wrap result n)
    (found : ∀ a, result = .ok a → Paired Q E (next a m) (next' a n))
    (failed : ∀ e, result = .error e → E (wrap e) m n) :
    Paired Q E ((first >>= next) m) ((second >>= next') n) := by
  show Paired Q E (EStateM.bind first next m) (EStateM.bind second next' n)
  rw [EStateM.bind, EStateM.bind, asks, asksToo]
  cases result with
  | ok a => exact found a rfl
  | error e => exact .error (failed e rfl)

/-! ## What does not tell machines apart -/

section Overlook

variable {inside : Int → Prop}

theorem overlook_pure (a : α) : Overlook inside (pure a : Action σ α) (pure a) :=
  Coupled.pure fun _ _ twins => twins

theorem overlook_throw (failure : Failure) :
    Overlook inside (throw failure : Action σ α) (throw failure) :=
  Coupled.throw fun _ _ twins => twins

/-- A change of the processor that does not look at its trace. -/
theorem overlook_processor {f : Processor → Processor}
    (blind : ∀ cpu trace, f { cpu with trace } = { f cpu with trace })
    (keeps : ∀ cpu, (f cpu).trace = cpu.trace) :
    Overlook inside (modify fun m => { m with cpu := f m.cpu } : Action σ Unit)
      (modify fun m => { m with cpu := f m.cpu }) := by
  refine Coupled.modify fun m n twins => ?_
  cases twins with
  | @intro memory trace bytes lines =>
    -- the traces may differ, and the change neither sees nor writes one
    have changed := blind m.cpu trace
    rw [← keeps m.cpu] at lines
    show Twins inside { m with cpu := f m.cpu } { m with memory, cpu := f { m.cpu with trace } }
    rw [changed]
    exact .intro (m := { m with cpu := f m.cpu }) bytes lines

theorem overlook_modifyRegs (f : Registers → Registers) :
    Overlook inside (modifyRegs f : Action σ Unit) (modifyRegs f) :=
  overlook_processor (f := fun cpu => { cpu with regs := f cpu.regs }) (fun _ _ => rfl) fun _ => rfl

theorem overlook_record (level : Journal.Level) (part : Journal.Part) (text : String) :
    Overlook inside (record level part text : Action σ Unit) (record level part text) := by
  refine Coupled.modify fun m n twins => ?_
  cases twins with
  | intro bytes lines => exact .intro bytes lines

/-- What follows may look at all but memory and trace. -/
theorem overlook_get {next next' : Machine σ → Action σ β}
    (blind : ∀ m memory trace,
      next' { m with memory, cpu := { m.cpu with trace } } = next' m)
    (behind : ∀ m, Overlook inside (next m) (next' m)) :
    Overlook inside (get >>= next) (get >>= next') := by
  refine Coupled.get fun m n twins => ?_
  have looked : next' n = next' m := by
    cases twins
    exact blind m _ _
  rw [looked]
  exact behind m m n twins

theorem overlook_getRegs : Overlook inside (getRegs : Action σ Registers) getRegs :=
  overlook_get (fun _ _ _ => rfl) fun _ => overlook_pure _

theorem overlook_readRegister (r : Register) :
    Overlook inside (readRegister r : Action σ UInt8) (readRegister r) :=
  overlook_getRegs.bind fun _ => overlook_pure _

theorem overlook_register (code : UInt8) :
    Overlook inside (register code : Action σ Register) (register code) := by
  unfold register
  split
  · exact overlook_pure _
  · exact overlook_throw _

theorem overlook_orTrap (result : Except Trap α) :
    Overlook inside (orTrap result : Action σ α) (orTrap result) := by
  cases result with
  | ok a => exact overlook_pure a
  | error trap => exact overlook_throw _

end Overlook

/-! ## Stores -/

end Machine

/-- **Observers that do not look at some addresses**: told the same of machines that are twins, they do
the same to both. -/
def Env.Overlooks {σ : Type} (env : Env σ) (inside : Int → Prop) : Prop :=
  ∀ hook notice, Machine.Overlook inside (env.notify hook notice) (env.notify hook notice)

namespace Machine

section Observed

variable {env : Env σ} {inside : Int → Prop} (overlooks : env.Overlooks inside)
include overlooks

/-- **Storing elsewhere keeps machines twins.** The observers are told the same byte that was there. -/
theorem overlook_store {address : Int} (apart : ¬inside address) (value : Int) :
    Overlook inside (store env address value) (store env address value) := by
  -- outside of the bytes that are not looked at, both load the same
  have loads : Overlook inside (load address : Action σ UInt8) (load address) := by
    intro m n twins
    rw [load_eq, load_eq, twins.sameBut.outside address apart]
    cases m.memory.load address with
    | ok value => exact .ok twins
    | error access => exact .error twins
  refine loads.bind fun old => .bind (Q := Twins inside) (Coupled.modify fun m n twins => ?_) fun _ =>
    overlook_get (fun _ _ _ => rfl) fun m => .bind (.forM fun hook => overlooks hook _) fun _ => ?_
  -- both store the same byte, and both tell the same observers
  · cases twins with
    | intro bytes lines => exact .intro (bytes.write _ _) lines
  · split
    · refine overlook_get (fun _ _ _ => rfl) fun m => .forM fun listener => ?_
      cases listener with
      | hook hook => exact overlooks hook _
      | display =>
        refine Coupled.modify fun m n twins => ?_
        cases twins with
        | intro bytes lines => exact .intro bytes lines
    · exact overlook_pure _

/-- Pushing elsewhere does, too. -/
theorem paired_push {m n : Machine σ} (twins : Twins inside m n) (apart : ¬inside m.cpu.regs.sp)
    (value : Int) :
    Paired (Twins inside) (fun _ => Twins inside) (push env value m) (push env value n) := by
  have asks : ∀ now : Machine σ, getRegs now = answer id (.ok now.cpu.regs) now := fun _ => rfl
  -- the twins have the same stack pointer, and it is apart from where they differ
  refine Paired.query (asks m) (twins.regs_eq ▸ asks n) (fun regs is => ?_) nofun
  · obtain rfl := Except.ok.inj is
    refine ((overlook_store overlooks apart value).bind fun _ => (overlook_modifyRegs _).bind fun _ =>
      overlook_getRegs.bind fun regs => ?_) m n twins
    split
    · exact overlook_throw _
    · exact overlook_pure _

end Observed

/-! ## Around an instruction -/

section Around

variable {inside : Int → Prop}

theorem overlook_complete (ip : Int) : Overlook inside (complete ip : Action σ Unit) (complete ip) := by
  refine (overlook_processor (f := fun cpu => { cpu with instructions := cpu.instructions + 1 })
    (fun _ _ => rfl) fun _ => rfl).bind fun _ => overlook_getRegs.bind fun regs => ?_
  split
  · exact (overlook_processor (f := fun cpu => { cpu with
      mode := .faulted, lastFault := some ⟨.flagRestored, ip⟩ }) (fun _ _ => rfl) fun _ => rfl).bind
        fun _ => overlook_record _ _ _
  · exact overlook_pure _

theorem overlook_recover (ip : Int) (failure : Failure) :
    Overlook inside (recover ip failure : Action σ Unit) (recover ip failure) := by
  -- a fault is latched without a look at memory
  have latches : ∀ reason, Overlook inside (latch reason ip : Action σ Unit) (latch reason ip) :=
    fun reason => (overlook_processor (f := fun cpu => { cpu with
      regs := { cpu.regs with sr := Status.setFault cpu.regs.sr true }
      mode := .faulted
      lastFault := some ⟨reason, ip⟩ }) (fun _ _ => rfl) fun _ => rfl).bind
        fun _ => (overlook_record _ _ _).bind fun _ => overlook_throw _
  cases failure with
  | trap trap => exact latches _
  | outOfBounds access => exact latches _
  | refused refusal => exact latches _
  | fault fault => exact latches _
  | waiting => exact overlook_throw _
  | aborted => exact (overlook_modifyRegs _).bind fun _ => overlook_throw _

/-- **What is made of an instruction and its failures** is the same, if the two instructions come to the
same. -/
theorem paired_guarded {ip : Int} {work other : Action σ Unit} {m n : Machine σ}
    (worked : Paired (Twins inside) (fun _ => Twins inside) (work m) (other n)) :
    Paired (Twins inside) (fun _ => Twins inside) (guarded ip work m) (guarded ip other n) := by
  have both : Coupled (fun a b => a = m ∧ b = n) work other (Twins inside) fun _ => Twins inside := by
    rintro _ _ ⟨rfl, rfl⟩
    exact worked
  exact ((both.tryCatch fun failure => overlook_recover ip failure).bind fun _ =>
    overlook_complete ip) m n ⟨rfl, rfl⟩

end Around

end Machine

end EightBit
