import EightBit.Proofs.Machine.Atomicity
import EightBit.Proofs.Machine.Display

/-!
# Failing Observers of the Display Region

A store writes its byte first, then tells the watchpoints of the address, and then those who listen to the
display region, the display in front. An observer that fails ends the store where it stands, and nobody
makes up for what is left out. So a failing watchpoint leaves the display with the byte that was there
before; a failing listener behind the display does not matter to it.

## Main Definitions

- `tellWatchers`: the part of a store that watchpoints are told in.
- `Env.Discreet`: observers of stores that leave memory and display alone.
- `WatcherFails`, `ListenerFails`: who fails.
- `Makes`: a store that is made directly, or by the instruction that a step executes.

## Main Statements

- `shown_tellListeners`: the display is told before the listeners behind it can fail.
- `execute_of_reachesStore`: an instruction makes its store where its operands have been fetched.
- `cell_iff_of_observer_fails`: when the display is up to date after a store that has failed.
-/

namespace EightBit

/-- The byte that the display has for an address of its region. -/
def Display.cell? (display : Display) (address : Int) : Option UInt8 :=
  display.cells[(address - displayStart).toNat]?

namespace Machine

variable {σ : Type} {env : Env σ}

/-! ## What a store tells -/

/-- The byte is in memory, and nobody has been told of it. -/
def written (m : Machine σ) (address : Int) (value : UInt8) : Machine σ :=
  { m with memory := m.memory.write address.toNat value }

/-- Tells the watchpoints of an address. -/
def tellWatchers (env : Env σ) (address : Int) (old new : UInt8) : Action σ Unit := do
  ((← get).observers.watching address).forM fun hook => env.notify hook (.watch address old new)

/-- The address is in the display region. -/
def InRegion (address : Int) : Prop :=
  displayStart ≤ address ∧ address ≤ displayEnd

instance (address : Int) : Decidable (InRegion address) :=
  inferInstanceAs (Decidable (_ ∧ _))

/-- Inside the region, a store tells the watchpoints and then the listeners. -/
theorem store_of_inRegion {address : Int} (inside : InRegion address) {old : UInt8} {m : Machine σ}
    (loaded : m.memory.load address = .ok old) (value : UInt8) :
    store env address value.toNat m =
      (tellWatchers env address old value >>= fun _ => tellListeners env address value)
        (m.written address value) := by
  have loads : load address m = .ok old m := by
    rw [load_eq, loaded]
    rfl
  rw [store, bind_of_ok loads, Bits.toByte_toNat]
  simp only [InRegion] at inside
  simp only [inside, and_self, if_true]
  rfl

/-- A watchpoint fails that is told of the byte. -/
def WatcherFails (env : Env σ) (address : Int) (value : UInt8) (m : Machine σ) : Prop :=
  ∃ old failure stopped, m.memory.load address = .ok old ∧
    tellWatchers env address old value (m.written address value) = .error failure stopped

/-- The watchpoints have been told of the byte, and a listener fails. -/
def ListenerFails (env : Env σ) (address : Int) (value : UInt8) (m : Machine σ) : Prop :=
  ∃ old told failure stopped, m.memory.load address = .ok old ∧
    tellWatchers env address old value (m.written address value) = .ok () told ∧
    tellListeners env address value told = .error failure stopped

/-- Either a watchpoint fails or a listener, since listeners are told behind all watchpoints. -/
theorem WatcherFails.not_listenerFails {address : Int} {value : UInt8} {m : Machine σ}
    (watcher : WatcherFails env address value m) : ¬ListenerFails env address value m := by
  rintro ⟨old, told, -, -, loaded, watched, -⟩
  obtain ⟨old', failure, stopped, loaded', failed⟩ := watcher
  obtain rfl := Except.ok.inj (loaded.symm.trans loaded')
  rw [watched] at failed
  cases failed

/-! ## Observers that leave the display alone -/

/-- The machine has its memory, and a display that is told of stores before other listeners are. -/
structure Equipped (m : Machine σ) : Prop where
  full : m.memory.Full
  count : m.display.cells.length = displayRows * displayColumns
  first : m.observers.listeners.head? = some .display

/-- The two machines have the same memory, the same display, and the same listeners. -/
structure Scene (m now : Machine σ) : Prop where
  memory : now.memory = m.memory
  display : now.display = m.display
  listeners : now.observers.listeners = m.observers.listeners

theorem detached_scene (m : Machine σ) : Detached (Scene m) where
  keeps := fun _ _ _ _ _ _ scene => ⟨scene.memory, scene.display, scene.listeners⟩
  control := fun _ _ scene => ⟨scene.memory, scene.display, scene.listeners⟩

theorem Equipped.of_scene {m now : Machine σ} (equipped : Equipped m) (scene : Scene m now) :
    Equipped now where
  full := scene.memory ▸ equipped.full
  count := by rw [scene.display, equipped.count]
  first := by rw [scene.listeners, equipped.first]

end Machine

/-- **Observers of stores leave memory and display alone**, and those who listen to it. They may do anything
else, and fail in any way. -/
structure Env.Discreet {σ : Type} (env : Env σ) : Prop where
  notify : ∀ hook notice address value, Notice.IsAbout address value notice →
    ∀ m, Machine.Keeps (Machine.Scene m) (env.notify hook notice)

namespace Machine

variable {σ : Type} {env : Env σ}

section Discreet

variable (discreet : env.Discreet)
include discreet

theorem keeps_tellWatchers (m : Machine σ) (address : Int) (old new : UInt8) :
    Keeps (Scene m) (tellWatchers env address old new) :=
  .get fun _ => .forM fun hook => discreet.notify hook _ _ _ (.watch old) m

/-- The display shows the byte that this memory has at the address. -/
structure Shown (memory : Memory) (address : Int) (value : UInt8) (m : Machine σ) : Prop where
  memory : m.memory = memory
  count : m.display.cells.length = displayRows * displayColumns
  cell : m.display.cell? address = some value

omit discreet in
theorem Shown.of_scene {memory : Memory} {address : Int} {value : UInt8} {m now : Machine σ}
    (shown : Shown memory address value m) (scene : Scene m now) : Shown memory address value now where
  memory := scene.memory.trans shown.memory
  count := by rw [scene.display, shown.count]
  cell := by rw [scene.display, shown.cell]

omit discreet in
/-- The display takes a byte of its region. -/
theorem shown_update {address : Int} (inside : InRegion address) (value : UInt8) {m : Machine σ}
    (count : m.display.cells.length = displayRows * displayColumns) :
    Shown m.memory address value
      { m with display := m.display.update address value.toNat } := by
  obtain ⟨low, high⟩ := inside
  -- the address is one of a cell, and the display is complete
  have within : 0 ≤ address - displayStart ∧ address - displayStart < m.display.cells.length := by
    rw [count]
    simp only [displayStart, displayEnd, displayRows, displayColumns] at low high ⊢
    omega
  have updated : (m.display.update address value.toNat).cells =
      m.display.cells.set (address - displayStart).toNat value := by
    rw [Display.update, if_pos within, Bits.toByte_toNat]
  refine ⟨rfl, ?_, ?_⟩
  · show (m.display.update address value.toNat).cells.length = _
    rw [updated, List.length_set, count]
  · show (m.display.update address value.toNat).cells[_]? = _
    rw [updated, List.getElem?_set_self (by omega)]

/-- What the display shows, it still shows when an observer has been told of the byte. -/
theorem keeps_shown (memory : Memory) (address : Int) (value : UInt8) (hook : Hook) :
    Keeps (Shown memory address value) (env.notify hook (.display address value)) := by
  refine ⟨fun now shown => ?_⟩
  have kept := (discreet.notify hook (.display address value) _ _ .display now).ensures now
    ⟨rfl, rfl, rfl⟩
  cases told : env.notify hook (.display address value) now with
  | ok done after =>
    rw [told] at kept
    exact shown.of_scene kept
  | error failure after =>
    rw [told] at kept
    exact shown.of_scene kept

/-- **The display is told first**, so it has the byte whatever the listeners behind it do. -/
theorem shown_tellListeners {address : Int} (inside : InRegion address) (value : UInt8) {m : Machine σ}
    (count : m.display.cells.length = displayRows * displayColumns) {rest : List Listener}
    (first : m.observers.listeners = .display :: rest) :
    Ensures (Scene m) (tellListeners env address value)
      (fun _ => Shown m.memory address value) fun _ => Shown m.memory address value := by
  refine .get fun now scene => ?_
  rw [scene.listeners, first]
  -- the display is the first that is told, and the others keep what it then shows
  refine .of_eq scene (.bind (Q := fun _ => Shown m.memory address value) (.modify fun now scene => ?_)
    fun _ => .forM fun listener => ?_)
  · rw [← scene.memory]
    exact shown_update inside value (by rw [scene.display, count])
  · cases listener with
    | hook hook => exact (keeps_shown discreet _ _ _ hook).ensures
    | display =>
      refine .modify fun now shown => ?_
      rw [← shown.memory]
      exact shown_update inside value shown.count

/-! ### Stores -/

/-- With a failing watchpoint, the store ends before the display is told. -/
theorem WatcherFails.store {address : Int} (inside : InRegion address) {value : UInt8} {m : Machine σ}
    (fails : WatcherFails env address value m) :
    ∃ failure stopped, store env address value.toNat m = .error failure stopped ∧
      Scene (m.written address value) stopped := by
  obtain ⟨old, failure, stopped, loaded, watched⟩ := fails
  have kept := (keeps_tellWatchers discreet (m.written address value) address old value).ensures _
    ⟨rfl, rfl, rfl⟩
  rw [watched] at kept
  exact ⟨failure, stopped, (store_of_inRegion inside loaded value).trans (bind_of_error watched), kept⟩

/-- With a failing listener, the store ends when the display has been told. -/
theorem ListenerFails.store {address : Int} (inside : InRegion address) {value : UInt8} {m : Machine σ}
    (equipped : Equipped m) (fails : ListenerFails env address value m) :
    ∃ failure stopped, store env address value.toNat m = .error failure stopped ∧
      Shown (m.written address value).memory address value stopped := by
  obtain ⟨old, told, failure, stopped, loaded, watched, heard⟩ := fails
  have kept := (keeps_tellWatchers discreet (m.written address value) address old value).ensures _
    ⟨rfl, rfl, rfl⟩
  -- watchers run first and leave the display alone, so what the listeners find is as it was stored
  rw [watched] at kept
  obtain ⟨rest, first⟩ := List.head?_eq_some_iff.1 equipped.first
  have shown := shown_tellListeners discreet (m := m.written address value) inside value
    equipped.count first told kept
  rw [heard] at shown
  exact ⟨failure, stopped, (store_of_inRegion inside loaded value).trans
    ((bind_of_ok watched).trans heard), shown⟩

end Discreet

/-! ## A store of an instruction -/

section Instructions

variable {m : Machine σ} {instr : Instr}

/-- An operand byte is fetched when those before it have been. -/
theorem fetch_forward {index : Nat} {shape : Shape} {code : UInt8}
    (operand : HasOperand m.cpu.regs m.memory instr index shape code) :
    fetch (m.forward index) = .ok code (m.forward (index + 1)) := by
  have place : (m.forward index).cpu.regs.ip + 1 = m.cpu.regs.ip + (index + 1 : Nat) :=
    Int.add_assoc ..
  have there : (m.forward index).memory.load ((m.forward index).cpu.regs.ip + 1) = .ok code := by
    rw [place]
    exact operand.byte
  rw [fetch_of_load there, forward_forward]

/-- An operand has its value when the operand bytes have been fetched. -/
theorem readOperand_forward {shape : Shape} {code value : UInt8}
    (has : m.cpu.regs.operand? m.memory shape code = .ok value) (count : Nat) :
    readOperand shape code (m.forward count) = .ok value (m.forward count) := by
  rw [readOperand_eq]
  show answer _ ((m.cpu.regs.forward count).operand? m.memory shape code) _ = _
  rw [Registers.operand?_forward, has]
  rfl

/-- An instruction makes its store as soon as it has got at its operands. A call does so when it knows its
destination. -/
structure ReachesStore (regs : Registers) (memory : Memory) (instr : Instr) (address : Int) (value : UInt8) :
    Prop where
  stores : Stores regs memory instr address value
  target : ∀ destination, instr = .call destination → ∃ target, Values regs memory instr 0 target

omit instr in
/-- Two actions that do the same here are followed by the same. -/
theorem bind_of_eq {α β : Type} {first other : Action σ α} {next : α → Action σ β}
    (same : first m = other m) : (first >>= next) m = (other >>= next) m := by
  show EStateM.bind first next m = EStateM.bind other next m
  rw [EStateM.bind, EStateM.bind, same]

/-- A push stores its byte, and something comes behind it. -/
theorem push_bind_eq (value : Int) (next : Unit → Action σ Unit) (m : Machine σ) :
    (push env value >>= next) m =
      (store env m.cpu.regs.sp (Bits.toByte value).toNat >>= fun _ => endPush >>= next) m := by
  rw [← store_toByte, ← bind_assoc]
  exact bind_of_eq (push_eq value m)

/-- **An instruction that reaches its store** makes it where its operands have been fetched. -/
theorem execute_of_reachesStore {address : Int} {value : UInt8}
    (reaches : ReachesStore m.cpu.regs m.memory instr address value) :
    ∃ rest : Unit → Action σ Unit, execute env instr m =
      (store env address value.toNat >>= rest) (m.forward instr.shapes.length) := by
  have first {shape : Shape} {code : UInt8}
      (operand : HasOperand m.cpu.regs m.memory instr 0 shape code) :
      fetch m = .ok code (m.forward 1) := by
    rw [← fetch_forward operand, forward_zero]
  cases reaches.stores with
  | move place source =>
    obtain ⟨_, destination, isDestination, there⟩ := place
    obtain ⟨_, code, isSource, has⟩ := source
    obtain rfl := Option.some.inj isDestination.slot
    obtain rfl := Option.some.inj isSource.slot
    refine ⟨fun _ => advance, (bind_of_ok (first isDestination)).trans <|
      (bind_of_ok (fetch_forward isSource)).trans <|
      (bind_of_ok (readOperand_forward has 2)).trans ?_⟩
    exact bind_of_eq (writeOperand_eq ((Registers.address?_forward ..).trans there))
  | push pushes =>
    cases pushes with
    | operand pushed =>
      obtain ⟨_, code, operand, has⟩ := pushed
      obtain rfl := Option.some.inj operand.slot
      refine ⟨fun _ => endPush >>= fun _ => advance, (bind_of_ok (first operand)).trans <|
        (bind_of_ok (readOperand_forward has 1)).trans ?_⟩
      exact (push_bind_eq _ _ _).trans (by rw [Bits.toByte_toNat]; rfl)
    | status =>
      refine ⟨fun _ => endPush >>= fun _ => advance, ?_⟩
      show _ = (store env _ _ >>= _) (m.forward 0)
      rw [forward_zero]
      exact push_bind_eq _ _ _
    | @returnAddress destination =>
      -- the destination is read before the return address is pushed
      obtain ⟨target, _, code, operand, has⟩ := reaches.target _ rfl
      obtain rfl := Option.some.inj operand.slot
      refine ⟨fun _ => endPush >>= fun _ => goto target, (bind_of_ok (first operand)).trans <|
        (bind_of_ok (readOperand_forward has 1)).trans ?_⟩
      have behind : (m.forward 1).cpu.regs.ip + 1 =
          m.cpu.regs.ip + (Instr.call destination).size := Int.add_assoc ..
      refine (push_bind_eq _ _ _).trans ?_
      rw [behind]
      rfl

end Instructions

/-! ## Failed stores -/

/-- **A store is made**, directly or by the instruction that a step executes, and it begins with this
machine. -/
inductive Makes (env : Env σ) (m : Machine σ) (address : Int) (value : UInt8) :
    Action σ Unit → Machine σ → Prop
  | direct {whole : Int} (low : Bits.toByte whole = value) :
      Makes env m address value (store env address whole) m
  | executed {instr : Instr} (ready : m.cpu.mode = .ready) (fetches : Fetches m.cpu.regs m.memory instr)
      (reaches : ReachesStore m.cpu.regs m.memory instr address value) :
      Makes env m address value (step env)
        (forward { m with cpu := m.cpu.traced instr } instr.shapes.length)

section Makes

variable {m begun : Machine σ} {address : Int} {value : UInt8} {action : Action σ Unit}

/-- Up to where the store begins, nothing has happened to memory, display and listeners. -/
theorem Makes.scene (makes : Makes env m address value action begun) : Scene m begun := by
  cases makes <;> exact ⟨rfl, rfl, rfl⟩

/-- When the store fails, so does what it is made by, and nothing more is done to memory and display. -/
theorem Makes.fails (makes : Makes env m address value action begun) {failure : Failure}
    {stopped : Machine σ} (failed : store env address value.toNat begun = .error failure stopped) :
    ∃ final after, action m = .error final after ∧ Scene stopped after := by
  cases makes with
  | direct low =>
    rw [store_toByte, low]
    exact ⟨failure, stopped, failed, rfl, rfl, rfl⟩
  | @executed instr ready fetches reaches =>
    -- the instruction is executed behind its trace, which leaves the registers
    have traced := Processor.regs_traced m.cpu instr
    have there : ReachesStore (m.cpu.traced instr).regs m.memory instr address value := by rwa [traced]
    obtain ⟨rest, executed⟩ : ∃ rest : Unit → Action σ Unit,
        execute env instr { m with cpu := m.cpu.traced instr } = _ := execute_of_reachesStore there
    have worked : work env m.cpu.regs.ip m = .error failure stopped :=
      (work_of_fetches fetches).trans (executed.trans (bind_of_error failed))
    obtain ⟨final, after, recovered⟩ := recover_error m.cpu.regs.ip failure stopped
    have kept := ((detached_scene stopped).toAloof.recover m.cpu.regs.ip failure).ensures stopped
      ⟨rfl, rfl, rfl⟩
    rw [recovered] at kept
    exact ⟨final, after, (step_of_work_error ready worked).trans recovered, kept⟩

end Makes

/-- **A failing observer of a store** into the display region, which is made directly or by an executing
instruction. The store fails with it; the byte is in memory. The display shows it if a listener has failed, or
if it was there before; if a watchpoint has failed, the display was not told. -/
theorem cell_iff_of_observer_fails (discreet : env.Discreet) {m begun : Machine σ} {address : Int}
    {value : UInt8} {action : Action σ Unit} (equipped : Equipped m) (inside : InRegion address)
    (makes : Makes env m address value action begun)
    (fails : WatcherFails env address value begun ∨ ListenerFails env address value begun) :
    ∃ failure after, action m = .error failure after ∧ after.memory.load address = .ok value ∧
      (after.display.cell? address = some value ↔
        ListenerFails env address value begun ∨ m.display.cell? address = some value) := by
  have scene := makes.scene
  have begins : Equipped begun := equipped.of_scene scene
  -- the address is in memory, so the byte is stored before anybody is told
  have within : 0 ≤ address ∧ address < begun.memory.size := by
    obtain ⟨low, high⟩ := inside
    rw [begins.full.size]
    simp only [displayStart, displayEnd, memorySize] at low high ⊢
    omega
  have stored : (begun.written address value).memory.load address = .ok value :=
    Memory.load_write_self begins.full within value
  -- a watchpoint fails in front of the display, a listener may fail behind it
  obtain watcher | listener := fails
  · obtain ⟨failure, stopped, failed, left⟩ := watcher.store discreet inside
    obtain ⟨final, after, ended, last⟩ := makes.fails failed
    refine ⟨final, after, ended, by rw [last.memory, left.memory, stored], ?_⟩
    rw [last.display, left.display, or_iff_right watcher.not_listenerFails]
    show begun.display.cell? address = _ ↔ _
    rw [scene.display]
  · obtain ⟨failure, stopped, failed, shown⟩ := listener.store discreet inside begins
    obtain ⟨final, after, ended, last⟩ := makes.fails failed
    refine ⟨final, after, ended, by rw [last.memory, shown.memory, stored], ?_⟩
    rw [last.display, shown.cell]
    exact iff_of_true rfl (.inl listener)

theorem discreet_refusing : refusing.Discreet :=
  ⟨fun _ _ _ _ _ _ => .throw _⟩

/-- The first instruction moves a letter to the display, behind which a second listener fails. -/
def lettering : Machine Unit :=
  { memory := beginning [(Instr.move .addressImmediate).opcode, 0xC0, 65]
    observers := { listeners := [.display, .hook 0] }
    notes := () }

theorem reachesStore_lettering :
    ReachesStore lettering.cpu.regs lettering.memory (.move .addressImmediate) 0xC0 65 where
  stores := .move ⟨.address, 0xC0, ⟨rfl, by decide +kernel⟩, rfl⟩
    ⟨.immediate, 65, ⟨rfl, by decide +kernel⟩, rfl⟩
  target := nofun

theorem equipped_lettering : Equipped lettering :=
  ⟨full_beginning (by decide), rfl, rfl⟩

theorem cell_iff_of_observer_fails_behind :
    ∃ begun, refusing.Discreet ∧ Equipped lettering ∧ InRegion 0xC0 ∧
      Makes refusing lettering 0xC0 65 (step refusing) begun ∧
      ListenerFails refusing 0xC0 65 begun ∧
      ∃ failure after, step refusing lettering = .error failure after ∧
        after.memory.load 0xC0 = .ok 65 ∧ after.display.cell? 0xC0 = some 65 := by
  -- the letter is fetched before it is stored, so the machine at the store is two bytes further on
  have makes : Makes refusing lettering 0xC0 65 (step refusing) _ :=
    .executed rfl (by decide +kernel) reachesStore_lettering
  have fails : ListenerFails refusing 0xC0 65
      (forward { lettering with cpu := lettering.cpu.traced (.move .addressImmediate) } 2) :=
    ⟨0, _, _, _, by decide +kernel, rfl, rfl⟩
  obtain ⟨failure, after, failed, stored, cell⟩ := cell_iff_of_observer_fails discreet_refusing
    equipped_lettering (by decide) makes (.inr fails)
  exact ⟨_, discreet_refusing, equipped_lettering, by decide, makes, fails, failure, after, failed,
    stored, cell.2 (.inl fails)⟩

/-- A simulation with a watchpoint at the first address of the display region. -/
def watchful : Machine Unit :=
  { simulator () with observers := { watchpoints := [(0xC0, 0)], listeners := [.display] } }

/-- A letter is stored, and the watchpoint fails. The letter is in memory, and the display is blank. -/
theorem exists_cell_outdated :
    ∃ failure after, Equipped watchful ∧ InRegion 0xC0 ∧ WatcherFails refusing 0xC0 65 watchful ∧
      store refusing 0xC0 65 watchful = .error failure after ∧
      after.memory.load 0xC0 = .ok 65 ∧ after.display.cell? 0xC0 = some 32 := by
  have equipped : Equipped watchful := ⟨Memory.full_fresh, rfl, rfl⟩
  have fails : WatcherFails refusing 0xC0 65 watchful :=
    ⟨32, _, _, by decide +kernel, rfl⟩
  -- the watcher has stopped the store before the display was told
  obtain ⟨failure, after, failed, left⟩ := fails.store discreet_refusing (by decide)
  refine ⟨failure, after, equipped, by decide, fails, failed, ?_, ?_⟩
  · rw [left.memory]
    exact Memory.load_write_self equipped.full (by decide) 65
  · rw [left.display]
    rfl

end Machine

end EightBit
