import EightBit.Proofs.Machine.Keeping
import EightBit.Proofs.Machine.Run

/-!
# The Display Mirrors Memory

The display has its own copy of the 64 bytes of the display region, and learns of them from stores alone.
The two copies agree all the same: every way to change the region tells the display, and loading a program
leaves the region alone. This holds whatever is done to a simulation from outside, also when it fails,
provided that observers of stores only write down what they are told. While a store is on its way the
display is one byte behind, so an observer that did more, or failed, could come between.

## Main Definitions

- `Mirrored`: the display holds the display region.
- `Lags`: it does but for one byte, of which it has not been told yet.
- `Env.Faithful`: observers of stores only write down what they are told.
- `Operation`: what can be done to a simulation.
- `ShowsMemory`: cells and rows of the display, read against memory.

## Main Statements

- `keeps_store`: a store keeps the display in step.
- `enduring_mirrored`: so does everything else.
- `Enduring.operation`: operations keep what endures.
- `display_shows_memory`: after any operations on a new machine, the display shows memory.
-/

namespace EightBit

/-! ## The display region -/

namespace Memory

/-- The bytes from the first display address on. -/
def displayed (memory : Memory) : List UInt8 :=
  memory.bytes.toList.drop displayStart

theorem Full.fill {memory : Memory} (full : memory.Full) {code : List UInt8}
    (fits : code.length ≤ programLimit) : (memory.fill code).Full where
  size := by
    rw [Memory.fill]
    exact full.size
  bytes := by
    -- code is filled up with zeros to the start of the display, so the display stays where it is
    have front : (code ++ List.replicate (programLimit - code.length) 0).length = programLimit := by
      rw [List.length_append, List.length_replicate, Nat.add_sub_cancel' fits]
    rw [Memory.fill, Array.size_append, List.size_toArray, front, Array.size_extract, full.bytes,
      Nat.min_self]
    decide

/-- A write changes the region if it is inside of it. -/
theorem displayed_write (memory : Memory) (address : Nat) (value : UInt8) :
    (memory.write address value).displayed = if address < displayStart then memory.displayed
      else memory.displayed.set (address - displayStart) value := by
  rw [displayed, Memory.write, Array.toList_setIfInBounds, List.drop_set]
  rfl

/-- A program that fits is loaded in front of the region. -/
theorem displayed_fill (memory : Memory) {code : List UInt8}
    (fits : code.length ≤ programLimit) : (memory.fill code).displayed = memory.displayed := by
  have front : (code ++ List.replicate (programLimit - code.length) 0).length = displayStart := by
    rw [List.length_append, List.length_replicate, Nat.add_sub_cancel' fits]
    rfl
  have behind : (memory.bytes.extract programLimit memory.bytes.size).toList =
      memory.bytes.toList.drop displayStart := by
    rw [Array.toList_extract, List.extract_eq_take_drop, List.take_of_length_le (by simp)]
    rfl
  rw [displayed, displayed, Memory.fill, Array.toList_append, List.drop_left' front, behind]

theorem length_displayed {memory : Memory} (full : memory.Full) :
    memory.displayed.length = displayRows * displayColumns := by
  rw [displayed, List.length_drop, Array.length_toList, full.bytes]
  rfl

/-! ### A new memory -/

theorem Full.foldl_write {value : UInt8} (addresses : List Nat) {memory : Memory} (full : memory.Full) :
    (addresses.foldl (fun now address => now.write address value) memory).Full := by
  induction addresses generalizing memory with
  | nil => exact full
  | cons address rest ih => exact ih (full.write address value)

theorem displayed_foldl_write {value : UInt8} {addresses : List Nat}
    (inside : ∀ address ∈ addresses, displayStart ≤ address) (memory : Memory) :
    (addresses.foldl (fun now address => now.write address value) memory).displayed =
      addresses.foldl (fun cells address => cells.set (address - displayStart) value)
        memory.displayed := by
  induction addresses generalizing memory with
  | nil => rfl
  | cons address rest ih =>
    rw [List.forall_mem_cons] at inside
    rw [List.foldl_cons, List.foldl_cons, ih inside.2, displayed_write,
      if_neg (Nat.not_lt.2 inside.1)]

theorem full_fresh : (fresh memorySize).Full :=
  Full.foldl_write _ ⟨rfl, Array.size_replicate⟩

/-- The region of a new memory is blank. -/
theorem displayed_fresh :
    (fresh memorySize).displayed = List.replicate (displayRows * displayColumns) displayFill := by
  have inside : ∀ address ∈ (zeros memorySize).displayAddresses, displayStart ≤ address :=
    fun address mem => (List.mem_range'_1.1 mem).1
  have zero : (zeros memorySize).displayed = List.replicate (displayRows * displayColumns) 0 := by
    rw [displayed, zeros, Array.toList_replicate, List.drop_replicate]
    rfl
  rw [fresh, displayed_foldl_write inside, zero]
  decide +kernel

/-! ### Bytes of the region -/

/-- The bytes of the region are those at its addresses. -/
theorem load_displayed {memory : Memory} (full : memory.Full) {index : Nat}
    (within : index < displayRows * displayColumns) :
    ∃ byte, memory.load (displayStart + index : Nat) = .ok byte ∧
      memory.displayed[index]? = some byte := by
  have below : displayStart + index < memory.bytes.size := by
    rw [full.bytes]
    exact Nat.add_lt_add_left within displayStart
  -- the two addresses mean one byte, once in memory and once behind the start of the region
  refine ⟨memory.bytes[displayStart + index], ?_, ?_⟩
  · have inside : (0 : Int) ≤ (displayStart + index : Nat) ∧
        ((displayStart + index : Nat) : Int) < memory.size := by
      have sizes := full.size.trans full.bytes.symm
      omega
    rw [load, if_pos inside, Int.toNat_natCast, Array.getD_eq_getD_getElem?,
      Array.getElem?_eq_getElem below]
    rfl
  · rw [displayed, List.getElem?_drop, Array.getElem?_toList, Array.getElem?_eq_getElem below]

end Memory

/-- The display is told of an address inside the region, or ignores it. -/
theorem Display.cells_update (display : Display) (address : Nat) (value : UInt8) :
    (display.update address value.toNat).cells = if address < displayStart then display.cells
      else display.cells.set (address - displayStart) value := by
  have byte : Bits.toByte (value.toNat : Int) = value := Bits.toByte_toNat value
  simp only [update, byte]
  split
  · next inside =>
    rw [if_neg (by omega)]
    have index : ((address : Int) - displayStart).toNat = address - displayStart := by omega
    rw [index]
  · next outside =>
    split
    · rfl
    · next behind =>
      -- behind its last cell there is nothing to set
      rw [List.set_eq_of_length_le (by omega)]

namespace Machine

variable {σ α : Type}

/-! ## Mirrored memory -/

/-- **The display holds the display region**, and is told of stores into it. -/
structure Mirrored (m : Machine σ) : Prop where
  full : m.memory.Full
  attached : .display ∈ m.observers.listeners
  cells : m.display.cells = m.memory.displayed

/-- A byte was written, and the display held the region before that. -/
def Lags (address : Nat) (value : UInt8) (m : Machine σ) : Prop :=
  ∃ memory : Memory, m.memory = memory.write address value ∧ Mirrored { m with memory }

theorem detached_mirrored : Detached (Mirrored : Machine σ → Prop) where
  keeps := fun _ _ _ _ _ _ mirrored => ⟨mirrored.full, mirrored.attached, mirrored.cells⟩
  control := fun _ _ mirrored => ⟨mirrored.full, mirrored.attached, mirrored.cells⟩

theorem aloof_lags (address : Nat) (value : UInt8) :
    Aloof (Lags address value : Machine σ → Prop) where
  keeps := by
    rintro m _ _ _ _ _ ⟨memory, written, mirrored⟩
    exact ⟨memory, written, ⟨mirrored.full, mirrored.attached, mirrored.cells⟩⟩

section Lags

variable {address : Nat} {value : UInt8} {m : Machine σ}

theorem Mirrored.lags (mirrored : Mirrored m) (address : Nat) (value : UInt8) :
    Lags address value { m with memory := m.memory.write address value } :=
  ⟨m.memory, rfl, ⟨mirrored.full, mirrored.attached, mirrored.cells⟩⟩

theorem Lags.attached (lags : Lags address value m) : .display ∈ m.observers.listeners := by
  obtain ⟨memory, -, mirrored⟩ := lags
  exact mirrored.attached

/-- Outside the region there is nothing to be told of. -/
theorem Lags.mirrored (lags : Lags address value m) (outside : address < displayStart) :
    Mirrored m := by
  obtain ⟨memory, written, mirrored⟩ := lags
  refine ⟨written ▸ mirrored.full.write _ _, mirrored.attached, ?_⟩
  rw [written, Memory.displayed_write, if_pos outside]
  exact mirrored.cells

/-- The display is told of the byte. -/
theorem Lags.update (lags : Lags address value m) :
    Mirrored { m with display := m.display.update address value.toNat } := by
  obtain ⟨memory, written, mirrored⟩ := lags
  have cells : m.display.cells = memory.displayed := mirrored.cells
  refine ⟨show m.memory.Full from written ▸ mirrored.full.write _ _, mirrored.attached, ?_⟩
  show (m.display.update address value.toNat).cells = m.memory.displayed
  rw [written, Memory.displayed_write, Display.cells_update, cells]

/-- Telling the display again changes nothing. -/
theorem Mirrored.lags_of_write (mirrored : Mirrored m) (same : m.memory.write address value = m.memory) :
    Lags address value m :=
  ⟨m.memory, same.symm, mirrored⟩

theorem Lags.write (lags : Lags address value m) : m.memory.write address value = m.memory := by
  obtain ⟨memory, written, -⟩ := lags
  rw [written, Memory.write, Memory.write, Array.setIfInBounds_setIfInBounds]

end Lags

/-! ## Observers that write down -/

/-- The action only writes something down, and does not fail. -/
def Records (action : Action σ Unit) : Prop :=
  ∃ write : σ → σ, ∀ m, action m = .ok () { m with notes := write m.notes }

theorem Records.ensures {P : Machine σ → Prop} {E : Failure → Machine σ → Prop}
    {action : Action σ Unit} (records : Records action) (aloof : Aloof P) :
    Ensures P action (fun _ => P) E := by
  obtain ⟨write, acts⟩ := records
  intro m holds
  rw [acts]
  exact aloof.keeps m _ _ _ _ _ holds

end Machine

/-- **Observers of stores only write down** what they are told. The other observers and attached devices may
do anything that keeps the display in step with memory; they can use the controls of the machine. -/
structure Env.Faithful {σ : Type} (env : Env σ) : Prop where
  records : ∀ hook notice address value, Notice.IsAbout address value notice →
    Machine.Records (env.notify hook notice)
  notify : ∀ hook notice, Machine.Keeps Machine.Mirrored (env.notify hook notice)
  answer : ∀ hook port, Machine.Keeps Machine.Mirrored (env.answer hook port)

namespace Machine

section Faithful

variable {σ : Type} {env : Env σ} (faithful : env.Faithful)
include faithful

/-! ## Stores -/

/-- **The listeners are told**, and the display is one of them. -/
theorem ensures_tellListeners (address : Nat) (value : UInt8) {E : Failure → Machine σ → Prop} :
    Ensures (Lags address value) (tellListeners env address value) (fun _ => Mirrored) E := by
  have hooks : ∀ hook, Records (env.notify hook (.display address value)) :=
    fun hook => faithful.records hook _ _ _ .display
  -- those before the display leave it behind
  have before : ∀ listener, Ensures (Lags address value) (tell env address value listener)
      (fun _ => Lags address value) E := by
    intro listener
    cases listener with
    | hook hook => exact (hooks hook).ensures (aloof_lags _ _)
    | display => exact .modify fun m lags => lags.update.lags_of_write lags.write
  -- those after it may include it again, which changes nothing
  let Told := fun m : Machine σ => Mirrored m ∧ Lags address value m
  have after : ∀ listener, Ensures Told (tell env address value listener) (fun _ => Told) E := by
    intro listener
    cases listener with
    | hook hook => exact (hooks hook).ensures (detached_mirrored.toAloof.and (aloof_lags _ _))
    | display => exact .modify fun m told => ⟨told.2.update, told.2.update.lags_of_write told.2.write⟩
  refine .get fun m lags => ?_
  obtain ⟨front, rest, split⟩ := List.append_of_mem lags.attached
  show Ensures _ (forM m.observers.listeners (tell env address value)) _ _
  rw [split, List.forM_append, List.forM_cons]
  refine .of_eq lags (.bind (.forM before) fun _ => ?_)
  refine .bind (Q := fun _ => Told) (.modify fun m lags => ?_) fun _ => ?_
  · exact ⟨lags.update, lags.update.lags_of_write lags.write⟩
  · exact (Ensures.forM after).mono (fun _ told => told) (fun _ _ told => told.1)
      fun _ _ failed => failed

/-- What a store does once the old byte is known. -/
theorem keeps_written {address : Int} (inside : 0 ≤ address ∧ address < memorySize) (old new : UInt8) :
    Keeps Mirrored (do
      modify fun m => { m with memory := m.memory.write address.toNat new }
      ((← get).observers.watching address).forM fun hook => env.notify hook (.watch address old new)
      if displayStart ≤ address ∧ address ≤ displayEnd then tellListeners env address new) := by
  -- the byte is written first, and the display is behind until it is told
  refine ⟨.bind (Q := fun _ => Lags address.toNat new) (.modify fun _ mirrored =>
    mirrored.lags _ _) fun _ => .get fun m lags => .of_eq lags (.bind (Q := fun _ =>
      Lags address.toNat new) (.forM fun hook => ?_) fun _ => ?_)⟩
  · exact (faithful.records hook _ _ _ (.watch old)).ensures (aloof_lags _ _)
  · split
    · rw [← Int.toNat_of_nonneg inside.1]
      exact ensures_tellListeners faithful _ _
    · next outside =>
      refine .pure fun m lags => lags.mirrored ?_
      simp only [displayStart, displayEnd, memorySize] at outside inside ⊢
      omega

/-- **A store keeps the display in step**, whoever watches it. -/
theorem keeps_store (address value : Int) : Keeps Mirrored (store env address value) := by
  refine ⟨fun m mirrored => ?_⟩
  obtain ⟨low, high, loaded⟩ | ⟨-, lacks⟩ := m.memory.load_cases address
  -- a store happens where a byte can be read, and with a full memory these are the addresses of bytes
  · have loads := (load_eq address m).trans (by rw [loaded])
    rw [store, bind_of_ok loads]
    rw [mirrored.full.size] at high
    exact (keeps_written faithful ⟨low, high⟩ _ _).ensures m mirrored
  · have fails := (load_eq address m).trans (by rw [lacks])
    rw [store, bind_of_error fails]
    exact mirrored

end Faithful

/-! ## Loading and resetting -/

/-- Replacing the program region leaves the display region alone. -/
theorem Mirrored.fill {m : Machine σ} (mirrored : Mirrored m) {code : List UInt8}
    (fits : code.length ≤ programLimit) : Mirrored { m with memory := m.memory.fill code } where
  full := mirrored.full.fill fits
  attached := mirrored.attached
  cells := mirrored.cells.trans (Memory.displayed_fill _ fits).symm

/-- **Loading a program** is nothing that the display would have to be told of. -/
theorem keeps_loadProgram (code : List UInt8) : Keeps Mirrored (loadProgram code : Action σ Unit) := by
  have loads (fits : code.length ≤ programLimit) : Keeps Mirrored (do
      modify fun m => { m with memory := m.memory.fill code }
      record .debug .memory ("Loaded " ++ toString code.length ++ " bytes of machine code")
      : Action σ Unit) :=
    .bind (.modify fun m mirrored => mirrored.fill fits) fun _ =>
      detached_mirrored.toCentral.record _ _ _
  unfold loadProgram
  split
  · exact ⟨fun m mirrored => mirrored⟩
  · next fits => exact loads (Nat.le_of_not_lt fits)

section Operations

variable {env : Env σ} (faithful : env.Faithful)
include faithful

/-- **Painting the region** tells the display of every byte. -/
theorem keeps_fillDisplay : Keeps Mirrored (fillDisplay env) :=
  .get fun _ => .forM fun _ => ⟨.bind (.modify fun _ mirrored => mirrored.lags _ _) fun _ =>
    ensures_tellListeners faithful _ _⟩

/-- **Everything that is done keeps the display in step**: stores tell it, program loads leave its region alone,
and clearing memory paints it again. -/
theorem enduring_mirrored : Enduring (Mirrored : Machine σ → Prop) env where
  toDetached := detached_mirrored
  notify := faithful.notify
  answer := faithful.answer
  store := keeps_store faithful
  loadProgram := keeps_loadProgram
  resetMemory :=
    .bind (.modify fun _ mirrored => mirrored.fill (Nat.zero_le _)) fun _ => keeps_fillDisplay faithful
  attach := fun _ _ more mirrored => ⟨mirrored.full, more mirrored.attached, mirrored.cells⟩

end Operations

end Machine

/-! ## Operations -/

/-- What can be done to a simulation from outside. -/
inductive Operation
  | assemble (limit : DigitLimit) (source : List Char)
  | loadFile (limit : DigitLimit) (bytes : List UInt8)
  | loadBinary (code : List UInt8)
  | run (patience : Nat) (limit : Option Nat)
  | step
  | store (address value : Int)
  | reset
  /-- Attaches an observer to an address. -/
  | watch (address : Int) (hook : Hook)
  /-- Attaches an observer to the display region. -/
  | listen (hook : Hook)
  deriving DecidableEq, Repr

namespace Operation

variable {σ : Type} {env : Env σ}

/-- What the operation does. -/
def perform (env : Env σ) : Operation → Action σ Unit
  | .assemble limit source => discard (Machine.assemble limit source)
  | .loadFile limit bytes => discard (Machine.loadFile limit bytes)
  | .loadBinary code => Machine.loadBinary code
  | .run patience limit => discard (Machine.run env patience limit)
  | .step => Machine.step env
  | .store address value => Machine.store env address value
  | .reset => Machine.reset env
  | .watch address hook => modify fun m =>
    { m with observers := { m.observers with
      watchpoints := m.observers.watchpoints ++ [(address, hook)] } }
  | .listen hook => modify fun m =>
    { m with observers := { m.observers with listeners := m.observers.listeners ++ [.hook hook] } }

/-- The machine that the operation leaves behind, whether it succeeds or fails. -/
def after (env : Env σ) (m : Machine σ) (operation : Operation) : Machine σ :=
  match operation.perform env m with
  | .ok _ after => after
  | .error _ after => after

end Operation

namespace Machine

variable {σ : Type} {env : Env σ}

section Enduring

variable {P : Machine σ → Prop} (enduring : Enduring P env)
include enduring

/-- **Every operation keeps what endures**, whether it succeeds or fails. -/
theorem Enduring.operation (operation : Operation) : Keeps P (operation.perform env) := by
  cases operation with
  | assemble limit source => exact (enduring.assemble limit source).discard
  | loadFile limit bytes => exact (enduring.loadFile limit bytes).discard
  | loadBinary code => exact enduring.loadBinary code
  | run patience limit => exact (enduring.run patience limit).discard
  | step => exact enduring.step
  | store address value => exact enduring.store address value
  | reset => exact enduring.reset
  | watch address hook => exact .modify fun m holds => enduring.attach m _ (List.Subset.refl _) holds
  | listen hook => exact .modify fun m holds => enduring.attach m _ (List.subset_append_left _ _) holds

end Enduring

theorem Mirrored.after (faithful : env.Faithful) {m : Machine σ} (mirrored : Mirrored m)
    (operation : Operation) : Mirrored (operation.after env m) := by
  have kept := ((enduring_mirrored faithful).operation operation).ensures m mirrored
  rw [Operation.after]
  cases ran : operation.perform env m with
  | ok _ after =>
    rw [ran] at kept
    exact kept
  | error _ after =>
    rw [ran] at kept
    exact kept

/-! ## What the display shows -/

/-- **The display shows memory**: its cells are the 64 bytes of the display region, and its rows are these
bytes in order, four times sixteen, with a question mark for those that cannot be printed. -/
structure ShowsMemory (m : Machine σ) : Prop where
  count : m.display.cells.length = displayRows * displayColumns
  cell : ∀ index < displayRows * displayColumns, ∃ byte,
    m.memory.load (displayStart + index : Nat) = .ok byte ∧ m.display.cells[index]? = some byte
  rows : m.display.rows.length = displayRows
  row : ∀ number < displayRows, ∃ row, m.display.rows[number]? = some row ∧
    row.length = displayColumns ∧ ∀ column < displayColumns, ∃ byte,
      m.memory.load (displayStart + (number * displayColumns + column) : Nat) = .ok byte ∧
      row[column]? = some (if 32 ≤ byte ∧ byte ≤ 126 then Char.ofNat byte.toNat else '?')

theorem Mirrored.showsMemory {m : Machine σ} (mirrored : Mirrored m) : ShowsMemory m := by
  have count : m.display.cells.length = displayRows * displayColumns := by
    rw [mirrored.cells, Memory.length_displayed mirrored.full]
  -- the cells are the bytes of the region, one by one
  have cell : ∀ index < displayRows * displayColumns, ∃ byte,
      m.memory.load (displayStart + index : Nat) = .ok byte ∧
        m.display.cells[index]? = some byte := by
    intro index within
    rw [mirrored.cells]
    exact Memory.load_displayed mirrored.full within
  refine ⟨count, cell, by simp [Display.rows], fun number within => ?_⟩
  refine ⟨m.display.row number, by simp [Display.rows, within], ?_, fun column inside => ?_⟩
  -- a row has its columns, since the rows fill the display exactly
  · simp only [Display.row, List.length_map, List.length_take, List.length_drop, count]
    simp only [displayRows, displayColumns] at within ⊢
    omega
  -- a column of a row is a cell of the display
  · have position : number * displayColumns + column < displayRows * displayColumns := by
      simp only [displayRows, displayColumns] at within inside ⊢
      omega
    obtain ⟨byte, loaded, shown⟩ := cell _ position
    refine ⟨byte, loaded, ?_⟩
    rw [Display.row, List.getElem?_map, List.getElem?_take_of_lt inside, List.getElem?_drop, shown]
    rfl

/-- A machine as a simulation is put together: its memory is new, its display is blank and is told of
stores. Everything else can be of any kind: ports, devices, and further observers among them. -/
structure Unused (m : Machine σ) : Prop where
  memory : m.memory = Memory.fresh memorySize
  blank : m.display.cells = List.replicate (displayRows * displayColumns) displayFill
  attached : .display ∈ m.observers.listeners

theorem Unused.mirrored {m : Machine σ} (unused : Unused m) : Mirrored m where
  full := by
    rw [unused.memory]
    exact Memory.full_fresh
  attached := unused.attached
  cells := by
    rw [unused.blank, unused.memory, Memory.displayed_fresh]

/-- **The display mirrors memory.** Whatever is done to a new machine, one operation after the other and
whether they succeed or fail, the display shows memory afterwards. -/
theorem display_shows_memory (faithful : env.Faithful) {m : Machine σ} (unused : Unused m)
    (operations : List Operation) : ShowsMemory (operations.foldl (Operation.after env) m) := by
  suffices kept : ∀ now, Mirrored now → Mirrored (operations.foldl (Operation.after env) now) from
    (kept m unused.mirrored).showsMemory
  induction operations with
  | nil => exact fun _ mirrored => mirrored
  | cons operation rest ih => exact fun now mirrored => ih _ (mirrored.after faithful operation)

/-- Observers count what they are told of stores, and reset the machine when they are told of ports. -/
def resettingAtPorts : Env Nat where
  notify := fun hook notice =>
    match notice with
    | .watch .. | .display .. => counting.notify hook notice
    | .out .. | .write .. | .lights .. => reset counting
  answer := counting.answer

theorem faithful_counting : counting.Faithful where
  records := fun _ _ _ _ _ => ⟨(· + 1), fun _ => rfl⟩
  notify := fun _ _ => .modify fun m mirrored => detached_mirrored.keeps m _ _ _ _ _ mirrored
  answer := fun _ _ => .pure _

theorem faithful_resettingAtPorts : resettingAtPorts.Faithful where
  records := by
    intro hook notice address value told
    cases told with
    | watch old => exact ⟨(· + 1), fun _ => rfl⟩
    | display => exact ⟨(· + 1), fun _ => rfl⟩
  notify := by
    intro hook notice
    -- observers of ports may even reset the machine; those of stores only count
    cases notice with
    | watch address old new => exact faithful_counting.notify hook (.watch address old new)
    | display address value => exact faithful_counting.notify hook (.display address value)
    | out port value => exact (enduring_mirrored faithful_counting).reset
    | write port value => exact (enduring_mirrored faithful_counting).reset
    | lights old new => exact (enduring_mirrored faithful_counting).reset
  answer := faithful_counting.answer

/-- A program writes a letter, and two bytes are stored after it; the second one has no place. -/
def writing : List Operation :=
  [.listen 0, .loadBinary (([(Instr.move .addressImmediate).opcode, 0xC0, 72,
    Instr.halt.opcode] : List Nat).map UInt8.ofNat), .run 0 (some 9), .store 0xC1 200, .store 256 1]

theorem display_shows_memory_after_writing :
    resettingAtPorts.Faithful ∧ Unused (simulator 0) ∧
      ShowsMemory (writing.foldl (Operation.after resettingAtPorts) (simulator 0)) := by
  have unused : Unused (simulator 0) := ⟨rfl, rfl, List.mem_singleton_self _⟩
  exact ⟨faithful_resettingAtPorts, unused,
    display_shows_memory faithful_resettingAtPorts unused writing⟩

end Machine

end EightBit
