import EightBit.Proofs.Machine.Execution
import EightBit.Proofs.Machine.History
import EightBit.Proofs.Machine.Keeping
import EightBit.Proofs.Machine.Loading
import EightBit.Proofs.Machine.Run

/-!
# A Memory and Its Bytes

A memory has a size, and an array of bytes. Loads and stores go by the size: inside of it they find a byte, and
outside they are refused. The array is at least as long, so that the byte is there.

It can be longer. A program region is always replaced as a whole, and a memory that is smaller than the region
gets all of it, though the bytes behind its size cannot be reached. They show up in a snapshot, which is then
longer than the memory.

## Main Definitions

- `Memory.Sized`: the size of a memory, and the number of its bytes.
- `Memory.Call`: what can be done to a memory.
- `Env.SparesMemory`: observers of stores leave memory alone.
- `Memory.Addressed`: loads and stores reach exactly the addresses of a memory of that size.

## Main Statements

- `Memory.Sized.addressed`: if there are bytes enough, every address is reached, and no other.
- `Memory.length_snapshot_of_calls`: the addresses and the snapshot after all calls, in any order.
-/

namespace EightBit

namespace Memory

/-! ## Size and number of bytes -/

/-- The memory has this size, and so many bytes. -/
structure Sized (size count : Nat) (memory : Memory) : Prop where
  size : memory.size = size
  count : memory.bytes.size = count

section Sized

variable {size count : Nat} {memory : Memory} (sized : Sized size count memory)
include sized

theorem Sized.write (address : Nat) (value : UInt8) : Sized size count (memory.write address value) where
  size := sized.size
  count := by simp [Memory.write, sized.count]

/-- A program region that is replaced is there as a whole. -/
theorem Sized.fill {code : List UInt8} (fits : code.length ≤ programLimit) :
    Sized size (max count programLimit) (memory.fill code) where
  size := (size_fill memory code).trans sized.size
  count := by
    -- code and zeros up to the limit, and behind them what was there before
    rw [Memory.fill, Array.size_append, Array.size_extract, sized.count, List.size_toArray,
      List.length_append, List.length_replicate, Nat.add_sub_cancel' fits, Nat.min_self, Nat.add_comm,
      Nat.sub_add_eq_max]

theorem Sized.foldl_write {value : UInt8} (addresses : List Nat) :
    Sized size count (addresses.foldl (fun now address => now.write address value) memory) := by
  induction addresses generalizing memory with
  | nil => exact sized
  | cons address rest ih => exact ih (sized.write address value)

theorem Sized.length_snapshot : memory.snapshot.length = count :=
  sized.count

end Sized

/-- A new memory has as many bytes as its size says. -/
theorem sized_fresh (size : Nat) : Sized size size (fresh size) := by
  have new : Sized size size (zeros size) := ⟨rfl, Array.size_replicate⟩
  rw [fresh]
  exact new.foldl_write _

/-! ## Calls -/

/-- What can be done to a memory. -/
inductive Call
  | store (address value : Int)
  | loadProgram (code : List UInt8)
  | reset
  deriving DecidableEq, Repr

namespace Call

/-- What is done to the machine. -/
def perform {σ : Type} (env : Env σ) : Call → Action σ Unit
  | store address value => Machine.store env address value
  | loadProgram code => Machine.loadProgram code
  | reset => Machine.resetMemory env

/-- The call replaces the program region. -/
def refills : Call → Bool
  | store .. => false
  | loadProgram code => code.length ≤ programLimit
  | reset => true

/-- The number of bytes after the call. -/
def next (call : Call) (count : Nat) : Nat :=
  if call.refills then max count programLimit else count

end Call

/-- The first call that replaces the program region has made room for it, and later ones find it there. -/
theorem foldl_next (calls : List Call) (count : Nat) :
    calls.foldl (fun now (call : Call) => call.next now) count =
      if calls.any Call.refills then max count programLimit else count := by
  induction calls generalizing count with
  | nil => rfl
  | cons call rest ih =>
    rw [List.foldl_cons, ih, Call.next, List.any_cons]
    cases call.refills with
    | false => rfl
    | true =>
      simp only [if_true, Bool.true_or]
      -- with or without another such call, the maximum is taken once
      split
      · exact Nat.max_eq_left (Nat.le_max_right ..)
      · rfl

end Memory

/-! ## Observers -/

/-- **Observers of stores leave memory alone**, and do not fail the way memory does. They may do anything else,
and fail in any other way. -/
structure Env.SparesMemory {σ : Type} (env : Env σ) : Prop where
  notify : ∀ hook notice address value, Notice.IsAbout address value notice → ∀ memory,
    Machine.Ensures (fun m => m.memory = memory) (env.notify hook notice) (fun _ m => m.memory = memory)
      fun failure m => m.memory = memory ∧ ∀ access, failure ≠ .outOfBounds access

namespace Machine

variable {σ : Type} {env : Env σ} {P : Memory → Prop}

/-- Failures that leave memory in such a state, and are not those of memory itself. -/
def Foreign (P : Memory → Prop) (failure : Failure) (m : Machine σ) : Prop :=
  P m.memory ∧ ∀ access, failure ≠ .outOfBounds access

section Spares

variable (spares : env.SparesMemory)
include spares

theorem ensures_notify_spared {hook : Hook} {notice : Notice} {address : Int} {value : UInt8}
    (about : notice.IsAbout address value) :
    Ensures (fun m => P m.memory) (env.notify hook notice) (fun _ m => P m.memory) (Foreign P) := by
  -- an observer that spares memory leaves it as it was, whether it fails or not
  intro m holds
  have same := spares.notify hook notice address value about m.memory m rfl
  cases ran : env.notify hook notice m with
  | ok done after =>
    rw [ran] at same
    have memory : after.memory = m.memory := same
    show P after.memory
    rwa [memory]
  | error failure after =>
    rw [ran] at same
    obtain ⟨memory, foreign⟩ : after.memory = m.memory ∧ _ := same
    refine ⟨?_, foreign⟩
    rwa [memory]

theorem ensures_tellListeners_spared (address : Int) (value : UInt8) :
    Ensures (fun m => P m.memory) (tellListeners env address value) (fun _ m => P m.memory) (Foreign P) := by
  refine .get fun m holds => .of_eq (P := fun m => P m.memory) holds (.forM fun listener => ?_)
  cases listener with
  | display => exact .modify fun _ holds => holds
  | hook hook => exact ensures_notify_spared spares .display

/-- **A store inside of the memory** keeps what a byte cannot change. -/
theorem ensures_store_inside (written : ∀ memory address value, P memory → P (memory.write address value))
    {address : Int} (value : Int) :
    Ensures (fun m => P m.memory ∧ 0 ≤ address ∧ address < m.memory.size) (store env address value)
      (fun _ m => P m.memory) (Foreign P) := by
  intro m ⟨holds, inside⟩
  have loads : load address m = .ok (m.memory.bytes.getD address.toNat 0) m := by
    rw [load_eq, Memory.load, if_pos inside]
    rfl
  have stores : Ensures (fun m => P m.memory) (do
      modify fun m => { m with memory := m.memory.write address.toNat (Bits.toByte value) }
      ((← get).observers.watching address).forM fun hook =>
        env.notify hook (.watch address (m.memory.bytes.getD address.toNat 0) (Bits.toByte value))
      if displayStart ≤ address ∧ address ≤ displayEnd then
        tellListeners env address (Bits.toByte value)) (fun _ m => P m.memory) (Foreign P) := by
    -- the byte is written before anybody is told, so who fails behind that does not matter
    refine .bind (Q := fun _ m => P m.memory) (.modify fun now => written now.memory _ _) fun _ => ?_
    refine .get fun now holds => .of_eq (P := fun m => P m.memory) holds (.bind (.forM fun hook =>
      ensures_notify_spared spares (.watch _)) fun _ => ?_)
    split
    · exact ensures_tellListeners_spared spares address (Bits.toByte value)
    · exact .pure fun _ holds => holds
  rw [store, bind_of_ok loads]
  exact stores m holds

/-- Painting the display keeps it, too. -/
theorem keeps_fillDisplay_spared (written : ∀ memory address value, P memory → P (memory.write address value)) :
    Keeps (fun m => P m.memory) (fillDisplay env) := by
  have tells (address : Nat) : Keeps (fun m => P m.memory) (tellListeners env address displayFill) :=
    ⟨(ensures_tellListeners_spared spares address displayFill).mono (fun _ holds => holds)
      (fun _ _ holds => holds) fun _ _ foreign => foreign.1⟩
  exact .get fun _ => .forM fun address =>
    .bind (.modify fun m => written m.memory address displayFill) fun _ => tells address

end Spares

/-- An address that the memory does not have is refused, and nothing is changed. -/
theorem load_outside {address : Int} {m : Machine σ} (outside : ¬(0 ≤ address ∧ address < m.memory.size)) :
    load address m = .error (.outOfBounds ⟨address, m.memory.size⟩) m := by
  rw [load_eq, Memory.load, if_neg outside]
  rfl

theorem store_outside {address : Int} (value : Int) {m : Machine σ}
    (outside : ¬(0 ≤ address ∧ address < m.memory.size)) :
    store env address value m = .error (.outOfBounds ⟨address, m.memory.size⟩) m := by
  rw [store, bind_of_error (load_outside outside)]

end Machine

namespace Memory

open Machine

variable {σ : Type} {env : Env σ} {size count : Nat}

/-- **Loads and stores reach exactly the addresses** of a memory of that size. A load finds the byte of the
snapshot, and what is refused changes nothing. -/
structure Addressed (env : Env σ) (size : Nat) (m : Machine σ) : Prop where
  load_inside : ∀ address < size, ∃ value,
    Machine.load (address : Nat) m = .ok value m ∧ m.memory.snapshot[address]? = some value
  load_outside : ∀ address : Int, ¬(0 ≤ address ∧ address < size) →
    Machine.load address m = .error (.outOfBounds ⟨address, size⟩) m
  store_inside : ∀ address value : Int, 0 ≤ address ∧ address < size → ∀ access after,
    store env address value m ≠ .error (.outOfBounds access) after
  store_outside : ∀ address value : Int, ¬(0 ≤ address ∧ address < size) →
    store env address value m = .error (.outOfBounds ⟨address, size⟩) m

theorem Sized.addressed (spares : env.SparesMemory) {m : Machine σ} (sized : Sized size count m.memory)
    (room : size ≤ count) : Addressed env size m where
  -- an address below the size is a byte of the array, and the snapshot has it at its place
  load_inside := fun address below => by
    have there : address < m.memory.bytes.size := by
      rw [sized.count]
      omega
    have inside : (0 : Int) ≤ address ∧ (address : Int) < m.memory.size := by
      rw [sized.size]
      omega
    refine ⟨m.memory.bytes[address], ?_, ?_⟩
    · rw [load_eq, Memory.load, if_pos inside, Int.toNat_natCast, Array.getD_eq_getD_getElem?,
        Array.getElem?_eq_getElem there]
      rfl
    · rw [snapshot, Array.getElem?_toList, Array.getElem?_eq_getElem there]
  load_outside := fun address outside => by
    rw [← sized.size] at outside ⊢
    exact Machine.load_outside outside
  store_inside := fun address value inside access after => by
    rw [← sized.size] at inside
    have stores := ensures_store_inside spares (P := fun _ => True) (fun _ _ _ _ => trivial) value m
      ⟨trivial, inside⟩
    -- inside of memory no access is refused; an observer may fail, but for a reason of its own
    intro refused
    rw [refused] at stores
    exact stores.2 access rfl
  store_outside := fun address value outside => by
    rw [← sized.size] at outside ⊢
    exact Machine.store_outside value outside

/-- **What a call does to the number of bytes**, whether it succeeds or fails. -/
theorem tracks_sized (spares : env.SparesMemory) (size : Nat) :
    Tracks (Call.perform env) Call.next fun count m => Sized size count m.memory := by
  have written {count : Nat} (memory : Memory) (address : Nat) (value : UInt8)
      (sized : Sized size count memory) : Sized size count (memory.write address value) :=
    sized.write address value
  intro call count
  cases call with
  | store address value =>
    intro m sized
    by_cases inside : 0 ≤ address ∧ address < m.memory.size
    · exact (ensures_store_inside spares written value).mono (fun _ both => both) (fun _ _ holds => holds)
        (fun _ _ foreign => foreign.1) m ⟨sized, inside⟩
    · rw [Call.perform, Machine.store_outside value inside]
      exact sized
  | loadProgram code =>
    intro m sized
    by_cases fits : code.length ≤ programLimit
    · obtain ⟨journal, loads⟩ := exists_loadProgram m fits
      rw [Call.perform, loads, Call.next, Call.refills, if_pos (decide_eq_true fits)]
      exact sized.fill fits
    · -- code that is too large is refused before the region is touched
      rw [Call.perform, loadProgram_of_lt m (Nat.lt_of_not_le fits), Call.next, Call.refills,
        if_neg (by simp [fits])]
      exact sized
  | reset =>
    have empty : ([] : List UInt8).length ≤ programLimit := Nat.zero_le _
    have clears : Ensures (fun m => Sized size count m.memory)
        (modify fun m => { m with memory := m.memory.fill [] } : Action σ Unit)
        (fun _ m => Sized size (max count programLimit) m.memory)
        fun _ m => Sized size (max count programLimit) m.memory :=
      .modify fun m sized => sized.fill empty
    have refilled : Call.reset.next count = max count programLimit := if_pos rfl
    have paints : Keeps (fun m => Sized size (max count programLimit) m.memory) (fillDisplay env) :=
      keeps_fillDisplay_spared spares written
    rw [refilled, Call.perform, resetMemory]
    -- all there is to know of the painting is what it keeps
    generalize fillDisplay env = paint at paints
    exact clears.bind fun _ => paints.ensures

/-- **The addresses of a memory, and its snapshot**, whatever was done to it: loads and stores go by the size,
and the snapshot has that length exactly if the memory has room for a program, or was never given one. -/
theorem length_snapshot_of_calls (spares : env.SparesMemory) {m : Machine σ} (new : m.memory = fresh size)
    (calls : List Call) :
    Addressed env size (afterCalls (Call.perform env) calls m) ∧
      (afterCalls (Call.perform env) calls m).memory.snapshot.length =
        (if calls.any Call.refills then max size programLimit else size) ∧
      ((afterCalls (Call.perform env) calls m).memory.snapshot.length = size ↔
        programLimit ≤ size ∨ calls.any Call.refills = false) := by
  -- the array has its size at first, and only a load or a reset makes it longer
  have start : Sized size size m.memory := new ▸ sized_fresh size
  have sized := (tracks_sized spares size).afterCalls calls start
  rw [foldl_next] at sized
  refine ⟨sized.addressed spares ?_, sized.length_snapshot, ?_⟩
  · split
    · exact Nat.le_max_left ..
    · exact Nat.le_refl _
  · rw [sized.length_snapshot]
    -- a refill makes memory longer if and only if it was shorter than the region of programs
    cases calls.any Call.refills with
    | false => exact iff_of_true rfl (.inr rfl)
    | true =>
      rw [if_pos rfl, max_eq_left_iff]
      exact (or_iff_left Bool.noConfusion).symm

theorem spares_counting : counting.SparesMemory :=
  ⟨fun _ _ _ _ _ _ => .modify fun _ same => same⟩

/-- A new memory with an observer of one of its addresses, and nothing else. -/
def observed (size : Nat) : Machine Nat :=
  { memory := fresh size, observers := { watchpoints := [(2, 0)] }, notes := 0 }

/-- Stores inside and outside of a memory, a program, one that is too large, and a reset. -/
def handling : List Call :=
  [.store 2 0x141, .store (-1) 0, .loadProgram [1, 2, 3], .loadProgram (.replicate 193 0), .reset]

theorem length_snapshot_of_calls_handling :
    counting.SparesMemory ∧ (observed 200).memory = fresh 200 ∧
      Addressed counting 200 (afterCalls (Call.perform counting) handling (observed 200)) ∧
      (afterCalls (Call.perform counting) handling (observed 200)).memory.snapshot.length = 200 := by
  obtain ⟨addressed, _, length⟩ :=
    length_snapshot_of_calls spares_counting (show (observed 200).memory = fresh 200 from rfl) handling
  exact ⟨spares_counting, rfl, addressed, length.2 (.inl (by decide))⟩

/-- **A small memory has too many bytes after a reset**: four addresses, and a snapshot of 192 bytes. -/
theorem exists_longer_snapshot :
    counting.SparesMemory ∧ (observed 4).memory = fresh 4 ∧
      (afterCalls (Call.perform counting) [.reset] (observed 4)).memory.snapshot.length = 192 ∧
      (afterCalls (Call.perform counting) [.reset] (observed 4)).memory.snapshot.length ≠ 4 := by
  have new : Sized 4 4 (observed 4).memory := sized_fresh 4
  have sized : Sized 4 192 (afterCalls (Call.perform counting) [.reset] (observed 4)).memory :=
    (tracks_sized spares_counting 4).afterCalls [.reset] new
  refine ⟨spares_counting, rfl, sized.length_snapshot, ?_⟩
  rw [sized.length_snapshot]
  decide

end Memory

end EightBit
