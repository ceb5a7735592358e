import EightBit.Proofs.Assembly.Listing
import EightBit.Proofs.Machine.Reset
import EightBit.Proofs.Machine.Snapshot
import Mathlib.Data.List.Forall2

/-!
# A Dump Can Be Read Back

A dump is text for people, but nothing is lost in it. Its lines are rows, the number in front of a row is an
address, and the columns behind it are bytes in hexadecimal. Read in order, they are the bytes of memory from
where the dump starts up to where it ends, which is where the memory ends at the latest.

This needs a byte for every address, and nothing else. Whatever is done to a memory and to the machine around it,
its size stays what it was, and it never has fewer bytes than addresses.

## Main Definitions

- `readDump?`: reads the rows of a dump.
- `rowAt`, `rowsOf`: the rows that show some bytes.
- `Shows`: rows show memory from one address up to another.
- `Roomy`: a memory that has a byte for every address.
- `Event`: what can happen to a memory.
- `Reached`: a memory to which such things have happened since it was new.

## Main Statements

- `readRow?_dumpRow`, `readDump?_joinLines`: a row is read back, and so are the lines of many.
- `dumpRows_eq`: the rows of a dump, told from a stretch of memory.
- `Roomy.shows`: these rows show it, if there is a byte for every address.
- `keeps_event`: nothing that happens takes bytes away.
- `hexdump_read_back`: a dump is read back, whatever has happened.
-/

namespace EightBit

open Layout Text Numeral

namespace Memory

/-! ## Reading -/

/-- A row of a dump, as it is read. -/
structure DumpRow where
  address : Nat
  bytes : List UInt8
  characters : List Char
  deriving DecidableEq, Repr

/-- The words of a text, with spaces between them. -/
def words (text : List Char) : List (List Char) :=
  (text.splitOn ' ').filter (!·.isEmpty)

/-- The byte that hexadecimal digits stand for. -/
def byte? (word : List Char) : Option UInt8 := do
  let value ← natural? 16 hexValue? word
  if value < 256 then some (UInt8.ofNat value) else none

/-- Reads a row: an address up to a colon, a space, 48 columns of bytes, another space, and characters. -/
def readRow? (line : List Char) : Option DumpRow := do
  let label := line.takeWhile (· != ':')
  -- one space stands between the colon and the columns
  let columns := line.drop (label.length + 2)
  let address ← natural? 16 hexValue? label
  let bytes ← (words (columns.take 48)).mapM byte?
  return ⟨address, bytes, columns.drop 49⟩

/-- Reads a dump, in which every line is a row. -/
def readDump? (text : List Char) : Option (List DumpRow) :=
  (splitLines text).mapM readRow?

/-! ## Words -/

/-- A space ends a word, if one has begun. -/
theorem words_append_space (front rest : List Char) :
    words (front ++ ' ' :: rest) = words front ++ words rest := by
  simp [words, List.splitOn_append_cons_self]

theorem words_spaces (count : Nat) : words (List.replicate count ' ') = [] := by
  induction count with
  | zero => rfl
  | succ count ih =>
    rw [List.replicate_succ, ← List.nil_append (' ' :: _), words_append_space, ih]
    rfl

theorem words_of_word {word : List Char} (nonempty : word ≠ []) (noSpace : ' ' ∉ word) :
    words word = [word] := by
  simp [words, List.splitOn_eq_singleton noSpace, nonempty]

theorem not_space_mem_hexByte (n : Nat) : ' ' ∉ hexByte n :=
  fun mem => forall_mem_hexByte (P := fun c => c ≠ ' ') (by decide) n ' ' mem rfl

/-- **The words of bytes in hexadecimal** are the bytes, whatever spaces follow. -/
theorem words_hexBytes (bytes : List UInt8) (spaces : Nat) :
    words (hexBytes bytes ++ List.replicate spaces ' ') = bytes.map fun b => hexByte b.toNat := by
  have word (b : UInt8) : words (hexByte b.toNat) = [hexByte b.toNat] :=
    words_of_word (hexByte_ne_nil _) (not_space_mem_hexByte _)
  -- byte by byte: a space ends the word of each but the last, which the padding may follow
  induction bytes with
  | nil => exact words_spaces spaces
  | cons b rest ih =>
    cases rest with
    | nil =>
      have alone : hexBytes [b] = hexByte b.toNat := by simp [hexBytes]
      rw [alone]
      cases spaces with
      | zero => simp [word]
      | succ spaces =>
        rw [List.replicate_succ, words_append_space, word, words_spaces]
        rfl
    | cons next rest =>
      rw [hexBytes_cons_cons, List.append_assoc, List.cons_append, words_append_space, word, ih]
      rfl

/-! ## Rows -/

/-- A byte in hexadecimal is read back. -/
theorem byte?_hexByte (b : UInt8) : byte? (hexByte b.toNat) = some b := by
  have small : b.toNat < 256 := b.toNat_lt
  simp [byte?, natural?_hexByte, small]

theorem mapM_byte?_hexByte (bytes : List UInt8) :
    (bytes.map fun b => hexByte b.toNat).mapM byte? = some bytes := by
  induction bytes with
  | nil => rfl
  | cons b rest ih => simp [byte?_hexByte, ih]

theorem length_hexBytes_le (bytes : List UInt8) : (hexBytes bytes).length ≤ 3 * bytes.length := by
  have two : ∀ b : UInt8, (hexByte b.toNat).length = 2 := fun b => length_hexByte b.toNat_lt
  induction bytes with
  | nil => exact Nat.le_refl 0
  | cons b rest ih =>
    cases rest with
    | nil => simp [hexBytes, two]
    | cons next rest =>
      rw [hexBytes_cons_cons, List.length_append, List.length_cons, two, List.length_cons]
      omega

/-- What a row is made of. -/
theorem dumpRow_eq (address : Nat) (row : List UInt8) :
    dumpRow address row =
      hexByte address ++ ':' :: ' ' :: (padTo 48 (hexBytes row) ++ ' ' :: row.map shown) := by
  simp [dumpRow, padTo, hexBytes]

/-- **A row is read back.** -/
theorem readRow?_dumpRow (address : Nat) {row : List UInt8} (fits : row.length ≤ 16) :
    readRow? (dumpRow address row) = some ⟨address, row, row.map shown⟩ := by
  have noColon : ∀ c ∈ hexByte address, (c != ':') = true :=
    forall_mem_hexByte (P := fun c => (c != ':') = true) (by decide) address
  have label : (dumpRow address row).takeWhile (· != ':') = hexByte address := by
    rw [dumpRow_eq]
    exact (takeWhile_append_of_stop noColon (by simp)).1
  have columns : (dumpRow address row).drop ((hexByte address).length + 2) =
      padTo 48 (hexBytes row) ++ ' ' :: row.map shown := by
    rw [dumpRow_eq, ← List.drop_drop, List.drop_left]
    rfl
  -- sixteen bytes need 47 columns, so the padding ends at the 48th
  have width : (padTo 48 (hexBytes row)).length = 48 := by
    have := length_hexBytes_le row
    simp only [padTo, List.length_append, List.length_replicate]
    omega
  have characters : (padTo 48 (hexBytes row) ++ ' ' :: row.map shown).drop 49 = row.map shown := by
    rw [← List.drop_drop (i := 1), List.drop_left' width]
    rfl
  have bytes : (words (padTo 48 (hexBytes row))).mapM byte? = some row := by
    rw [padTo, words_hexBytes, mapM_byte?_hexByte]
  rw [readRow?, label, columns, List.take_left' width, characters, bytes, natural?_hexByte]
  rfl

/-- A row of two bytes, the second one not printable. -/
example : readRow? "15: 41 07                                            A.".toList =
    some ⟨21, [0x41, 0x07], ['A', '.']⟩ := by
  decide

/-! ## Lines -/

/-- No character that is shown ends a line. -/
theorem noBreak_shown (b : UInt8) : isLineBreak (shown b) = false := by
  have printable : ∀ n < 127, 32 ≤ n → isLineBreak (Char.ofNat n) = false := by decide
  rw [shown]
  split
  · next inside => exact printable _ (UInt8.lt_iff_toNat_lt.1 inside.2) (UInt8.le_iff_toNat_le.1 inside.1)
  · rfl

/-- A row is one line of text. -/
theorem noBreak_dumpRow (address : Nat) (row : List UInt8) :
    NoBreak (dumpRow address row) ∧ dumpRow address row ≠ [] := by
  have shows : NoBreak (row.map shown) := fun c mem => by
    obtain ⟨b, -, rfl⟩ := List.mem_map.1 mem
    exact noBreak_shown b
  rw [dumpRow_eq]
  refine ⟨?_, List.append_ne_nil_of_left_ne_nil (hexByte_ne_nil address) _⟩
  apply (noBreak_hexByte address).append
  apply NoBreak.cons rfl
  apply NoBreak.cons rfl
  exact (noBreak_padTo (noBreak_hexBytes row) 48).append (shows.cons rfl)

/-- The line that shows a row. -/
def DumpRow.line (row : DumpRow) : List Char :=
  dumpRow row.address row.bytes

/-- The row is not too long, and its characters are those of its bytes. -/
structure DumpRow.Regular (row : DumpRow) : Prop where
  fits : row.bytes.length ≤ 16
  characters : row.characters = row.bytes.map shown

/-- **Lines of rows are read back.** -/
theorem readDump?_joinLines {rows : List DumpRow} (regular : ∀ row ∈ rows, row.Regular) :
    readDump? (joinLines (rows.map DumpRow.line)) = some rows := by
  -- no row has a line break in it, so the text is cut where the rows were joined
  have lines : splitLines (joinLines (rows.map DumpRow.line)) = rows.map DumpRow.line := by
    apply splitLines_joinLines
    · exact List.forall_mem_map.2 fun row _ => (noBreak_dumpRow row.address row.bytes).1
    · exact List.forall_mem_map.2 fun row _ => (noBreak_dumpRow row.address row.bytes).2
  rw [readDump?, lines]
  clear lines
  induction rows with
  | nil => rfl
  | cons row rest ih =>
    have ⟨fits, characters⟩ := regular row List.mem_cons_self
    have here : readRow? row.line = some row := by
      rw [DumpRow.line, readRow?_dumpRow row.address fits, ← characters]
    simp [here, ih fun other mem => regular other (List.mem_cons_of_mem row mem)]

/-! ## Rows of a stretch -/

/-- A list is put together again from its chunks, if there are enough of them. -/
theorem flatMap_chunks {α : Type} {width count : Nat} {items : List α} (enough : items.length ≤ width * count) :
    (List.range count).flatMap (fun k => (items.drop (width * k)).take width) = items := by
  induction count generalizing items with
  | zero => exact (List.eq_nil_of_length_eq_zero (by simpa using enough)).symm
  | succ count ih =>
    -- the chunks behind the first one are the chunks of what is behind it
    have behind : (items.drop width).length ≤ width * count := by
      rw [List.length_drop]
      rw [Nat.mul_succ] at enough
      omega
    have shift (k : Nat) : (items.drop (width * (k + 1))).take width =
        ((items.drop width).drop (width * k)).take width := by
      rw [List.drop_drop, Nat.mul_succ, Nat.add_comm]
    rw [List.range_succ_eq_map, List.flatMap_cons, List.flatMap_map]
    simp only [shift, ih behind, Nat.mul_zero, List.drop_zero, List.take_append_drop]

/-- The row with a number among those that show some bytes, which start at an address. -/
def rowAt (first : Nat) (bytes : List UInt8) (number : Nat) : DumpRow :=
  let row := (bytes.drop (16 * number)).take 16
  ⟨first + 16 * number, row, row.map shown⟩

/-- The rows that show them, sixteen in each row as long as there are so many. -/
def rowsOf (first : Nat) (bytes : List UInt8) : List DumpRow :=
  (List.range ((bytes.length + 15) / 16)).map (rowAt first bytes)

section RowsOf

variable {first : Nat} {bytes : List UInt8}

theorem length_rowAt (first : Nat) (bytes : List UInt8) (number : Nat) :
    (rowAt first bytes number).bytes.length = min 16 (bytes.length - 16 * number) := by
  simp [rowAt]

theorem flatMap_rowsOf (first : Nat) (bytes : List UInt8) :
    (rowsOf first bytes).flatMap DumpRow.bytes = bytes := by
  rw [rowsOf, List.flatMap_map]
  exact flatMap_chunks (by omega)

theorem rowsOf_eq_nil_iff : rowsOf first bytes = [] ↔ bytes = [] := by
  rw [rowsOf, List.map_eq_nil_iff, List.range_eq_nil, ← List.length_eq_zero_iff]
  omega

/-- Every row has a byte to begin with. -/
theorem eq_rowAt {k : Nat} {row : DumpRow} (isRow : (rowsOf first bytes)[k]? = some row) :
    16 * k < bytes.length ∧ row = rowAt first bytes k := by
  rw [rowsOf, List.getElem?_map, Option.map_eq_some_iff] at isRow
  obtain ⟨number, isNumber, rfl⟩ := isRow
  obtain ⟨below, rfl⟩ := List.getElem?_eq_some_iff.1 isNumber
  rw [List.length_range] at below
  rw [List.getElem_range]
  exact ⟨by omega, rfl⟩

/-- No row is longer than the columns allow. -/
theorem regular_of_mem_rowsOf {row : DumpRow} (mem : row ∈ rowsOf first bytes) : row.Regular := by
  obtain ⟨k, isRow⟩ := List.mem_iff_getElem?.1 mem
  obtain ⟨-, rfl⟩ := eq_rowAt isRow
  refine ⟨?_, rfl⟩
  rw [length_rowAt]
  exact Nat.min_le_left ..

end RowsOf

/-- The bytes that a memory has from an address on, up to another. -/
def stretch (memory : Memory) (first stop : Nat) : List UInt8 :=
  (memory.snapshot.drop first).take (stop - first)

section Stretch

variable {memory : Memory} {first : Nat}

theorem length_stretch {stop : Nat} (inside : stop ≤ memory.bytes.size) :
    (memory.stretch first stop).length = stop - first := by
  rw [stretch, List.length_take, List.length_drop, snapshot, Array.length_toList]
  omega

/-- A slice between addresses that are not negative. -/
theorem slice_natCast (memory : Memory) {start stop : Nat} (inside : stop ≤ memory.bytes.size) :
    memory.slice start stop = memory.stretch start stop := by
  have ends : position memory.bytes.size stop = stop := by
    rw [position, if_neg (by omega), Int.toNat_natCast, Nat.min_eq_left inside]
  have starts : position memory.bytes.size start = min start memory.bytes.size := by
    rw [position, if_neg (by omega), Int.toNat_natCast]
  rw [slice, ends, starts, Array.toList_extract, List.extract_eq_take_drop, stretch, snapshot]
  rcases Nat.le_total start stop with before | behind
  · rw [Nat.min_eq_left (Nat.le_trans before inside)]
  · -- nothing is left then, wherever the slice is thought to start
    have nothing : stop - min start memory.bytes.size = 0 := by omega
    rw [nothing, Nat.sub_eq_zero_of_le behind, List.take_zero, List.take_zero]

/-- A part of a stretch that starts in it. -/
theorem stretch_add (memory : Memory) (first offset stop : Nat) (part : Nat) :
    memory.stretch (first + offset) (min (first + offset + part) stop) =
      ((memory.stretch first stop).drop offset).take part := by
  have length : min (first + offset + part) stop - (first + offset) = min part (stop - first - offset) := by
    omega
  rw [stretch, stretch, List.drop_take, List.drop_drop, List.take_take, length]

/-- **The rows of a dump** are those of a stretch of memory. -/
theorem dumpRows_eq (memory : Memory) (first : Nat) {stop : Int} (inside : stop ≤ memory.bytes.size) :
    memory.dumpRows first stop =
      (rowsOf first (memory.stretch first stop.toNat)).map DumpRow.line := by
  have inside : stop.toNat ≤ memory.bytes.size := by omega
  have count : ((stop - first + 15) / 16).toNat = ((memory.stretch first stop.toNat).length + 15) / 16 := by
    rw [length_stretch inside]
    omega
  rw [dumpRows, rowsOf, List.map_map, count]
  -- there are as many rows, so they are compared one by one
  apply List.map_congr_left
  intro k mem
  have started : first + 16 * k < stop.toNat := by
    rw [List.mem_range, length_stretch inside] at mem
    omega
  have address : (first : Int) + 16 * (k : Int) = (first + 16 * k : Nat) := by omega
  have ends : min ((first + 16 * k : Nat) + 16 : Int) stop = (min (first + 16 * k + 16) stop.toNat : Nat) := by
    omega
  have bytes : memory.slice (first + 16 * k : Nat) (min (first + 16 * k + 16) stop.toNat : Nat) =
      ((memory.stretch first stop.toNat).drop (16 * k)).take 16 := by
    rw [slice_natCast memory (by omega), stretch_add]
  simp only [Function.comp_apply, address, ends, bytes, DumpRow.line, rowAt]

end Stretch

/-! ## Dumps -/

/-- Rows show memory from one address up to another: read in order, they have the byte of every address, and
they are numbered, cut and spelled as they should be. -/
structure Shows (memory : Memory) (first stop : Nat) (rows : List DumpRow) : Prop where
  bytes : List.Forall₂ (fun (address : Nat) byte => memory.load address = .ok byte)
    (List.range' first (stop - first)) (rows.flatMap DumpRow.bytes)
  none_iff : rows = [] ↔ stop ≤ first
  address : ∀ (k : Nat) (row : DumpRow), rows[k]? = some row → row.address = first + 16 * k
  full : ∀ (k : Nat) (row : DumpRow), rows[k]? = some row → k + 1 < rows.length → row.bytes.length = 16
  width : ∀ (k : Nat) (row : DumpRow), rows[k]? = some row → 0 < row.bytes.length ∧ row.bytes.length ≤ 16
  characters : ∀ (k : Nat) (row : DumpRow), rows[k]? = some row → row.characters =
    row.bytes.map fun b => if 32 ≤ b ∧ b ≤ 126 then Char.ofNat b.toNat else '.'

/-- The memory has so many addresses, and a byte for each of them. -/
structure Roomy (size : Nat) (memory : Memory) : Prop where
  room : size ≤ memory.bytes.size
  size : memory.size = size

section Roomy

variable {size : Nat} {memory : Memory}

theorem roomy_fresh (size : Nat) : Roomy size (fresh size) where
  size := (sized_fresh size).size
  room := (sized_fresh size).count.ge

theorem Sized.roomy {count : Nat} (sized : Sized size count memory) (room : size ≤ count) : Roomy size memory where
  size := sized.size
  room := sized.count ▸ room

variable (roomy : Roomy size memory)
include roomy

theorem Roomy.sized : Sized size memory.bytes.size memory :=
  ⟨roomy.size, rfl⟩

theorem Roomy.write (address : Nat) (value : UInt8) : Roomy size (memory.write address value) :=
  (roomy.sized.write address value).roomy roomy.room

theorem Roomy.fill {code : List UInt8} (fits : code.length ≤ programLimit) : Roomy size (memory.fill code) :=
  (roomy.sized.fill fits).roomy (Nat.le_trans roomy.room (Nat.le_max_left ..))

/-- The bytes of a stretch are those that are loaded from its addresses. -/
theorem Roomy.forall₂_stretch (first : Nat) {stop : Nat} (inside : stop ≤ size) :
    List.Forall₂ (fun (address : Nat) byte => memory.load address = .ok byte)
      (List.range' first (stop - first)) (memory.stretch first stop) := by
  have room := roomy.room
  have length : (memory.stretch first stop).length = stop - first := length_stretch (Nat.le_trans inside room)
  -- the address and the byte at the same place belong together
  rw [List.forall₂_iff_get]
  refine ⟨by rw [List.length_range', length], fun k below _ => ?_⟩
  rw [List.length_range'] at below
  have there : first + k < memory.bytes.size := by omega
  have reached : (0 : Int) ≤ (first + k : Nat) ∧ ((first + k : Nat) : Int) < memory.size := by
    rw [roomy.size]
    omega
  have address : (List.range' first (stop - first))[k] = first + k := by simp
  have byte : (memory.stretch first stop)[k] = memory.bytes[first + k] := by
    simp [stretch, snapshot]
  simp only [List.get_eq_getElem, address, byte]
  rw [load, if_pos reached, Int.toNat_natCast, Array.getD_eq_getD_getElem?, Array.getElem?_eq_getElem there]
  rfl

/-- **The rows of a stretch show it.** -/
theorem Roomy.shows (first : Nat) {stop : Nat} (inside : stop ≤ size) :
    Shows memory first stop (rowsOf first (memory.stretch first stop)) := by
  have length : (memory.stretch first stop).length = stop - first :=
    length_stretch (Nat.le_trans inside roomy.room)
  refine
    { bytes := by
        rw [flatMap_rowsOf]
        exact roomy.forall₂_stretch first inside
      none_iff := by
        rw [rowsOf_eq_nil_iff, ← List.length_eq_zero_iff, length]
        omega
      address := fun k row isRow => by rw [(eq_rowAt isRow).2, rowAt]
      full := fun k row isRow more => ?_
      width := fun k row isRow => ?_
      characters := fun k row isRow => ?_ }
  · -- the next row begins with a byte, so there are sixteen in front of it
    obtain ⟨next, -⟩ := eq_rowAt (List.getElem?_eq_getElem more)
    rw [(eq_rowAt isRow).2, length_rowAt]
    omega
  · obtain ⟨begun, rfl⟩ := eq_rowAt isRow
    rw [length_rowAt]
    omega
  · obtain ⟨-, rfl⟩ := eq_rowAt isRow
    apply List.map_congr_left
    intro b _
    have bounds : b < 127 ↔ b ≤ 126 := by
      simp only [UInt8.lt_iff_toNat_lt, UInt8.le_iff_toNat_le]
      exact Nat.lt_succ_iff
    simp only [shown, bounds]

/-- **A dump is read back**, and its rows show the memory from where it starts up to where it ends. -/
theorem Roomy.exists_shows (first : Nat) (length : Int) :
    ∃ rows, readDump? (memory.hexdump first length) = some rows ∧
      Shows memory first (min (first + length) size).toNat rows := by
  have inside : (min (first + length) size : Int) ≤ memory.bytes.size := by
    have := roomy.room
    omega
  refine ⟨rowsOf first (memory.stretch first (min (first + length) size : Int).toNat), ?_,
    roomy.shows first (by omega)⟩
  have dump : memory.hexdump first length =
      joinLines (memory.dumpRows first (min (first + length) memory.size)) := rfl
  rw [dump, roomy.size, dumpRows_eq memory first inside]
  exact readDump?_joinLines fun _ => regular_of_mem_rowsOf

end Roomy

/-! ## What can happen to a memory -/

/-- What can happen to a memory, from inside of a machine and from outside. -/
inductive Event
  /-- Something is done to the memory itself. -/
  | call (call : Call)
  /-- The machine around it is used. -/
  | use (use : Use)
  /-- Observers are attached, or taken off again. -/
  | observe (change : Observers → Observers)

/-- What happens to the machine. -/
def Event.perform {σ : Type} (env : Env σ) : Event → Action σ Unit
  | .call made => made.perform env
  | .use made => made.perform env
  | .observe change => modify fun m => { m with observers := change m.observers }

end Memory

/-- Observers and attached devices do what they like, but they cannot take addresses or bytes away. -/
structure Env.KeepsRoom {σ : Type} (env : Env σ) (size : Nat) : Prop where
  notify : ∀ hook notice, Machine.Keeps (fun m => Memory.Roomy size m.memory) (env.notify hook notice)
  answer : ∀ hook port, Machine.Keeps (fun m => Memory.Roomy size m.memory) (env.answer hook port)

namespace Memory

open Machine

variable {σ : Type} {env : Env σ} {size : Nat}

/-- A memory keeps a byte for every address. -/
theorem enduring_roomy (keeps : env.KeepsRoom size) : Enduring (fun m => Roomy size m.memory) env :=
  enduring_memory keeps.notify keeps.answer (fun _ address value roomy => roomy.write address value)
    fun _ _ fits roomy => roomy.fill fits

/-- **Whatever happens**, there is a byte for every address afterwards. -/
theorem keeps_event (keeps : env.KeepsRoom size) (event : Event) :
    Keeps (fun m => Roomy size m.memory) (event.perform env) := by
  have enduring := enduring_roomy keeps
  cases event with
  | call call =>
    cases call with
    | store address value => exact enduring.store address value
    | loadProgram code => exact enduring.loadProgram code
    | reset => exact enduring.resetMemory
  | use use => exact enduring.use use
  | observe change => exact .modify fun _ roomy => roomy

/-- **One thing after the other** happens, and there is still a byte for every address. -/
theorem Roomy.afterCalls (keeps : env.KeepsRoom size) {m : Machine σ} (roomy : Roomy size m.memory)
    (events : List Event) : Roomy size (afterCalls (Event.perform env) events m).memory := by
  induction events generalizing m with
  | nil => exact roomy
  | cons event rest ih => exact ih ((keeps_event keeps event).ensures.leftBy roomy)

/-- The memory is reached from a new one of that size, by one thing after the other, each of which may have
succeeded or failed. -/
def Reached (env : Env σ) (size : Nat) (memory : Memory) : Prop :=
  ∃ (m : Machine σ) (events : List Event), m.memory = fresh size ∧
    memory = (afterCalls (Event.perform env) events m).memory

/-- **A dump can be read back**, whatever has happened to the memory since it was new. -/
theorem hexdump_read_back (keeps : env.KeepsRoom size) {memory : Memory} (reached : Reached env size memory)
    (first : Nat) (length : Int) :
    memory.size = size ∧ ∃ rows, readDump? (memory.hexdump first length) = some rows ∧
      Shows memory first (min (first + length) size).toNat rows := by
  obtain ⟨m, events, new, rfl⟩ := reached
  have roomy := Roomy.afterCalls keeps (new ▸ roomy_fresh size) events
  exact ⟨roomy.size, roomy.exists_shows first length⟩

/-! ## Observers that act -/

/-- Observers that make things happen when they are told of something, with other observers who are told of
these. -/
def scripted (inner : Env σ) (script : Hook → Notice → List Event) : Env σ where
  notify := fun hook notice => (script hook notice).forM (Event.perform inner)
  answer := inner.answer

/-- Whatever such observers do, it is something that can happen anyway. -/
theorem keepsRoom_scripted {inner : Env σ} (keeps : inner.KeepsRoom size) (script : Hook → Notice → List Event) :
    (scripted inner script).KeepsRoom size where
  notify := fun _ _ => .forM fun event => keeps_event keeps event
  answer := keeps.answer

theorem keepsRoom_counting (size : Nat) : counting.KeepsRoom size :=
  ⟨fun _ _ => .modify fun _ roomy => roomy, fun _ _ => .pure _⟩

/-- An observer that copies what is stored at a watched address to another one. -/
def copying : Env Nat :=
  scripted counting fun _ notice =>
    match notice with
    | .watch address _ new => [.call (.store (address + 20) new.toNat)]
    | _ => []

/-- A store that is watched, one that is refused, a program that runs, and an observer that is taken off. -/
def doings : List Event :=
  [.call (.store 2 0x141), .call (.store 40 0), .use (.operate (.loadBinary [1, 2, 3])),
    .use (.operate (.run 5 (some 3))), .observe fun observers => { observers with watchpoints := [] }]

theorem hexdump_read_back_doings :
    copying.KeepsRoom 40 ∧
      Reached copying 40 (afterCalls (Event.perform copying) doings (observed 40)).memory ∧
      ∃ rows,
        readDump? ((afterCalls (Event.perform copying) doings (observed 40)).memory.hexdump 5 100) = some rows ∧
        Shows (afterCalls (Event.perform copying) doings (observed 40)).memory 5 40 rows := by
  have keeps : copying.KeepsRoom 40 := keepsRoom_scripted (keepsRoom_counting 40) _
  have reached : Reached copying 40 (afterCalls (Event.perform copying) doings (observed 40)).memory :=
    ⟨observed 40, doings, rfl, rfl⟩
  exact ⟨keeps, reached, (hexdump_read_back keeps reached 5 100).2⟩

end Memory

end EightBit
