import EightBit.Bits
import EightBit.Fault
import EightBit.Parameters

/-!
# Memory

Bytes at addresses from zero on. The first 192 of them are the program region, which loading a
program replaces as a whole; the display region follows it and is left alone by that.

A memory can be made smaller than the program region. It then still has room for a program, but
its addresses stay those of its size.

## Main Definitions

- `Memory.make?`: a fresh memory of a given size.
- `Memory.load`, `Memory.write`: one byte, inside the bounds.
- `Memory.fill`: replaces the program region.
- `Memory.hexdump`: rows of sixteen bytes.
-/

namespace EightBit

/-- A memory: its size, and its bytes. -/
structure Memory where
  size : Nat
  bytes : Array UInt8
  deriving DecidableEq, Repr

namespace Memory

/-- A memory of zeros. -/
def zeros (size : Nat) : Memory :=
  ⟨size, Array.replicate size 0⟩

/-- The byte at an address, or the reason why there is none. -/
def load (memory : Memory) (address : Int) : Except OutOfBounds UInt8 :=
  if 0 ≤ address ∧ address < memory.size then .ok (memory.bytes.getD address.toNat 0)
  else .error ⟨address, memory.size⟩

/-- Puts a byte at an address that exists. -/
def write (memory : Memory) (address : Nat) (value : UInt8) : Memory :=
  { memory with bytes := memory.bytes.setIfInBounds address value }

/-- The display addresses that a memory has. -/
def displayAddresses (memory : Memory) : List Nat :=
  List.range' displayStart (min (displayEnd + 1) memory.size - displayStart)

/-- Replaces the program region by code and zeros after it. -/
def fill (memory : Memory) (code : List UInt8) : Memory :=
  { memory with
    -- a memory smaller than the program region has more bytes than addresses from here on
    bytes := (code ++ List.replicate (programLimit - code.length) 0).toArray ++
      memory.bytes.extract programLimit memory.bytes.size }

/-- A fresh memory: zeros, and spaces in the display region. -/
def fresh (size : Nat) : Memory :=
  let memory := zeros size
  memory.displayAddresses.foldl (fun m address => m.write address displayFill) memory

/-- A fresh memory; its size is a number of 64 bits that is not negative. -/
def make? (size : Int) : Except Refusal Memory :=
  if !Bits.fits64 size then .error .wideSize
  else if size < 0 then .error .negativeSize
  else .ok (fresh size.toNat)

/-- All bytes. -/
def snapshot (memory : Memory) : List UInt8 :=
  memory.bytes.toList

/-! ## Dumps -/

/-- A bound of a range of bytes as a position: a negative one counts from the end. -/
def position (length : Nat) (bound : Int) : Nat :=
  if bound < 0 then (bound + length).toNat else min bound.toNat length

/-- The bytes between two bounds. -/
def slice (memory : Memory) (start stop : Int) : List UInt8 :=
  let length := memory.bytes.size
  (memory.bytes.extract (position length start) (position length stop)).toList

/-- A byte as a dump shows it. -/
def shown (b : UInt8) : Char :=
  if 32 ≤ b ∧ b < 127 then Char.ofNat b.toNat else '.'

/-- A row of a dump: address, bytes and characters. -/
def dumpRow (address : Int) (row : List UInt8) : List Char :=
  let bytes := [' '].intercalate (row.map fun b => Numeral.hexByte b.toNat)
  Numeral.hexByte address ++ ": ".toList ++ bytes ++ List.replicate (48 - bytes.length) ' ' ++
    ' ' :: row.map shown

/-- The rows of a dump from an address up to another, sixteen bytes each. -/
def dumpRows (memory : Memory) (start stop : Int) : List (List Char) :=
  (List.range ((stop - start + 15) / 16).toNat).map fun (k : Nat) =>
    let address := start + 16 * (k : Int)
    dumpRow address (memory.slice address (min (address + 16) stop))

/-- A dump of `length` bytes from `start` on, as far as there are so many. -/
def hexdump (memory : Memory) (start length : Int) : List Char :=
  ['\n'].intercalate (memory.dumpRows start (min (start + length) memory.size))

end Memory

end EightBit
