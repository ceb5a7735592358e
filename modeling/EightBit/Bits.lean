/-!
# Bits of Integers

Integers as two's complement numbers of unlimited width: bitwise operations, single bits, and the
byte that the low eight bits make.

## Definitions

- `bit`: one bit of an integer.
- `conj`, `disj`, `xor`: the bitwise operations.
- `toByte`: the low eight bits.
- `signed8`: the low eight bits read as a two's complement byte.
- `fits64`: the value can be a size or an index.
-/

namespace EightBit.Bits

/-- Bit `index` of an integer of unlimited width. -/
def bit (index : Nat) (value : Int) : Bool :=
  value / Int.pow 2 index % 2 == 1

/-- Bitwise conjunction; a negative number is the complement of a natural one. -/
def conj : Int → Int → Int
  | .ofNat m, .ofNat n => .ofNat (m &&& n)
  | .ofNat m, .negSucc n => .ofNat (m ^^^ (m &&& n))
  | .negSucc m, .ofNat n => .ofNat (n ^^^ (n &&& m))
  | .negSucc m, .negSucc n => .negSucc (m ||| n)

/-- Bitwise disjunction, by De Morgan's law. -/
def disj (a b : Int) : Int :=
  (conj a.not b.not).not

/-- Bitwise exclusive disjunction. -/
def xor : Int → Int → Int
  | .ofNat m, .ofNat n => .ofNat (m ^^^ n)
  | .ofNat m, .negSucc n => .negSucc (m ^^^ n)
  | .negSucc m, .ofNat n => .negSucc (m ^^^ n)
  | .negSucc m, .negSucc n => .ofNat (m ^^^ n)

/-- The low eight bits. -/
def toByte (value : Int) : UInt8 :=
  UInt8.ofNat (value % 256).toNat

/-- The low eight bits as a two's complement number. -/
def signed8 (value : Int) : Int :=
  Int.bmod value 256

/-- The value is a two's complement number of 64 bits, as sizes and indices are. -/
def fits64 (value : Int) : Bool :=
  -Int.pow 2 63 ≤ value && value < Int.pow 2 63

/-- A byte as an unbounded integer. -/
abbrev ofByte (b : UInt8) : Int :=
  b.toNat

end EightBit.Bits
