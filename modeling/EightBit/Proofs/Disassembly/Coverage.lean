import EightBit.Proofs.Disassembly.RoundTrip
import Mathlib.Data.List.Chain

/-!
# Items Account for the Code

The reader goes on behind the bytes of the item it has just made. Whichever way it goes, past a byte that is no
opcode, past an opcode whose operands are cut off, or past a whole instruction, every byte falls into one item,
and the items stand next to each other.

## Main Definitions

- `CutOff`: no instruction that begins with a byte ends inside of the code.
- `Item.Stands`: what an item has been made of.
- `Accounts`: the items of some code, read against the code.

## Main Statements

- `whole?_eq_none_iff`: where the reader finds no instruction.
- `disassemble_accounts`: the items account for the code.
-/

namespace EightBit.Disassembly

/-! ## Where no instruction stands -/

/-- The byte at this address begins no instruction that ends in front of `stop`: it is above the last opcode, or
its instruction is too long. -/
def CutOff (stop address : Int) (byte : UInt8) : Prop :=
  ¬byte.toNat ≤ 84 ∨ ∃ instr, Instr.decode? byte.toNat = some instr ∧ stop < address + instr.size

/-- The opcodes are the bytes up to 84. -/
theorem decode?_eq_none_iff {opcode : Nat} : Instr.decode? opcode = none ↔ ¬opcode ≤ 84 := by
  rw [← Option.not_isSome_iff_eq_none, Instr.isSome_decode?, decide_eq_true_iff, Nat.lt_succ_iff]

/-- **Where the reader finds no instruction**, the code behind the byte being `operands`. -/
theorem whole?_eq_none_iff {address : Int} {opcode : UInt8} {operands : List UInt8} :
    whole? (opcode :: operands) = none ↔
      CutOff (address + (opcode :: operands).length) address opcode := by
  rw [whole?, CutOff, ← decode?_eq_none_iff]
  cases decoded : Instr.decode? opcode.toNat with
  | none => simp
  | some instr =>
    have length : ((opcode :: operands).length : Int) = operands.length + 1 := by simp
    -- an instruction is whole unless its operands end early
    simp only [Option.filter_some, Option.some.injEq, exists_eq_left', reduceCtorEq, false_or,
      decide_eq_true_eq, ite_eq_right_iff, imp_false, length, Instr.size]
    omega

/-! ## Items -/

/-- **What an item has been made of**, in code that ends in front of `stop`. It is data just when its first byte
begins no instruction there, and then has no other byte; an instruction has as many bytes as its opcode says. -/
structure Item.Stands (stop : Int) (item : Item) (opcode : UInt8) (operands : List UInt8) : Prop where
  bytes : item.bytes = opcode :: operands
  data : item.isData = true ↔ CutOff stop item.address opcode
  single : item.isData = true → item.bytes.length = 1
  whole : item.isData = false →
    ∃ instr, Instr.decode? opcode.toNat = some instr ∧ item.bytes.length = instr.size

theorem stands_dataItem {stop address : Int} {byte : UInt8} (cutOff : CutOff stop address byte) :
    (dataItem address byte).Stands stop byte [] where
  bytes := rfl
  data := iff_of_true rfl cutOff
  single := fun _ => rfl
  whole := nofun

theorem stands_instr {stop address : Int} {opcode : UInt8} {instr : Instr} {operands : List UInt8}
    (decoded : Instr.decode? opcode.toNat = some instr)
    (length : operands.length = instr.shapes.length) (notCutOff : ¬CutOff stop address opcode) :
    (⟨address, opcode :: operands, instrText instr operands⟩ : Item).Stands stop opcode operands := by
  have notData := Bool.eq_false_iff.1 (isData_instr address (opcode :: operands) instr operands)
  refine ⟨rfl, iff_of_false notData notCutOff, fun isData => absurd isData notData, fun _ => ?_⟩
  refine ⟨instr, decoded, ?_⟩
  rw [List.length_cons, length, Instr.size, Nat.add_comm]

/-! ## All items -/

/-- The first item stands at the start. -/
theorem address_of_head {start : Int} {code : List UInt8} {item : Item}
    (first : item ∈ (disassemble start code).head?) : item.address = start := by
  cases code with
  | nil =>
    rw [disassemble] at first
    cases first
  | cons opcode operands =>
    rw [disassemble] at first
    split at first
    · obtain rfl := Option.some.inj first
      rfl
    · obtain rfl := Option.some.inj first
      rfl

/-- An item and the items behind it stand next to each other. -/
theorem isChain_disassemble (start : Int) (code : List UInt8) :
    (disassemble start code).IsChain fun left right : Item =>
      right.address = left.address + left.bytes.length := by
  -- along the reader; what it reads next begins behind the item
  induction start, code using disassemble.induct with
  | case1 start =>
    rw [disassemble]
    exact .nil
  | case2 start opcode operands noInstr ih =>
    rw [disassemble, noInstr, List.isChain_cons]
    exact ⟨fun next first => address_of_head first, ih⟩
  | case3 start opcode operands instr whole ih =>
    obtain ⟨-, enough⟩ := whole?_eq_some_iff.1 whole
    rw [disassemble, whole, List.isChain_cons]
    refine ⟨fun next first => ?_, ih⟩
    rw [address_of_head first, List.length_cons, List.length_take, Nat.min_eq_left enough, Instr.size,
      Nat.add_comm]

/-- Each item stands for its bytes. -/
theorem exists_stands (start : Int) (code : List UInt8) :
    ∀ item ∈ disassemble start code, ∃ opcode operands,
      item.Stands (start + code.length) opcode operands := by
  -- along the reader, which never moves the end of the code
  induction start, code using disassemble.induct with
  | case1 start => simp [disassemble]
  | case2 start opcode operands noInstr ih =>
    have stop : start + (opcode :: operands).length = start + 1 + operands.length := by
      simp only [List.length_cons]
      omega
    rw [disassemble, noInstr, List.forall_mem_cons]
    refine ⟨⟨opcode, [], stands_dataItem (whole?_eq_none_iff.1 noInstr)⟩, ?_⟩
    rw [stop]
    exact ih
  | case3 start opcode operands instr whole ih =>
    obtain ⟨decoded, enough⟩ := whole?_eq_some_iff.1 whole
    have stop : start + (opcode :: operands).length =
        start + instr.size + (operands.drop instr.shapes.length).length := by
      simp only [List.length_cons, List.length_drop, Instr.size]
      omega
    have notCutOff : ¬CutOff (start + (opcode :: operands).length) start opcode := by
      rw [← whole?_eq_none_iff, whole]
      exact Option.some_ne_none instr
    rw [disassemble, whole, List.forall_mem_cons]
    refine ⟨⟨opcode, _, stands_instr decoded ?_ notCutOff⟩, ?_⟩
    · rw [List.length_take, Nat.min_eq_left enough]
    · rw [stop]
      exact ih

/-- **Items read against code** whose first byte is at `start`: together they have its bytes, they stand one
behind the other from the start on, and each of them stands for its bytes. -/
structure Accounts (start : Int) (code : List UInt8) (items : List Item) : Prop where
  bytes : items.flatMap Item.bytes = code
  first : ∀ item ∈ items.head?, item.address = start
  next : items.IsChain fun left right : Item => right.address = left.address + left.bytes.length
  each : ∀ item ∈ items, ∃ opcode operands, item.Stands (start + code.length) opcode operands

/-- **The items of code account for it**, whatever its bytes are and wherever it starts. -/
theorem disassemble_accounts (start : Int) (code : List UInt8) :
    Accounts start code (disassemble start code) where
  bytes := flatMap_bytes_disassemble start code
  first := fun _ => address_of_head
  next := isChain_disassemble start code
  each := exists_stands start code

end EightBit.Disassembly
