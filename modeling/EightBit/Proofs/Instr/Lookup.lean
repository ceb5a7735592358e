import EightBit.Instr
import Mathlib.Data.List.Basic
import Mathlib.Data.List.Forall2
import Mathlib.Data.List.Pairwise

/-!
# The Instruction of a Spelling

No spelling is shared by two instructions, so the search for an instruction does not depend on the
order of the instruction set.

## Main Statements

- `mem_spellings_iff`: how an instruction can be written.
- `lookup?_eq_some_iff`: an instruction is found by its spellings, and by nothing else.
- `lookup?_numbers`: a number in the place of a label leads to the same instruction.
-/

namespace EightBit

/-- Instructions have operands of this shape. -/
def Shape.isEncoded (shape : Shape) : Bool :=
  shape != .label && shape != .text

namespace Instr

/-- Lists of shapes with one shape from every slot. -/
theorem mem_choices {shapes : List Shape} {slots : List (List Shape)} :
    shapes ∈ choices slots ↔ List.Forall₂ (· ∈ ·) shapes slots := by
  induction slots generalizing shapes with
  | nil => simp [choices]
  | cons slot slots ih =>
    simp only [choices, List.mem_flatMap, List.mem_map]
    constructor
    · rintro ⟨shape, inSlot, rest, inChoices, rfl⟩
      exact .cons inSlot (ih.1 inChoices)
    · intro pairs
      cases pairs with
      | cons inSlot rest => exact ⟨_, inSlot, _, ih.2 rest, rfl⟩

/-- **How an instruction can be written.** The bare label of `PUSH` is the only exception. -/
theorem mem_spellings_iff {instr : Instr} {shapes : List Shape} :
    shapes ∈ instr.spellings ↔
      List.Forall₂ (fun shape expected => shape ∈ slot instr.takesLabel expected)
          shapes instr.shapes ∨
        instr = .push .address ∧ shapes = [.label] := by
  -- all instructions but one are spelled by their shapes
  have regular : shapes ∈ choices (instr.shapes.map (slot instr.takesLabel)) ↔
      List.Forall₂ (fun shape expected => shape ∈ slot instr.takesLabel expected)
        shapes instr.shapes := by
    rw [mem_choices, List.forall₂_map_right_iff]
  unfold spellings
  split
  · rw [List.mem_append, regular, List.mem_singleton]
    simp
  · next other =>
    -- only `PUSH` of an address may be spelled with a label instead
    rw [regular]
    constructor
    · exact .inl
    · rintro (pairs | ⟨isPush, -⟩)
      · exact pairs
      · exact absurd isPush other

/-- Any other instruction is written with one shape from every slot. -/
theorem forall₂_of_mem_spellings {instr : Instr} {shapes : List Shape}
    (spelled : shapes ∈ instr.spellings) (notPush : instr ≠ .push .address) :
    List.Forall₂ (fun shape expected => shape ∈ slot instr.takesLabel expected) shapes instr.shapes := by
  rcases mem_spellings_iff.1 spelled with regular | ⟨isPush, -⟩
  · exact regular
  · exact absurd isPush notPush

/-! ## No spelling is shared -/

theorem mem_all (instr : Instr) : instr ∈ all :=
  List.mem_of_getElem? (decode?_opcode instr)

/-- An instruction is among those with its mnemonic. -/
theorem mem_filter_mnemonic {instr : Instr} {name : String} (mnemonic : instr.mnemonic = name) :
    instr ∈ all.filter (·.mnemonic == name) :=
  List.mem_filter.2 ⟨mem_all instr, beq_iff_eq.2 mnemonic⟩

theorem isEncoded_of_mem {instr : Instr} {shape : Shape} (mem : shape ∈ instr.shapes) :
    shape.isEncoded = true := by
  have checked : all.all (fun instr => instr.shapes.all Shape.isEncoded) = true := by
    decide
  exact List.all_eq_true.1 (List.all_eq_true.1 checked instr (mem_all instr)) shape mem

theorem opcode_lt (instr : Instr) : instr.opcode < 85 := by
  have decoded := isSome_decode? instr.opcode
  rw [decode?_opcode] at decoded
  simpa using decoded

/-- An opcode is the byte that it is written as. -/
theorem toNat_ofNat_opcode (instr : Instr) : (UInt8.ofNat instr.opcode).toNat = instr.opcode :=
  UInt8.toNat_ofNat_of_lt' (Nat.lt_trans instr.opcode_lt (by decide))

/-- Instructions of the same mnemonic are written with different shapes. -/
theorem pairwise_spellings : all.Pairwise fun left right =>
    left.mnemonic = right.mnemonic →
      left.spellings.all (fun shapes => !right.spellings.contains shapes) = true := by
  decide +kernel

/-- A mnemonic and the shapes of its operands belong to one instruction. -/
theorem eq_of_mem_spellings {left right : Instr} {shapes : List Shape}
    (mnemonic : left.mnemonic = right.mnemonic) (inLeft : shapes ∈ left.spellings)
    (inRight : shapes ∈ right.spellings) : left = right := by
  -- no two instructions with one name share a spelling, so shared spellings mean one instruction
  let Same (left right : Instr) : Prop := left.mnemonic = right.mnemonic →
    ∀ shapes ∈ left.spellings, shapes ∈ right.spellings → left = right
  have symm : Std.Symm Same :=
    ⟨fun _ _ same mnemonic shapes inLeft inRight =>
      (same mnemonic.symm shapes inRight inLeft).symm⟩
  have apart : all.Pairwise Same := by
    refine pairwise_spellings.imp fun disjoint mnemonic shapes inFirst inSecond => ?_
    have := List.all_eq_true.1 (disjoint mnemonic) shapes inFirst
    simp [inSecond] at this
  have same : ∀ left ∈ all, ∀ right ∈ all, Same left right :=
    fun _ inFirst _ inSecond => apart.forall_of_forall (fun _ _ _ _ _ _ => rfl) inFirst inSecond
  exact same left (mem_all left) right (mem_all right) mnemonic shapes inLeft inRight

/-- **An instruction is found by its spellings**, and by nothing else. -/
theorem lookup?_eq_some_iff {name : String} {shapes : List Shape} {instr : Instr} :
    lookup? name shapes = some instr ↔
      instr.mnemonic = canonical name ∧ shapes ∈ instr.spellings := by
  constructor
  · intro found
    -- what the search has found satisfies what it searched for
    have accepted := List.find?_some found
    rw [Bool.and_eq_true, beq_iff_eq, List.contains_iff_mem] at accepted
    exact accepted
  · rintro ⟨mnemonic, spelled⟩
    have accepts : (instr.mnemonic == canonical name && instr.spellings.contains shapes) = true := by
      rw [Bool.and_eq_true, beq_iff_eq, List.contains_iff_mem]
      exact ⟨mnemonic, spelled⟩
    -- the search finds something, and two instructions with one spelling are the same
    cases found : lookup? name shapes with
    | none =>
      exfalso
      exact List.find?_eq_none.1 found instr (mem_all instr) accepts
    | some other =>
      have chosen := List.find?_some found
      rw [Bool.and_eq_true, beq_iff_eq, List.contains_iff_mem] at chosen
      rw [eq_of_mem_spellings (chosen.1.trans mnemonic.symm) chosen.2 spelled]

/-! ## Names -/

/-- The mnemonic of an instruction stands for itself. -/
theorem canonical_mnemonic (instr : Instr) : canonical instr.mnemonic = instr.mnemonic := by
  have checked : all.all (fun instr => canonical instr.mnemonic == instr.mnemonic) = true := by
    decide +kernel
  simpa using List.all_eq_true.1 checked instr (mem_all instr)

/-- The assembler knows the mnemonic of every instruction. -/
theorem mem_mnemonics (instr : Instr) : instr.mnemonic ∈ mnemonics :=
  List.mem_append_left _ (List.mem_eraseDups.2 (List.mem_map_of_mem (mem_all instr)))

/-! ## Numbers in the place of labels -/

/-- Only `PUSH` itself stands for `PUSH`. -/
theorem eq_push_of_canonical {name : String} (push : canonical name = "PUSH") : name = "PUSH" := by
  have noAlias : ∀ entry ∈ aliases, entry.2 ≠ "PUSH" := by decide
  unfold canonical at push
  cases found : aliases.lookup name with
  | none =>
    rw [found] at push
    exact push
  | some other =>
    rw [found, Option.getD_some] at push
    obtain ⟨before, after, listed, -⟩ := List.lookup_eq_some_iff.1 found
    have mem : (name, other) ∈ aliases := by simp [listed]
    exact absurd push (noAlias (name, other) mem)

/-- `PUSH` takes no label for a number. -/
theorem takesLabel_of_push {instr : Instr} (push : instr.mnemonic = "PUSH") :
    instr.takesLabel = false := by
  have checked : all.all (fun instr => instr.mnemonic != "PUSH" || !instr.takesLabel) = true := by
    decide +kernel
  simpa [push] using List.all_eq_true.1 checked instr (mem_all instr)

/-- The shape of the number that means the same as a label does: after `PUSH` an address, and an
immediate byte elsewhere. -/
def numberShape (name : String) : Shape :=
  if name = "PUSH" then .address else .immediate

/-- A shape is the same as another, or a number in the place of a label. -/
def SameShape (name : String) (shape other : Shape) : Prop :=
  other = shape ∨ shape = .label ∧ other = numberShape name

/-- Where an instruction takes a label, it takes a number as well. -/
theorem slot_label (takesLabel : Bool) (expected : Shape) :
    expected.isEncoded = true → .label ∈ slot takesLabel expected →
      takesLabel = true ∧ .immediate ∈ slot takesLabel expected := by
  cases takesLabel <;> cases expected <;> decide

theorem numberShape_mem_slot {instr : Instr} {name : String}
    (mnemonic : instr.mnemonic = canonical name) {expected : Shape}
    (encoded : expected.isEncoded = true) (label : .label ∈ slot instr.takesLabel expected) :
    numberShape name ∈ slot instr.takesLabel expected := by
  obtain ⟨takes, immediate⟩ := slot_label instr.takesLabel expected encoded label
  -- `PUSH` has no regular spelling with a label, only the exceptional one
  have notPush : name ≠ "PUSH" := by
    rintro rfl
    rw [takesLabel_of_push (mnemonic.trans (by decide))] at takes
    cases takes
  rw [numberShape, if_neg notPush]
  exact immediate

/-- **A number in the place of a label leads to the same instruction.** -/
theorem lookup?_numbers {name : String} {shapes others : List Shape} {instr : Instr}
    (found : lookup? name shapes = some instr)
    (same : List.Forall₂ (SameShape name) shapes others) : lookup? name others = some instr := by
  obtain ⟨mnemonic, spelled⟩ := lookup?_eq_some_iff.1 found
  refine lookup?_eq_some_iff.2 ⟨mnemonic, mem_spellings_iff.2 ?_⟩
  rcases mem_spellings_iff.1 spelled with regular | ⟨isPush, rfl⟩
  · left
    have encoded : ∀ shape ∈ instr.shapes, shape.isEncoded = true := fun _ => isEncoded_of_mem
    clear spelled found
    -- slot by slot, along the shapes that the instruction expects
    generalize instr.shapes = expected at regular encoded
    induction regular generalizing others with
    | nil =>
      cases same
      exact .nil
    | cons inSlot _ ih =>
      cases same with
      | cons first rest =>
        refine .cons ?_ (ih rest fun shape mem => encoded shape (List.mem_cons_of_mem _ mem))
        rcases first with rfl | ⟨rfl, rfl⟩
        · exact inSlot
        · exact numberShape_mem_slot mnemonic (encoded _ List.mem_cons_self) inSlot
  -- the bare label of `PUSH` becomes an address, which is what `PUSH` expects
  · have isName : name = "PUSH" := by
      refine eq_push_of_canonical ?_
      rw [← mnemonic, isPush]
      rfl
    subst isName isPush
    cases same with
    | cons first rest =>
      cases rest
      rcases first with rfl | ⟨-, rfl⟩
      · exact .inr ⟨rfl, rfl⟩
      · exact .inl (.cons (by decide) .nil)

end Instr

end EightBit
