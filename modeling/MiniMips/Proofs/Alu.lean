import Mathlib.Algebra.Group.Int.Defs
import Mathlib.Algebra.Group.Nat.Defs
import Mathlib.Data.Nat.Init
import MiniMips.Alu
import MiniMips.Proofs.Table

/-!
# `MiniMips.Proofs.Alu`: the arithmetic unit on numbers

What the operations of the unit do, said about the numbers in the words. Sums, differences
and shifts to the left wrap at `2 ^ 32`. A shift to the right divides and rounds down: the
logical one divides the unsigned number, the arithmetic one the signed number. The bitwise
operations combine the bits of the two words one by one.

`aluNumber` says all of it for a control code, in numbers alone. It knows neither the
operations nor their table, so it also says which codes have an operation. The theorems:

* `AluOp.toNat_add` and its siblings: the number in the result of an operation.
* `AluOp.ofControl?_toNat`: the table of control codes, read as two selectors of two bits.
* `aluNumber_control`, `aluNumber_of_forall_ne`: codes with an operation, and the others.
* `alu_on_numbers`: the unit computes `aluNumber`.
-/

set_option autoImplicit false

namespace MiniMips

namespace AluOp

variable (x y : Word)

/-! ### Shifts -/

/-- A shift to the left is a product with a power of two. Of the distance count five bits. -/
theorem toNat_shiftLeftLogical :
    (shiftLeftLogical.apply x y).toNat = x.toNat * 2 ^ (y.toNat % 32) % 2 ^ 32 := by
  rw [apply, BitVec.toNat_shiftLeft, Nat.shiftLeft_eq]

/-- A logical shift to the right is a quotient of the number. -/
theorem toNat_shiftRightLogical :
    (shiftRightLogical.apply x y).toNat = x.toNat / 2 ^ (y.toNat % 32) := by
  rw [apply, BitVec.toNat_ushiftRight, Nat.shiftRight_eq_div_pow]

/-- An arithmetic shift to the right is a quotient of the signed number, rounded down. -/
theorem toInt_shiftRightArithmetic :
    (shiftRightArithmetic.apply x y).toInt = x.toInt / 2 ^ (y.toNat % 32) := by
  rw [apply, BitVec.toInt_sshiftRight, Int.shiftRight_eq_div_pow]
  rfl

/-! ### Arithmetic -/

/-- Sums wrap around at `2 ^ 32`. -/
theorem toNat_add : (add.apply x y).toNat = (x.toNat + y.toNat) % 2 ^ 32 := by
  rw [apply, BitVec.toNat_add]

/-- Differences are those of the integers up to a multiple of `2 ^ 32`. -/
theorem toNat_subtract :
    ((subtract.apply x y).toNat : Int) = ((x.toNat : Int) - y.toNat) % 2 ^ 32 := by
  have hx := x.isLt
  have hy := y.isLt
  rw [apply, BitVec.toNat_sub]
  omega

/-- The comparison is one of unsigned numbers. -/
theorem toNat_setLessThan :
    (setLessThan.apply x y).toNat = if x.toNat < y.toNat then 1 else 0 := by
  simp only [apply, BitVec.lt_def]
  split <;> rfl

/-! ### Bitwise operations -/

/-- The conjunction of words is that of their numbers. -/
theorem toNat_and : (and.apply x y).toNat = x.toNat &&& y.toNat := by
  rw [apply, BitVec.toNat_and]

/-- The disjunction of words is that of their numbers. -/
theorem toNat_or : (or.apply x y).toNat = x.toNat ||| y.toNat := by
  rw [apply, BitVec.toNat_or]

/-- The exclusive disjunction of words is that of their numbers. -/
theorem toNat_xor : (xor.apply x y).toNat = x.toNat ^^^ y.toNat := by
  rw [apply, BitVec.toNat_xor]

/-- The negated disjunction negates all 32 bits. -/
theorem toNat_nor : (nor.apply x y).toNat = 2 ^ 32 - 1 - (x.toNat ||| y.toNat) := by
  rw [apply, BitVec.toNat_not, BitVec.toNat_or]

/-! ### Control codes -/

/-- The list of operations leaves none out. -/
theorem mem_all (op : AluOp) : op ∈ all := by
  cases op <;> decide

/-- A control code belongs to at most one operation. -/
theorem ofControl?_eq_some_iff {code : Nat} {op : AluOp} :
    ofControl? code = some op ↔ op.control = code :=
  find?_key_eq_some_iff (by decide) op.mem_all

/-- The operation of a control code, read off its bits. Bits 3 and 2 select a category
(shifts, comparison, sums, bitwise operations) and bits 1 and 0 an operation in it. Nothing
may stand above these bits. -/
def ofSelectors? (control : BitVec 8) : Option AluOp :=
  if 0b1111 < control then none
  else
    match (control.extractLsb' 2 2).toNat, (control.extractLsb' 0 2).toNat with
    | 0, 0 => some noShift
    | 0, 1 => some shiftLeftLogical
    | 0, 2 => some shiftRightLogical
    | 0, _ => some shiftRightArithmetic
    | 1, 0 => some setLessThan
    | 2, 0 => some add
    | 2, 1 => some subtract
    | 3, 0 => some and
    | 3, 1 => some or
    | 3, 2 => some xor
    | 3, _ => some nor
    | _, _ => none

/-- The table of control codes is this reading of their bits. -/
theorem ofControl?_toNat (control : BitVec 8) :
    ofControl? control.toNat = ofSelectors? control := by
  revert control
  decide +kernel

end AluOp

/-- Every operation has a control code that selects it. -/
theorem alu_control (op : AluOp) (x y : Word) : alu x y op.control = .ok (op.apply x y) := by
  rw [alu, AluOp.ofControl?_eq_some_iff.mpr rfl]

/-- A code of no operation is refused. -/
theorem alu_of_forall_ne {code : Nat} (h : ∀ op : AluOp, op.control ≠ code) (x y : Word) :
    alu x y code = .error (.invalidAluControl code) := by
  have hnone : AluOp.ofControl? code = none := by
    rw [Option.eq_none_iff_forall_ne_some]
    intro op hop
    exact h op (AluOp.ofControl?_eq_some_iff.mp hop)
  rw [alu, hnone]

/-! ### The unit in numbers -/

/-- The number whose bits are combined from the bits of two words. -/
def bitwiseNumber (x y : Word) (combine : Bool → Bool → Bool) : Nat :=
  Nat.ofBits fun i : Fin 32 => combine (x.toNat.testBit i) (y.toNat.testBit i)

/-- The number that a control code asks for. Shifts take their distance modulo 32, and the
arithmetic shift to the right is the only operation that looks at a sign. -/
def aluNumber (x y : Word) (code : Nat) : Except Fault Nat :=
  let distance := y.toNat % 32
  match code with
  | 0 => .ok x.toNat
  | 1 => .ok (x.toNat * 2 ^ distance % 2 ^ 32)
  | 2 => .ok (x.toNat / 2 ^ distance)
  | 3 => .ok (x.toInt / 2 ^ distance % 2 ^ 32).toNat
  | 4 => .ok (if x.toNat < y.toNat then 1 else 0)
  | 8 => .ok ((x.toNat + y.toNat) % 2 ^ 32)
  | 9 => .ok (((x.toNat : Int) - y.toNat) % 2 ^ 32).toNat
  | 12 => .ok (bitwiseNumber x y fun a b => a && b)
  | 13 => .ok (bitwiseNumber x y fun a b => a || b)
  | 14 => .ok (bitwiseNumber x y fun a b => a != b)
  | 15 => .ok (bitwiseNumber x y fun a b => !(a || b))
  | code => .error (.invalidAluControl code)

/-- A word is the number of its bits. -/
theorem bitwiseNumber_eq {x y result : Word} {combine : Bool → Bool → Bool}
    (h : ∀ i < 32, result.getLsbD i = combine (x.getLsbD i) (y.getLsbD i)) :
    bitwiseNumber x y combine = result.toNat := by
  have hbits : (fun i : Fin 32 => combine (x.toNat.testBit i) (y.toNat.testBit i))
      = fun i : Fin 32 => result.toNat.testBit i := by
    funext i
    exact (h i i.isLt).symm
  rw [bitwiseNumber, hbits, Nat.ofBits_testBit, Nat.mod_eq_of_lt result.isLt]

/-- A word is the residue of its signed number. -/
theorem toNat_eq_of_toInt (word : Word) : word.toNat = (word.toInt % 2 ^ 32).toNat := by
  have hword := BitVec.toNat_ofInt (n := 32) word.toInt
  rwa [BitVec.ofInt_toInt] at hword

/-- An operation computes the number of its code. -/
theorem aluNumber_control (op : AluOp) (x y : Word) :
    aluNumber x y op.control = .ok (op.apply x y).toNat := by
  cases op with
  | noShift => rfl
  | shiftLeftLogical => rw [AluOp.toNat_shiftLeftLogical]; rfl
  | shiftRightLogical => rw [AluOp.toNat_shiftRightLogical]; rfl
  | shiftRightArithmetic =>
    rw [toNat_eq_of_toInt, AluOp.toInt_shiftRightArithmetic]
    rfl
  | setLessThan => rw [AluOp.toNat_setLessThan]; rfl
  | add => rw [AluOp.toNat_add]; rfl
  | subtract =>
    rw [← Int.toNat_natCast (AluOp.subtract.apply x y).toNat, AluOp.toNat_subtract]
    rfl
  -- The reference looks at one bit at a time, where the operation works on all of them.
  | and => exact congrArg Except.ok (bitwiseNumber_eq fun i _ => BitVec.getLsbD_and)
  | or => exact congrArg Except.ok (bitwiseNumber_eq fun i _ => BitVec.getLsbD_or)
  | xor => exact congrArg Except.ok (bitwiseNumber_eq fun i _ => BitVec.getLsbD_xor)
  | nor =>
    refine congrArg Except.ok (bitwiseNumber_eq ?_)
    intro i hi
    simp [AluOp.apply, hi]

/-- There is no number for a code of no operation. -/
theorem aluNumber_of_forall_ne {code : Nat} (h : ∀ op : AluOp, op.control ≠ code) (x y : Word) :
    aluNumber x y code = .error (.invalidAluControl code) := by
  unfold aluNumber
  -- Every case but the last is a code that is excluded.
  split
  · exact absurd rfl (h .noShift)
  · exact absurd rfl (h .shiftLeftLogical)
  · exact absurd rfl (h .shiftRightLogical)
  · exact absurd rfl (h .shiftRightArithmetic)
  · exact absurd rfl (h .setLessThan)
  · exact absurd rfl (h .add)
  · exact absurd rfl (h .subtract)
  · exact absurd rfl (h .and)
  · exact absurd rfl (h .or)
  · exact absurd rfl (h .xor)
  · exact absurd rfl (h .nor)
  · rfl

/-- The unit computes the number that its control code asks for, and refuses every code
without one. Control codes of eight bits select by category and operation. -/
theorem alu_on_numbers (x y : Word) :
    (∀ code, (alu x y code).map BitVec.toNat = aluNumber x y code)
      ∧ ∀ control : BitVec 8,
        AluOp.ofControl? control.toNat = AluOp.ofSelectors? control := by
  refine ⟨?_, AluOp.ofControl?_toNat⟩
  intro code
  by_cases h : ∃ op : AluOp, op.control = code
  · obtain ⟨op, rfl⟩ := h
    rw [alu_control, aluNumber_control]
    rfl
  · have hne : ∀ op : AluOp, op.control ≠ code := not_exists.mp h
    rw [alu_of_forall_ne hne, aluNumber_of_forall_ne hne]
    rfl

/-- A distance of 35 is one of 3, and what comes in is the sign. -/
example : alu 0x80000000 35 3 = .ok 0xF0000000 := by rfl

end MiniMips
