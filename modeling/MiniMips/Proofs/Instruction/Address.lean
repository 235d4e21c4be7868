import Mathlib.Algebra.Group.Int.Defs
import Mathlib.Algebra.Group.Nat.Defs
import Mathlib.Data.Set.Operations
import MiniMips.Instruction.Address

/-!
# `MiniMips.Proofs.Instruction.Address`: addresses as numbers

The addresses of loads, stores, branches and jumps, said about the numbers that a line of
assembly text gives for them. A number that does not fit its field is cut down to the low
bits: an offset to a number from `-2 ^ 15` up to `2 ^ 15`, a target to one below `2 ^ 26`.

Read the other way, an address can be named or not. The theorems:

* `range_jumpTarget`, `jumpTarget_injective`: a jump names every word of its region once.
* `range_branchTarget`, `toNat_branchTarget_eq_iff`: a branch names the words up to `2 ^ 15`
  away, each by the residue of its distance.
-/

set_option autoImplicit false

namespace MiniMips

/-- An immediate value, extended by its sign. -/
theorem signExtend_ofInt (z : Int) :
    (BitVec.ofInt 16 z).signExtend 32 = BitVec.ofInt 32 (z.bmod (2 ^ 16)) := by
  rw [BitVec.signExtend, BitVec.toInt_ofInt]

/-- A sum with a number of either sign. -/
theorem toNat_add_ofInt (base : Word) (z : Int) :
    ((base + BitVec.ofInt 32 z).toNat : Int) = (base.toNat + z) % 2 ^ 32 := by
  rw [BitVec.toNat_add, BitVec.toNat_ofInt]
  omega

/-- The address of an access is the sum of the base and the literal with its sign, wrapped
around. -/
theorem toNat_effectiveAddress (base : Word) (z : Int) :
    ((effectiveAddress base (BitVec.ofInt 16 z)).toNat : Int)
      = (base.toNat + z.bmod (2 ^ 16)) % 2 ^ 32 := by
  rw [effectiveAddress, signExtend_ofInt, toNat_add_ofInt]

/-- A branch counts its offset in words. -/
theorem toNat_branchTarget (pc : Word) (z : Int) :
    ((branchTarget pc (BitVec.ofInt 16 z)).toNat : Int)
      = (pc.toNat + 4 * z.bmod (2 ^ 16)) % 2 ^ 32 := by
  rw [branchTarget, signExtend_ofInt, BitVec.toNat_add, BitVec.toNat_shiftLeft,
    BitVec.toNat_ofInt, Nat.shiftLeft_eq]
  omega

/-- The highest four bits of a word. -/
private theorem and_region (word : Word) : word &&& 0xF0000000 = (word >>> 28) <<< 28 := by
  ext i hi
  have hmask : ∀ i (h : i < 32), (0xF0000000#32)[i] = decide (28 ≤ i) := by decide
  by_cases hlow : i < 28
  · simp [hmask i hi, hlow]
  · simp [hmask i hi, hlow, show 28 ≤ i by omega, BitVec.getLsbD_eq_getElem hi]

/-- A jump keeps the four high bits of the address behind it and fills in the target, shifted
by two. -/
private theorem jumpTarget_eq (pc : Word) (target : BitVec 26) :
    jumpTarget pc target = (pc + 4) >>> 28 <<< 28 ||| target.setWidth 32 <<< 2 := by
  rw [← and_region]
  rfl

/-- A jump stays in the region of `2 ^ 28` bytes that holds `pc + 4`. -/
theorem toNat_jumpTarget (pc : Word) (n : Nat) :
    (jumpTarget pc (BitVec.ofNat 26 n)).toNat
      = (pc + 4).toNat / 2 ^ 28 * 2 ^ 28 + 4 * (n % 2 ^ 26) := by
  have hpc := (pc + 4).isLt
  have hregion : ((pc + 4) >>> 28 <<< 28).toNat = ((pc + 4).toNat / 2 ^ 28) <<< 28 := by
    rw [BitVec.toNat_shiftLeft, BitVec.toNat_ushiftRight, Nat.shiftRight_eq_div_pow,
      Nat.shiftLeft_eq]
    omega
  have htarget : ((BitVec.ofNat 26 n).setWidth 32 <<< 2).toNat = 4 * (n % 2 ^ 26) := by
    rw [BitVec.toNat_shiftLeft, BitVec.toNat_setWidth, BitVec.toNat_ofNat, Nat.shiftLeft_eq]
    omega
  -- The two parts have no bit in common.
  rw [jumpTarget_eq, BitVec.toNat_or, hregion, htarget,
    ← Nat.shiftLeft_add_eq_or_of_lt (by omega), Nat.shiftLeft_eq]

/-! ### The reach of jumps and branches -/

/-- The target of a jump in terms of its field: one of `2 ^ 26` words in the region of the
address behind the jump. -/
private theorem toNat_jumpTarget_toNat (pc : Word) (target : BitVec 26) :
    (jumpTarget pc target).toNat = (pc + 4).toNat / 2 ^ 28 * 2 ^ 28 + 4 * target.toNat := by
  have hnumber := toNat_jumpTarget pc target.toNat
  rwa [BitVec.ofNat_toNat, BitVec.setWidth_eq, Nat.mod_eq_of_lt target.isLt] at hnumber

/-- Jumps reach the words of the region and nothing else. -/
theorem range_jumpTarget (pc : Word) :
    Set.range (jumpTarget pc)
      = {address | 4 ∣ address.toNat ∧ address.toNat / 2 ^ 28 = (pc + 4).toNat / 2 ^ 28} := by
  ext address
  constructor
  · rintro ⟨target, rfl⟩
    have hlt := target.isLt
    show 4 ∣ (jumpTarget pc target).toNat ∧ _ = _
    rw [toNat_jumpTarget_toNat]
    omega
  · rintro ⟨hwords, hregion⟩
    -- The target is the number of the word in the region.
    refine ⟨BitVec.ofNat 26 (address.toNat % 2 ^ 28 / 4), BitVec.eq_of_toNat_eq ?_⟩
    rw [toNat_jumpTarget]
    omega

/-- Different targets are different words of the region. -/
theorem jumpTarget_injective (pc : Word) : Function.Injective (jumpTarget pc) := by
  intro target other h
  have hnumber := congrArg BitVec.toNat h
  rw [toNat_jumpTarget_toNat, toNat_jumpTarget_toNat] at hnumber
  exact BitVec.eq_of_toNat_eq (by omega)

/-- The target of a branch in terms of its field. -/
private theorem toNat_branchTarget_toInt (pc : Word) (offset : BitVec 16) :
    ((branchTarget pc offset).toNat : Int) = (pc.toNat + 4 * offset.toInt) % 2 ^ 32 := by
  have hnumber := toNat_branchTarget pc offset.toInt
  rwa [BitVec.ofInt_toInt, ← BitVec.toInt_ofInt, BitVec.ofInt_toInt] at hnumber

/-- The number of words by which a branch can lead away. -/
private theorem offset_bounds (offset : BitVec 16) :
    -32768 ≤ offset.toInt ∧ offset.toInt ≤ 32767 := by
  have hlow := offset.le_toInt
  have hhigh := offset.toInt_lt
  omega

/-- The offset by which a branch leads to an address in reach. -/
theorem toNat_branchTarget_eq_iff (pc : Word) (offset : BitVec 16) {k : Int}
    (hlow : -32768 ≤ k) (hhigh : k ≤ 32767) :
    ((branchTarget pc offset).toNat : Int) = (pc.toNat + 4 * k) % 2 ^ 32
      ↔ (offset.toNat : Int) = k % 2 ^ 16 := by
  have hbounds := offset_bounds offset
  have hoffset := BitVec.toInt_eq_toNat_cond offset
  have hlt := offset.isLt
  rw [toNat_branchTarget_toInt]
  -- The shift drops bits, but none that tell offsets apart: four times the largest distance
  -- is still far from `2 ^ 32`.
  split at hoffset <;> omega

/-- Branches reach the words up to `2 ^ 15` away and nothing else. -/
theorem range_branchTarget (pc : Word) :
    Set.range (branchTarget pc)
      = {address | ∃ k : Int, -32768 ≤ k ∧ k ≤ 32767
        ∧ (address.toNat : Int) = (pc.toNat + 4 * k) % 2 ^ 32} := by
  ext address
  constructor
  · rintro ⟨offset, rfl⟩
    obtain ⟨hlow, hhigh⟩ := offset_bounds offset
    exact ⟨offset.toInt, hlow, hhigh, toNat_branchTarget_toInt pc offset⟩
  · rintro ⟨k, hlow, hhigh, haddress⟩
    refine ⟨BitVec.ofInt 16 k, BitVec.eq_of_toNat_eq ?_⟩
    have hoffset : ((BitVec.ofInt 16 k).toNat : Int) = k % 2 ^ 16 := by
      rw [BitVec.toNat_ofInt]
      omega
    have hnumber := (toNat_branchTarget_eq_iff pc _ hlow hhigh).mpr hoffset
    omega

end MiniMips
