import MiniMips.Memory.ByteStore
import MiniMips.Memory.ByteTree

/-!
# `MiniMips.Memory.Bank`: the bytes of one segment

A bank is a store of `Bank.size` bytes, kept as a canonical tree. Two banks are equal
exactly when all of their bytes are.
-/

set_option autoImplicit false

namespace MiniMips

/-- The bytes of one segment. -/
structure Bank where
  tree : ByteTree 20
  canonical : tree.Canonical
deriving DecidableEq

namespace Bank

/-- Number of bytes in a bank. -/
def size : Nat :=
  0x100000

/-- The bank in which every byte is zero. -/
def zeros : Bank :=
  ⟨.zeros, ByteTree.canonical_zeros⟩

/-- The byte at an index, and zero outside the bank. -/
def get (bank : Bank) (i : Nat) : Byte :=
  if i < size then bank.tree.get i else 0

/-- The bank with the byte at an index replaced. Nothing changes for an index outside. -/
def set (bank : Bank) (i : Nat) (b : Byte) : Bank :=
  if i < size then ⟨bank.tree.set i b, ByteTree.canonical_set bank.canonical i b⟩ else bank

/-- A bank of zeros holds zero at every index, beyond its end too. -/
@[simp] theorem get_zeros (i : Nat) : zeros.get i = 0 := by
  simp [get, zeros]

/-- A byte that was set is found again, if it lies in the bank. -/
theorem get_set_self (bank : Bank) {i : Nat} (b : Byte) (h : i < size) :
    (bank.set i b).get i = b := by
  simp [get, set, h, ByteTree.get_set_self]

/-- The other bytes stay as they are. -/
theorem get_set_of_ne (bank : Bank) {i j : Nat} (b : Byte) (h : i ≠ j) :
    (bank.set i b).get j = bank.get j := by
  by_cases hi : i < size
  · by_cases hj : j < size
    · have hbit : ∃ k < 20, i.testBit k ≠ j.testBit k := by
        refine Classical.byContradiction fun hall => h (Nat.eq_of_testBit_eq fun k => ?_)
        by_cases hk : k < 20
        · exact Classical.byContradiction fun hne => hall ⟨k, hk, hne⟩
        · have hpow : size ≤ 2 ^ k :=
            Nat.pow_le_pow_right (show 0 < 2 by decide) (show 20 ≤ k by omega)
          rw [Nat.testBit_lt_two_pow (Nat.lt_of_lt_of_le hi hpow),
            Nat.testBit_lt_two_pow (Nat.lt_of_lt_of_le hj hpow)]
      simpa [get, set, hi, hj] using ByteTree.get_set_of_ne bank.tree b hbit
    · simp [get, hj]
  · simp [set, hi]

/-- The bytes determine a bank. -/
theorem ext_get {s t : Bank} (h : ∀ i < size, s.get i = t.get i) : s = t := by
  obtain ⟨s, hs⟩ := s
  obtain ⟨t, ht⟩ := t
  have heq : s = t := hs.ext ht fun i => by
    have hlt : i % size < size := Nat.mod_lt i (by decide)
    have hcongr : ∀ v : ByteTree 20, v.get (i % size) = v.get i := fun v =>
      v.get_congr fun k hk => by
        rw [show size = 2 ^ 20 from rfl, Nat.testBit_mod_two_pow]
        simp [hk]
    simpa [get, hlt, hcongr] using h (i % size) hlt
  subst heq
  rfl

instance : ByteStore Bank where
  size _ := size
  get := get
  set := set
  size_set _ _ _ := rfl
  get_set_self bank _ b h := bank.get_set_self b h
  get_set_of_ne bank _ _ b h := bank.get_set_of_ne b h
  ext _ _ _ hget := ext_get hget

/-- The offsets of the aligned groups of four bytes that are not all zero, in ascending
order. -/
def nonzeroGroups (bank : Bank) : List Nat :=
  ByteTree.occupied 2 18 bank.tree 0

end Bank

end MiniMips
