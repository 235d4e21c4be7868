import MiniMips.Word

/-!
# `MiniMips.Memory.ByteTree`: sparse sequences of bytes

A tree of depth `d` holds `2 ^ d` bytes. A part that holds only zeros is one node,
whatever its size, so an empty memory is as small as a full one is large.

- `get` and `set` descend along the bits of the index.
- `Canonical`: no part of the tree spells out zeros. `canonical_set` keeps this, and
  `Canonical.ext` then makes equal bytes the same tree.
- `occupied`: the aligned groups of bytes that are not all zero.
-/

set_option autoImplicit false

namespace MiniMips

/-- A sequence of `2 ^ depth` bytes. -/
inductive ByteTree : (depth : Nat) → Type where
  /-- All bytes are zero. -/
  | zeros {depth : Nat} : ByteTree depth
  /-- One byte. -/
  | leaf (b : Byte) : ByteTree 0
  /-- The bytes of `low`, then those of `high`. -/
  | node {depth : Nat} (low high : ByteTree depth) : ByteTree (depth + 1)
deriving DecidableEq

namespace ByteTree

variable {depth : Nat}

/-- Whether the tree is the one node without bytes of its own. -/
def isZeros : ByteTree depth → Bool
  | zeros => true
  | _ => false

/-! ### Taking trees apart and joining them -/

/-- The byte of a tree of depth zero. -/
def byte : ByteTree 0 → Byte
  | zeros => 0
  | leaf b => b

/-- The first half. -/
def low : ByteTree (depth + 1) → ByteTree depth
  | zeros => zeros
  | node l _ => l

/-- The second half. -/
def high : ByteTree (depth + 1) → ByteTree depth
  | zeros => zeros
  | node _ h => h

/-- The tree of one byte. -/
def ofByte (b : Byte) : ByteTree 0 :=
  if b = 0 then zeros else leaf b

/-- The tree of two halves. -/
def join (l h : ByteTree depth) : ByteTree (depth + 1) :=
  if l.isZeros && h.isZeros then zeros else node l h

/-- The test for the tree of zeros finds this tree and no other one. -/
@[simp] theorem isZeros_iff {t : ByteTree depth} : t.isZeros = true ↔ t = zeros := by
  cases t <;> simp [isZeros]

/-- A leaf holds the byte that it was made of. -/
@[simp] theorem byte_ofByte (b : Byte) : (ofByte b).byte = b := by
  unfold ofByte
  split <;> simp_all [byte]

/-- The lower half of two joined halves, also where the join is the tree of zeros. -/
@[simp] theorem low_join (l h : ByteTree depth) : (join l h).low = l := by
  unfold join
  split <;> simp_all [low]

/-- The upper half of two joined halves. -/
@[simp] theorem high_join (l h : ByteTree depth) : (join l h).high = h := by
  unfold join
  split <;> simp_all [high]

/-! ### Reading and writing -/

/-- The byte at an index. Only the `depth` lowest bits of the index count. -/
def get : {depth : Nat} → ByteTree depth → Nat → Byte
  | 0, t, _ => t.byte
  | depth + 1, t, i => if i.testBit depth then t.high.get i else t.low.get i

/-- The tree with the byte at an index replaced. -/
def set : {depth : Nat} → ByteTree depth → Nat → Byte → ByteTree depth
  | 0, _, _, b => ofByte b
  | depth + 1, t, i, b =>
    if i.testBit depth then join t.low (t.high.set i b) else join (t.low.set i b) t.high

/-- An empty tree holds zeros. -/
@[simp] theorem get_zeros (i : Nat) : (zeros : ByteTree depth).get i = 0 := by
  induction depth with
  | zero => rfl
  | succ d ih => simp [get, low, high, ih]

/-- A byte that was set is found again. Only the low bits of the index count. -/
theorem get_set_self (t : ByteTree depth) (i : Nat) (b : Byte) : (t.set i b).get i = b := by
  induction depth with
  | zero => simp [get, set]
  | succ d ih => by_cases h : i.testBit d <;> simp [get, set, h, ih]

/-- A byte whose index differs in one of these bits stays as it is. -/
theorem get_set_of_ne (t : ByteTree depth) {i j : Nat} (b : Byte)
    (h : ∃ k < depth, i.testBit k ≠ j.testBit k) : (t.set i b).get j = t.get j := by
  induction depth with
  | zero => obtain ⟨k, hk, _⟩ := h; omega
  | succ d ih =>
    by_cases hd : i.testBit d = j.testBit d
    · have hlow : ∃ k < d, i.testBit k ≠ j.testBit k := by
        obtain ⟨k, hk, hne⟩ := h
        refine ⟨k, ?_, hne⟩
        have : k ≠ d := fun heq => hne (heq ▸ hd)
        omega
      by_cases hj : j.testBit d <;> simp [get, set, hd, hj, ih _ hlow]
    · by_cases hj : j.testBit d <;> simp_all [get, set]

/-- Bits of the index beyond the depth do not matter. -/
theorem get_congr (t : ByteTree depth) {i j : Nat}
    (h : ∀ k < depth, i.testBit k = j.testBit k) : t.get i = t.get j := by
  induction depth with
  | zero => rfl
  | succ d ih =>
    have hlow : ∀ k < d, i.testBit k = j.testBit k := fun k hk => h k (by omega)
    simp [get, h d (by omega), ih _ hlow]

/-! ### One tree for each sequence -/

/-- No part of the tree holds only zeros without being `zeros`. -/
def Canonical : {depth : Nat} → ByteTree depth → Prop
  | _, zeros => True
  | _, leaf b => b ≠ 0
  | _, node l h => ¬(l.isZeros ∧ h.isZeros) ∧ l.Canonical ∧ h.Canonical

/-- The tree of zeros is canonical. -/
theorem canonical_zeros : (zeros : ByteTree depth).Canonical := by
  simp [Canonical]

/-- A leaf made of a byte is canonical, since one of zero is the tree of zeros. -/
theorem canonical_ofByte (b : Byte) : (ofByte b).Canonical := by
  unfold ofByte
  split <;> simp_all [Canonical]

/-- Joining keeps the form, as two halves of zeros become the tree of zeros. -/
theorem canonical_join {l h : ByteTree depth} (hl : l.Canonical) (hh : h.Canonical) :
    (join l h).Canonical := by
  unfold join
  split <;> simp_all [Canonical]

/-- The lower half of a canonical tree is canonical. -/
theorem Canonical.low {t : ByteTree (depth + 1)} (ht : t.Canonical) : t.low.Canonical := by
  cases t with
  | zeros => exact canonical_zeros
  | node l h => exact ht.2.1

/-- The upper half of a canonical tree is canonical. -/
theorem Canonical.high {t : ByteTree (depth + 1)} (ht : t.Canonical) : t.high.Canonical := by
  cases t with
  | zeros => exact canonical_zeros
  | node l h => exact ht.2.2

/-- A canonical tree is the join of its halves. -/
theorem Canonical.join_low_high {t : ByteTree (depth + 1)} (ht : t.Canonical) :
    join t.low t.high = t := by
  cases t with
  | zeros => simp [join, ByteTree.low, ByteTree.high]
  | node l h => simpa [join, ByteTree.low, ByteTree.high] using ht.1

/-- Setting a byte keeps the form. -/
theorem canonical_set {t : ByteTree depth} (ht : t.Canonical) (i : Nat) (b : Byte) :
    (t.set i b).Canonical := by
  induction depth with
  | zero => exact canonical_ofByte b
  | succ d ih =>
    unfold set
    split
    · exact canonical_join ht.low (ih ht.high)
    · exact canonical_join (ih ht.low) ht.high

/-- Canonical trees with the same bytes are the same. -/
theorem Canonical.ext {t u : ByteTree depth} (ht : t.Canonical) (hu : u.Canonical)
    (h : ∀ i, t.get i = u.get i) : t = u := by
  induction depth with
  | zero =>
    have hbyte : t.byte = u.byte := h 0
    cases t <;> cases u <;> simp_all [byte, Canonical]
  | succ d ih =>
    rw [← ht.join_low_high, ← hu.join_low_high]
    congr 1
    · refine ih ht.low hu.low fun i => ?_
      -- The same index with the bit of this level cleared leads into the low half.
      have hi := h (i % 2 ^ d)
      have hcongr : ∀ v : ByteTree d, v.get (i % 2 ^ d) = v.get i := fun v =>
        v.get_congr fun k hk => by simp [Nat.testBit_mod_two_pow, hk]
      simpa [get, Nat.testBit_mod_two_pow, hcongr] using hi
    · refine ih ht.high hu.high fun i => ?_
      -- With that bit set it leads into the high half.
      have hi := h (i ||| 1 <<< d)
      have hcongr : ∀ v : ByteTree d, v.get (i ||| 1 <<< d) = v.get i := fun v =>
        v.get_congr fun k hk => by
          simp [Nat.testBit_or, Nat.testBit_shiftLeft, show ¬d ≤ k by omega]
      simpa [get, Nat.testBit_or, Nat.testBit_shiftLeft, hcongr] using hi

/-! ### The parts in use -/

/-- The first indices of the groups of `2 ^ unit` bytes that are not all zero, in
ascending order, where the tree itself starts at the index `start`. -/
def occupied (unit : Nat) : (levels : Nat) → ByteTree (unit + levels) → (start : Nat) → List Nat
  | 0, t, start => if t.isZeros then [] else [start]
  | levels + 1, t, start =>
    if t.isZeros then []
    else occupied unit levels t.low start
      ++ occupied unit levels t.high (start + 1 <<< (unit + levels))

end ByteTree

end MiniMips
