import MiniMips.Word

/-!
# `MiniMips.Memory.ByteStore`: finite sequences of bytes that can be written

A `ByteStore` has a fixed number of bytes, each of which can be read and replaced. Its
bytes determine it. Arrays are the plain instance.
-/

set_option autoImplicit false

namespace MiniMips

/-- Sequences of bytes of a fixed size, where only the indices below the size matter. -/
class ByteStore (α : Type) where
  /-- Number of bytes. -/
  size : α → Nat
  /-- The byte at an index. -/
  get : α → Nat → Byte
  /-- The store with the byte at an index replaced. -/
  set : α → Nat → Byte → α
  size_set (store : α) (i : Nat) (b : Byte) : size (set store i b) = size store
  get_set_self (store : α) (i : Nat) (b : Byte) (h : i < size store) :
    get (set store i b) i = b
  get_set_of_ne (store : α) (i j : Nat) (b : Byte) (h : i ≠ j) :
    get (set store i b) j = get store j
  ext (s t : α) (hsize : size s = size t) (hget : ∀ i < size s, get s i = get t i) : s = t

instance : ByteStore (Array Byte) where
  size := Array.size
  get store i := store.getD i 0
  set store i b := store.setIfInBounds i b
  size_set _ _ _ := Array.size_setIfInBounds
  get_set_self store i b h := by simp [Array.getD, h]
  get_set_of_ne store i j b h := by simp [Array.getD_eq_getD_getElem?, h]
  ext s t hsize hget := by
    refine Array.ext hsize fun i hs ht => ?_
    simpa [Array.getD, hs, ht] using hget i hs

end MiniMips
