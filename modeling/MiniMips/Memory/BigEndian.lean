import MiniMips.Memory.ByteStore

/-!
# `MiniMips.Memory.BigEndian`: numbers in consecutive bytes

A number of `count` bytes is kept with its most significant byte first.

- `read` and `write`: numbers of any count of bytes, as natural numbers.
- `get?` and `set?`: words in one of the access sizes, refused when the access leaves
  the store.
-/

set_option autoImplicit false

namespace MiniMips.BigEndian

variable {α : Type} [ByteStore α]

/-- The number in the `count` bytes from `offset` on. -/
def read (bytes : α) (offset : Nat) : (count : Nat) → Nat
  | 0 => 0
  | count + 1 =>
    read bytes offset count * 256 + (ByteStore.get bytes (offset + count)).toNat

/-- The store with a number in the `count` bytes from `offset` on. Higher bytes of the
number are dropped. -/
def write (bytes : α) (offset : Nat) : (count value : Nat) → α
  | 0, _ => bytes
  | count + 1, value =>
    ByteStore.set (write bytes offset count (value / 256)) (offset + count)
      (BitVec.ofNat 8 value)

/-- The word of an access, if all of its bytes lie in the store. -/
def get? (bytes : α) (offset : Nat) (size : AccessSize) : Option Word :=
  if offset + size.bytes ≤ ByteStore.size bytes then
    some (BitVec.ofNat 32 (read bytes offset size.bytes))
  else
    none

/-- The store after an access that writes the low bytes of a word, if all bytes of the
access lie in the store. -/
def set? (bytes : α) (offset : Nat) (size : AccessSize) (value : Word) : Option α :=
  if offset + size.bytes ≤ ByteStore.size bytes then
    some (write bytes offset size.bytes value.toNat)
  else
    none

end MiniMips.BigEndian
