import Mathlib.Algebra.BigOperators.Group.Finset.Basic
import Mathlib.Algebra.BigOperators.Ring.Finset
import MiniMips.Memory.BigEndian

/-!
# `MiniMips.Proofs.Memory.BigEndian`: reading and writing numbers in bytes

A number of `count` bytes is read and written one byte at a time, the last byte being the
lowest. All proofs are inductions on `count` that follow `BigEndian.read` and
`BigEndian.write`. The theorems:

* `read_eq_sum`: a number is the sum of its bytes, each with the weight of its place.
* `get_write_of_outside`: a write changes no byte outside its range.
* `get_write_of_inside`: inside its range it leaves the bytes of the number.
* `read_write_self`: what was written is read back, as far as it fits.
* `read_congr` and `get_eq_of_read_eq`: a number and its bytes determine each other.
* `write_read_self`: writing what was read changes nothing.
* `get_write_congr`: what a write leaves in a byte depends on that byte alone.
-/

set_option autoImplicit false

namespace MiniMips.BigEndian

variable {α : Type} [ByteStore α]

/-- Writing bytes neither adds nor drops any. -/
theorem size_write (bytes : α) (offset count value : Nat) :
    ByteStore.size (write bytes offset count value) = ByteStore.size bytes := by
  induction count generalizing value with
  | zero => rfl
  | succ count ih => rw [write, ByteStore.size_set, ih]

/-- The number in some bytes is below the power of 256 of their count. -/
theorem read_lt (bytes : α) (offset count : Nat) : read bytes offset count < 256 ^ count := by
  induction count with
  | zero => simp [read]
  | succ count ih =>
    have hbyte := (ByteStore.get bytes (offset + count)).isLt
    rw [read, Nat.pow_succ]
    omega

/-- The bytes of an access fit a word. -/
theorem read_lt_word (bytes : α) (offset : Nat) (size : AccessSize) :
    read bytes offset size.bytes < 2 ^ 32 := by
  have hpow : 256 ^ size.bytes ≤ 2 ^ 32 := by cases size <;> decide
  exact Nat.lt_of_lt_of_le (read_lt bytes offset size.bytes) hpow

/-- A number is the sum of its bytes, each with the weight of its place. -/
theorem read_eq_sum (bytes : α) (offset count : Nat) :
    read bytes offset count
      = ∑ i ∈ Finset.range count,
          (ByteStore.get bytes (offset + i)).toNat * 256 ^ (count - 1 - i) := by
  induction count with
  | zero => rfl
  | succ count ih =>
    -- One more byte at the end moves all others up by one place.
    have hshift : (∑ i ∈ Finset.range count,
          (ByteStore.get bytes (offset + i)).toNat * 256 ^ (count - 1 - i)) * 256
        = ∑ i ∈ Finset.range count,
          (ByteStore.get bytes (offset + i)).toNat * 256 ^ (count - i) := by
      rw [Finset.sum_mul]
      refine Finset.sum_congr rfl fun i hi => ?_
      have hplace : count - i = count - 1 - i + 1 := by
        have := Finset.mem_range.mp hi
        omega
      rw [hplace, Nat.pow_succ, Nat.mul_assoc]
    rw [read, ih, hshift, Finset.sum_range_succ, Nat.add_sub_cancel, Nat.sub_self, Nat.pow_zero,
      Nat.mul_one]

/-- A write changes no byte outside its range. -/
theorem get_write_of_outside (bytes : α) {offset count j : Nat} (value : Nat)
    (h : j < offset ∨ offset + count ≤ j) :
    ByteStore.get (write bytes offset count value) j = ByteStore.get bytes j := by
  induction count generalizing value with
  | zero => rfl
  | succ count ih => rw [write, ByteStore.get_set_of_ne _ _ _ _ (by omega), ih _ (by omega)]

/-- A write leaves the bytes of its number, the lowest one at the end of its range. -/
theorem get_write_of_inside {bytes : α} {offset count j : Nat} (value : Nat)
    (h : offset + count ≤ ByteStore.size bytes) (hlow : offset ≤ j) (hhigh : j < offset + count) :
    ByteStore.get (write bytes offset count value) j
      = BitVec.ofNat 8 (value / 256 ^ (offset + count - 1 - j)) := by
  induction count generalizing value with
  | zero => omega
  | succ count ih =>
    rw [write]
    by_cases hlast : offset + count = j
    · subst hlast
      rw [ByteStore.get_set_self _ _ _ (by rw [size_write]; omega), ← Nat.add_assoc,
        Nat.add_sub_cancel, Nat.sub_self, Nat.pow_zero, Nat.div_one]
    · have hplace : offset + (count + 1) - 1 - j = offset + count - 1 - j + 1 := by omega
      rw [ByteStore.get_set_of_ne _ _ _ _ hlast, ih _ (by omega) (by omega), hplace,
        Nat.pow_succ', Nat.div_div_eq_div_mul]

/-- Equal bytes are read as equal numbers. -/
theorem read_congr {s t : α} {offset count : Nat}
    (h : ∀ i, offset ≤ i → i < offset + count → ByteStore.get s i = ByteStore.get t i) :
    read s offset count = read t offset count := by
  induction count with
  | zero => rfl
  | succ count ih =>
    rw [read, read, ih fun i hlow hhigh => h i hlow (by omega),
      h (offset + count) (by omega) (by omega)]

/-- What was written is read back, as far as it fits. -/
theorem read_write_self {bytes : α} {offset count : Nat} (value : Nat)
    (h : offset + count ≤ ByteStore.size bytes) :
    read (write bytes offset count value) offset count = value % 256 ^ count := by
  induction count generalizing value with
  | zero => simp [read, Nat.mod_one]
  | succ count ih =>
    -- The last byte is set last, so the bytes before it are read as they were written.
    have hfirst : read (write bytes offset (count + 1) value) offset count
        = read (write bytes offset count (value / 256)) offset count := by
      refine read_congr fun i hlow hhigh => ?_
      rw [write, ByteStore.get_set_of_ne _ _ _ _ (by omega)]
    have hlast : ByteStore.get (write bytes offset (count + 1) value) (offset + count)
        = BitVec.ofNat 8 value := by
      rw [write, ByteStore.get_set_self]
      rw [size_write]
      omega
    rw [read, hfirst, hlast, ih _ (by omega), BitVec.toNat_ofNat, Nat.pow_succ 256,
      Nat.mul_comm (256 ^ count) 256, Nat.mod_mul]
    omega

/-- Equal numbers have equal bytes. -/
theorem get_eq_of_read_eq {s t : α} {offset count : Nat}
    (h : read s offset count = read t offset count) :
    ∀ i, offset ≤ i → i < offset + count → ByteStore.get s i = ByteStore.get t i := by
  induction count with
  | zero =>
    intro i hlow hhigh
    omega
  | succ count ih =>
    intro i hlow hhigh
    have hs := (ByteStore.get s (offset + count)).isLt
    have ht := (ByteStore.get t (offset + count)).isLt
    rw [read, read] at h
    -- The last byte is the remainder by 256, the bytes before it are the quotient.
    by_cases hi : i = offset + count
    · subst hi
      exact BitVec.eq_of_toNat_eq (by omega)
    · exact ih (by omega) i hlow (by omega)

/-- Writing what was read changes nothing. -/
theorem write_read_self {bytes : α} {offset count : Nat}
    (h : offset + count ≤ ByteStore.size bytes) :
    write bytes offset count (read bytes offset count) = bytes := by
  refine ByteStore.ext _ _ (size_write bytes offset count _) fun i _ => ?_
  -- Inside the range the bytes are those of the number that was read.
  by_cases hi : offset ≤ i ∧ i < offset + count
  · have hread := read_write_self (read bytes offset count) h
    rw [Nat.mod_eq_of_lt (read_lt bytes offset count)] at hread
    exact get_eq_of_read_eq hread i hi.1 hi.2
  · exact get_write_of_outside bytes _ (by omega)

/-- What a write leaves in a byte depends on that byte alone. -/
theorem get_write_congr {s t : α} {i : Nat} (hs : i < ByteStore.size s)
    (ht : i < ByteStore.size t) (h : ByteStore.get s i = ByteStore.get t i)
    (offset count value : Nat) :
    ByteStore.get (write s offset count value) i
      = ByteStore.get (write t offset count value) i := by
  induction count generalizing value with
  | zero => exact h
  | succ count ih =>
    rw [write, write]
    -- The byte is written now, or it was written or left alone before.
    by_cases hi : offset + count = i
    · subst hi
      rw [ByteStore.get_set_self _ _ _ (by rw [size_write]; exact hs),
        ByteStore.get_set_self _ _ _ (by rw [size_write]; exact ht)]
    · rw [ByteStore.get_set_of_ne _ _ _ _ hi, ByteStore.get_set_of_ne _ _ _ _ hi, ih]

end MiniMips.BigEndian
