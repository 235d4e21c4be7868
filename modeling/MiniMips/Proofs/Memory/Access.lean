import MiniMips.Memory.Basic
import MiniMips.Proofs.Memory.BigEndian
import MiniMips.Proofs.Table

/-!
# `MiniMips.Proofs.Memory.Access`: reading and writing memory by address

Every mapped address is one place, and different mapped addresses are different places.
So an access touches the bytes at its own addresses and no others. The theorems:

* `Place.ofAddress_eq_ok_iff`: the places and their addresses.
* `Memory.read_of_write`: what was written is read back.
* `Memory.write_of_read`: writing back what was read changes nothing.
* `Memory.read_byte_set_of_outside`: a write changes no byte outside its access.
* `Memory.agreeOutside_write`: a write of a word changes no byte outside the word.
* `Memory.AgreeOutside.set`: the same write keeps memories alike.
-/

set_option autoImplicit false

namespace MiniMips

/-! ### Places -/

/-- The list of segments leaves none out. -/
theorem Segment.mem_all (segment : Segment) : segment ∈ Segment.all := by
  cases segment <;> decide

/-- A selector belongs to at most one segment. -/
theorem Segment.ofSelector?_eq_some_iff {selector : Nat} {segment : Segment} :
    Segment.ofSelector? selector = some segment ↔ segment.selector = selector :=
  find?_key_eq_some_iff (by decide) segment.mem_all

/-- An address is the number of its segment and its offset. -/
theorem Place.ofAddress_eq_ok_iff {address : Word} {place : Place} :
    Place.ofAddress address = .ok place ↔
      address.toNat = place.segment.selector * Segment.size + place.offset
        ∧ place.offset < Segment.size := by
  have hpos : 0 < Segment.size := by decide
  unfold Place.ofAddress
  constructor
  · intro h
    split at h
    · rename_i segment hsegment
      cases h
      rw [Segment.ofSelector?_eq_some_iff.mp hsegment]
      exact ⟨(Nat.div_add_mod' _ _).symm, Nat.mod_lt _ hpos⟩
    · cases h
  -- An offset below the size of a segment makes the two summands quotient and remainder.
  · rintro ⟨haddress, hoffset⟩
    have hselector : address.toNat / Segment.size = place.segment.selector := by
      rw [haddress, Nat.mul_comm, Nat.mul_add_div hpos, Nat.div_eq_of_lt hoffset, Nat.add_zero]
    have hrest : address.toNat % Segment.size = place.offset := by
      rw [haddress, Nat.mul_comm, Nat.mul_add_mod, Nat.mod_eq_of_lt hoffset]
    rw [hselector, Segment.ofSelector?_eq_some_iff.mpr rfl, hrest]

/-- An access has a place if its address has one and its last byte is in the same segment. -/
theorem Place.ofAccess_eq_ok_iff {address : Word} {size : AccessSize} {place : Place} :
    Place.ofAccess address size = .ok place ↔
      Place.ofAddress address = .ok place ∧ place.offset + size.bytes ≤ Segment.size := by
  unfold Place.ofAccess
  cases Place.ofAddress address with
  | error fault => simp
  | ok found =>
    by_cases hfits : found.offset + size.bytes ≤ Segment.size
    · simp only [if_pos hfits, Except.ok.injEq]
      constructor
      · rintro rfl
        exact ⟨rfl, hfits⟩
      · exact And.left
    · simp only [if_neg hfits, Except.ok.injEq]
      constructor
      · rintro ⟨⟩
      · rintro ⟨rfl, h⟩
        exact absurd h hfits

namespace Memory

/-! ### Banks -/

/-- The bytes determine a memory. -/
theorem ext_get {memory other : Memory}
    (h : ∀ segment : Segment, ∀ offset < Bank.size,
      (memory.bank segment).get offset = (other.bank segment).get offset) : memory = other := by
  obtain ⟨program, data, stack⟩ := memory
  obtain ⟨program', data', stack'⟩ := other
  cases (Bank.ext_get (h .program) : program = program')
  cases (Bank.ext_get (h .data) : data = data')
  cases (Bank.ext_get (h .stack) : stack = stack')
  rfl

/-- A replaced bank is found in its place. -/
theorem bank_setBank_self (memory : Memory) (segment : Segment) (bank : Bank) :
    (memory.setBank segment bank).bank segment = bank := by
  cases segment <;> rfl

/-- The other banks stay as they are. -/
theorem bank_setBank_of_ne (memory : Memory) {segment other : Segment} (bank : Bank)
    (h : segment ≠ other) : (memory.setBank segment bank).bank other = memory.bank other := by
  cases segment <;> cases other <;> first | rfl | exact absurd rfl h

/-- A bank replaced by itself changes nothing. -/
theorem setBank_bank (memory : Memory) (segment : Segment) :
    memory.setBank segment (memory.bank segment) = memory := by
  cases segment <;> rfl

/-- A store writes the bytes of its value into the bank of its place. -/
theorem bank_set_self (memory : Memory) (place : Place) (size : AccessSize) (value : Word) :
    (memory.set place size value).bank place.segment
      = BigEndian.write (memory.bank place.segment) place.offset size.bytes value.toNat :=
  bank_setBank_self _ _ _

/-- A write stays in the segment in which it starts. -/
theorem bank_set_of_ne (memory : Memory) {place : Place} {segment : Segment} (size : AccessSize)
    (value : Word) (h : place.segment ≠ segment) :
    (memory.set place size value).bank segment = memory.bank segment :=
  bank_setBank_of_ne _ _ h

/-! ### Accesses by address -/

/-- A read succeeds with the value at its place. -/
theorem read_eq_ok_iff {memory : Memory} {address : Word} {size : AccessSize} {word : Word} :
    memory.read address size = .ok word ↔
      ∃ place, Place.ofAccess address size = .ok place ∧ memory.get place size = word := by
  unfold Memory.read
  cases Place.ofAccess address size with
  | error fault => simp
  | ok place => simp

/-- A write succeeds with a store at its place. -/
theorem write_eq_ok_iff {memory written : Memory} {address : Word} {size : AccessSize}
    {word : Word} :
    memory.write address size word = .ok written ↔
      ∃ place, Place.ofAccess address size = .ok place
        ∧ memory.set place size word = written := by
  unfold Memory.write
  cases Place.ofAccess address size with
  | error fault => simp
  | ok place => simp

/-- The number in the bytes of an access fits a word. -/
theorem toNat_get (memory : Memory) (place : Place) (size : AccessSize) :
    (memory.get place size).toNat
      = BigEndian.read (memory.bank place.segment) place.offset size.bytes := by
  rw [Memory.get, BitVec.toNat_ofNat]
  exact Nat.mod_eq_of_lt (BigEndian.read_lt_word _ _ size)

/-- What was written is found in its place, as far as it fits the access. -/
theorem get_set_self (memory : Memory) {place : Place} {size : AccessSize} (word : Word)
    (hfits : place.offset + size.bytes ≤ Segment.size) :
    (memory.set place size word).get place size
      = BitVec.ofNat 32 (word.toNat % 256 ^ size.bytes) := by
  rw [Memory.get, bank_set_self, BigEndian.read_write_self _ hfits]

/-- And a word fits. -/
theorem get_set_word_self (memory : Memory) {place : Place} (word : Word)
    (hfits : place.offset + 4 ≤ Segment.size) :
    (memory.set place .word word).get place .word = word := by
  rw [get_set_self memory word hfits]
  show BitVec.ofNat 32 (word.toNat % 2 ^ 32) = word
  rw [Nat.mod_eq_of_lt word.isLt, BitVec.ofNat_toNat, BitVec.setWidth_eq]

/-- What was written is read back, as far as it fits the access. -/
theorem read_of_write {memory written : Memory} {address word : Word} {size : AccessSize}
    (h : memory.write address size word = .ok written) :
    written.read address size = .ok (BitVec.ofNat 32 (word.toNat % 256 ^ size.bytes)) := by
  obtain ⟨place, hplace, rfl⟩ := write_eq_ok_iff.mp h
  exact read_eq_ok_iff.mpr
    ⟨place, hplace, get_set_self memory word (Place.ofAccess_eq_ok_iff.mp hplace).2⟩

/-- A word that was written is read back. -/
theorem read_word_of_write {memory written : Memory} {address word : Word}
    (h : memory.write address .word word = .ok written) :
    written.read address .word = .ok word := by
  obtain ⟨place, hplace, rfl⟩ := write_eq_ok_iff.mp h
  exact read_eq_ok_iff.mpr
    ⟨place, hplace, get_set_word_self memory word (Place.ofAccess_eq_ok_iff.mp hplace).2⟩

/-- Writing back what was read changes nothing. -/
theorem write_of_read {memory : Memory} {address word : Word} {size : AccessSize}
    (h : memory.read address size = .ok word) :
    memory.write address size word = .ok memory := by
  obtain ⟨place, hplace, rfl⟩ := read_eq_ok_iff.mp h
  have hfits : place.offset + size.bytes ≤ ByteStore.size (memory.bank place.segment) :=
    (Place.ofAccess_eq_ok_iff.mp hplace).2
  refine write_eq_ok_iff.mpr ⟨place, hplace, ?_⟩
  rw [Memory.set, toNat_get, BigEndian.write_read_self hfits, setBank_bank]

/-- An address that can be read can be written. -/
theorem exists_write_of_read {memory : Memory} {address : Word} {size : AccessSize} {word : Word}
    (h : memory.read address size = .ok word) (value : Word) :
    ∃ written, memory.write address size value = .ok written := by
  obtain ⟨place, hplace, -⟩ := read_eq_ok_iff.mp h
  exact ⟨_, write_eq_ok_iff.mpr ⟨place, hplace, rfl⟩⟩

/-! ### Memories that differ in one word -/

/-- The memories hold the same bytes outside the word at an address. -/
def AgreeOutside (address : Word) (memory other : Memory) : Prop :=
  ∀ a : Word, 4 ≤ (a - address).toNat → memory.read a .byte = other.read a .byte

/-- A memory agrees with itself. -/
theorem AgreeOutside.refl (address : Word) (memory : Memory) :
    AgreeOutside address memory memory :=
  fun _ _ => rfl

/-- Whether two memories hold the same byte at an address is seen in the banks. -/
private theorem read_byte_eq_iff {memory other : Memory} {a : Word} :
    memory.read a .byte = other.read a .byte ↔
      ∀ place, Place.ofAddress a = .ok place →
        ByteStore.get (memory.bank place.segment) place.offset
          = ByteStore.get (other.bank place.segment) place.offset := by
  unfold Memory.read
  cases hplace : Place.ofAccess a .byte with
  | error fault =>
    refine iff_of_true rfl fun place haddress => ?_
    -- An address without an access of one byte is no place at all.
    have hfits : place.offset + AccessSize.byte.bytes ≤ Segment.size :=
      (Place.ofAddress_eq_ok_iff.mp haddress).2
    rw [Place.ofAccess_eq_ok_iff.mpr ⟨haddress, hfits⟩] at hplace
    cases hplace
  | ok place =>
    have haddress := (Place.ofAccess_eq_ok_iff.mp hplace).1
    have hone : AccessSize.byte.bytes = 1 := rfl
    constructor
    · intro h found hfound
      rw [haddress] at hfound
      cases hfound
      have hnumber := congrArg BitVec.toNat (Except.ok.inj h)
      rw [toNat_get, toNat_get] at hnumber
      exact BigEndian.get_eq_of_read_eq hnumber place.offset (by omega) (by omega)
    · intro h
      have hbyte := h place haddress
      show Except.ok (memory.get place .byte) = .ok (other.get place .byte)
      rw [Memory.get, Memory.get, BigEndian.read_congr fun i hlow hhigh => ?_]
      obtain rfl : i = place.offset := by omega
      exact hbyte

/-- A write changes no byte outside its access. -/
theorem read_byte_set_of_outside {memory : Memory} {address a : Word} {size : AccessSize}
    {place : Place} (hplace : Place.ofAccess address size = .ok place) (value : Word)
    (houtside : a.toNat < address.toNat ∨ address.toNat + size.bytes ≤ a.toNat) :
    (memory.set place size value).read a .byte = memory.read a .byte := by
  obtain ⟨haddress, -⟩ := Place.ofAccess_eq_ok_iff.mp hplace
  refine read_byte_eq_iff.mpr fun found hfound => ?_
  obtain ⟨ha, -⟩ := Place.ofAddress_eq_ok_iff.mp hfound
  obtain ⟨hb, -⟩ := Place.ofAddress_eq_ok_iff.mp haddress
  by_cases hsegment : place.segment = found.segment
  · -- Addresses in one segment are as far apart as their offsets.
    have hoffset : found.offset < place.offset ∨ place.offset + size.bytes ≤ found.offset := by
      rw [ha, hb, hsegment] at houtside
      omega
    rw [← hsegment, bank_set_self]
    exact BigEndian.get_write_of_outside (memory.bank place.segment) value.toNat hoffset
  · rw [bank_set_of_ne _ _ _ hsegment]

/-- The bytes that a write changes are those of its access. -/
theorem exists_eq_add_of_read_byte_ne {memory : Memory} {address a : Word} {size : AccessSize}
    {place : Place} {value : Word} (hplace : Place.ofAccess address size = .ok place)
    (h : (memory.set place size value).read a .byte ≠ memory.read a .byte) :
    ∃ i < size.bytes, a = address + BitVec.ofNat 32 i := by
  have hinside : ¬(a.toNat < address.toNat ∨ address.toNat + size.bytes ≤ a.toNat) :=
    fun houtside => h (read_byte_set_of_outside hplace value houtside)
  refine ⟨a.toNat - address.toNat, by omega, BitVec.eq_of_toNat_eq ?_⟩
  have ha := a.isLt
  rw [BitVec.toNat_add, BitVec.toNat_ofNat]
  omega

/-- A write of a word changes no byte outside the word. -/
theorem agreeOutside_write {memory written : Memory} {address word : Word}
    (h : memory.write address .word word = .ok written) :
    AgreeOutside address memory written := by
  obtain ⟨place, hplace, rfl⟩ := write_eq_ok_iff.mp h
  intro a houtside
  have hbytes : AccessSize.word.bytes = 4 := rfl
  refine (read_byte_set_of_outside hplace word ?_).symm
  rw [BitVec.toNat_sub] at houtside
  omega

/-- The same write keeps memories alike. -/
theorem AgreeOutside.set {address : Word} {memory other : Memory}
    (h : AgreeOutside address memory other) (place : Place) (size : AccessSize) (value : Word) :
    AgreeOutside address (memory.set place size value) (other.set place size value) := by
  intro a houtside
  refine read_byte_eq_iff.mpr fun found hfound => ?_
  have hbyte := read_byte_eq_iff.mp (h a houtside) found hfound
  obtain ⟨-, hoffset⟩ := Place.ofAddress_eq_ok_iff.mp hfound
  by_cases hsegment : place.segment = found.segment
  · rw [← hsegment, bank_set_self, bank_set_self]
    rw [← hsegment] at hbyte
    exact BigEndian.get_write_congr hoffset hoffset hbyte place.offset size.bytes value.toNat
  · rw [bank_set_of_ne _ _ _ hsegment, bank_set_of_ne _ _ _ hsegment]
    exact hbyte

end Memory

end MiniMips
