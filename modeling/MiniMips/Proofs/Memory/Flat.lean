import MiniMips.Proofs.Memory.Access

/-!
# `MiniMips.Proofs.Memory.Flat`: memory as one map of bytes

Three banks behind a translation of addresses are meant to look like one map from addresses
to bytes. `FlatMemory` is that map. Its addresses are numbers and its three ranges are
written out, so it knows nothing of segments, offsets and banks. `Memory.Represents` is the
relation between the two, kept by every call. The ranges lie far apart, so an access that
leaves one of them ends in a gap and never in the next range (`mapped_base_add_iff`): this is
why the last byte of an access decides on its own whether the access fits. The theorems:

* `mapped_iff`: the mapped addresses are those of the segments.
* `Place.exists_ofAccess_iff` and `Place.ofAccess_eq_error_iff`: which accesses have a place,
  and what the others are refused with.
* `Memory.Represents.toNat_get` and `Memory.Represents.set`: what one access reads and writes.
* `Memory.represents_after`: the relation holds after all sequences of calls.
* `Memory.exists_read_iff` and `Memory.read_eq_error_iff`, with the same for writes: which
  accesses succeed, and what the others are refused with.
* `memory_refines_flat`: so memory answers every access as the flat memory does.
-/

set_option autoImplicit false

namespace MiniMips

/-! ### The flat memory -/

/-- Whether there is a byte at an address. Addresses are numbers here, so the bytes of an
access do not wrap. -/
def Mapped (address : Nat) : Prop :=
  0x00400000 ≤ address ∧ address < 0x00500000
    ∨ 0x10000000 ≤ address ∧ address < 0x10100000
    ∨ 0x7FF00000 ≤ address ∧ address < 0x80000000

/-- Whether there are bytes at all addresses of an access. -/
def MappedAccess (address : Word) (size : AccessSize) : Prop :=
  ∀ i < size.bytes, Mapped (address.toNat + i)

instance (address : Nat) : Decidable (Mapped address) :=
  inferInstanceAs (Decidable (_ ∨ _))

instance (address : Word) (size : AccessSize) : Decidable (MappedAccess address size) :=
  inferInstanceAs (Decidable (∀ i < size.bytes, Mapped (address.toNat + i)))

/-- The fault of an access that is not mapped, which depends on its first and last byte. -/
def RefusedWith (address : Word) (size : AccessSize) (fault : Fault) : Prop :=
  ¬Mapped address.toNat ∧ fault = .unmappedAddress address
    ∨ Mapped address.toNat ∧ ¬Mapped (address.toNat + size.bytes - 1)
      ∧ fault = .segmentOverrun address size.bytes

/-- A byte for each address. -/
abbrev FlatMemory := Nat → Byte

namespace FlatMemory

/-- The memory in which every byte is zero. -/
def zeros : FlatMemory :=
  fun _ => 0

/-- The number in the bytes of an access, the first byte being the highest. -/
def number (bytes : FlatMemory) (address : Word) (size : AccessSize) : Nat :=
  ∑ i ∈ Finset.range size.bytes,
    (bytes (address.toNat + i)).toNat * 256 ^ (size.bytes - 1 - i)

/-- Byte `k` of a word, where byte zero is the lowest. -/
def byteOf (value : Word) (k : Nat) : Byte :=
  BitVec.ofNat 8 (value.toNat / 256 ^ k)

/-- The memory after an access that writes the low bytes of a word, if all bytes of the
access are mapped. -/
def write (bytes : FlatMemory) (address : Word) (size : AccessSize) (value : Word) :
    FlatMemory :=
  if MappedAccess address size then fun n =>
    if address.toNat ≤ n ∧ n < address.toNat + size.bytes then
      byteOf value (size.bytes - 1 - (n - address.toNat))
    else bytes n
  else bytes

end FlatMemory

/-! ### Sequences of calls -/

/-- A call that may change memory. -/
inductive MemoryCall where
  | write (address : Word) (size : AccessSize) (value : Word)
  | reset
deriving DecidableEq, Repr

/-- The memory after a call. A refused write leaves it as it was. -/
def Memory.call (memory : Memory) : MemoryCall → Memory
  | .write address size value =>
    match memory.write address size value with
    | .ok written => written
    | .error _ => memory
  | .reset => .zeros

/-- The memory after calls on a memory of zeros. -/
def Memory.after (calls : List MemoryCall) : Memory :=
  calls.foldl Memory.call .zeros

/-- The same call on a flat memory. -/
def FlatMemory.call (bytes : FlatMemory) : MemoryCall → FlatMemory
  | .write address size value => bytes.write address size value
  | .reset => .zeros

/-- The same calls on a flat memory of zeros. -/
def FlatMemory.after (calls : List MemoryCall) : FlatMemory :=
  calls.foldl FlatMemory.call .zeros

/-! ### Places and mapped addresses -/

/-- A segment starts at the multiple of its size that its selector counts. -/
theorem Segment.toNat_base (segment : Segment) :
    segment.base.toNat = segment.selector * Segment.size := by
  cases segment <;> rfl

/-- From the start of a segment on, addresses are mapped up to its end. At least four
unmapped addresses lie before the next segment. -/
theorem mapped_base_add_iff (segment : Segment) {k : Nat} (hk : k < Segment.size + 4) :
    Mapped (segment.base.toNat + k) ↔ k < Segment.size := by
  have hsize : Segment.size = 0x100000 := rfl
  have hprogram : Segment.program.base.toNat = 0x00400000 := rfl
  have hdata : Segment.data.base.toNat = 0x10000000 := rfl
  have hstack : Segment.stack.base.toNat = 0x7FF00000 := rfl
  unfold Mapped
  cases segment <;> omega

/-- The mapped addresses are those of the segments. -/
theorem mapped_iff {n : Nat} :
    Mapped n ↔ ∃ segment : Segment, ∃ offset < Segment.size,
      n = segment.base.toNat + offset := by
  have hsize : Segment.size = 0x100000 := rfl
  constructor
  · rintro (⟨hlow, hhigh⟩ | ⟨hlow, hhigh⟩ | ⟨hlow, hhigh⟩)
    · exact ⟨.program, n - 0x00400000, by omega, (Nat.add_sub_of_le hlow).symm⟩
    · exact ⟨.data, n - 0x10000000, by omega, (Nat.add_sub_of_le hlow).symm⟩
    · exact ⟨.stack, n - 0x7FF00000, by omega, (Nat.add_sub_of_le hlow).symm⟩
  · rintro ⟨segment, offset, hoffset, rfl⟩
    exact (mapped_base_add_iff segment (by omega)).mpr hoffset

/-- An address with a place is mapped. -/
theorem Place.exists_ofAddress_iff {address : Word} :
    (∃ place, Place.ofAddress address = .ok place) ↔ Mapped address.toNat := by
  rw [mapped_iff]
  constructor
  · rintro ⟨place, hplace⟩
    obtain ⟨haddress, hoffset⟩ := Place.ofAddress_eq_ok_iff.mp hplace
    exact ⟨place.segment, place.offset, hoffset, by rw [haddress, Segment.toNat_base]⟩
  · rintro ⟨segment, offset, hoffset, haddress⟩
    rw [Segment.toNat_base] at haddress
    exact ⟨⟨segment, offset⟩, Place.ofAddress_eq_ok_iff.mpr ⟨haddress, hoffset⟩⟩

/-- The only fault of an address is that it is not mapped. -/
theorem Place.ofAddress_eq_error_iff {address : Word} {fault : Fault} :
    Place.ofAddress address = .error fault ↔
      ¬Mapped address.toNat ∧ fault = .unmappedAddress address := by
  rw [← Place.exists_ofAddress_iff]
  unfold Place.ofAddress
  split
  · simp
  · simp [eq_comm]

/-- The bytes of an access that starts at a place are mapped as long as they stay in the
segment. -/
theorem mapped_add_iff {address : Word} {place : Place}
    (h : Place.ofAddress address = .ok place) {i : Nat} (hi : i < 4) :
    Mapped (address.toNat + i) ↔ place.offset + i < Segment.size := by
  obtain ⟨haddress, hoffset⟩ := Place.ofAddress_eq_ok_iff.mp h
  rw [haddress, ← Segment.toNat_base, Nat.add_assoc]
  exact mapped_base_add_iff place.segment (by omega)

/-- No access is empty. -/
theorem AccessSize.bytes_pos (size : AccessSize) : 0 < size.bytes := by
  cases size <;> decide

/-- No access is wider than a word. -/
theorem AccessSize.bytes_le (size : AccessSize) : size.bytes ≤ 4 := by
  cases size <;> decide

/-- The accesses with a place are the mapped ones. -/
theorem Place.exists_ofAccess_iff {address : Word} {size : AccessSize} :
    (∃ place, Place.ofAccess address size = .ok place) ↔ MappedAccess address size := by
  have hpos := size.bytes_pos
  have hle := size.bytes_le
  constructor
  · rintro ⟨place, hplace⟩ i hi
    obtain ⟨haddress, hfits⟩ := Place.ofAccess_eq_ok_iff.mp hplace
    exact (mapped_add_iff haddress (by omega)).mpr (by omega)
  · intro h
    obtain ⟨place, haddress⟩ := Place.exists_ofAddress_iff.mpr (h 0 hpos)
    have hlast := (mapped_add_iff haddress (by omega)).mp (h (size.bytes - 1) (by omega))
    exact ⟨place, Place.ofAccess_eq_ok_iff.mpr ⟨haddress, by omega⟩⟩

/-- The fault of an access without a place. -/
theorem Place.ofAccess_eq_error_iff {address : Word} {size : AccessSize} {fault : Fault} :
    Place.ofAccess address size = .error fault ↔ RefusedWith address size fault := by
  have hpos := size.bytes_pos
  have hle := size.bytes_le
  unfold Place.ofAccess RefusedWith
  cases haddress : Place.ofAddress address with
  | error found =>
    obtain ⟨hunmapped, rfl⟩ := Place.ofAddress_eq_error_iff.mp haddress
    simp [hunmapped, eq_comm]
  | ok place =>
    have hmapped := Place.exists_ofAddress_iff.mp ⟨place, haddress⟩
    have hlast := mapped_add_iff haddress (i := size.bytes - 1) (by omega)
    rw [← Nat.add_sub_assoc hpos] at hlast
    -- An access fits if its last byte is mapped.
    by_cases hfits : place.offset + size.bytes ≤ Segment.size
    · have hinside : place.offset + (size.bytes - 1) < Segment.size := by omega
      simp [hfits, hmapped, hlast.mpr hinside]
    · have hoverrun : ¬place.offset + (size.bytes - 1) < Segment.size := by omega
      simp [hfits, hmapped, mt hlast.mp hoverrun, eq_comm]

/-- Segments differ in their selectors. -/
theorem Segment.selector_injective {segment other : Segment}
    (h : segment.selector = other.selector) : segment = other := by
  have hfound := Segment.ofSelector?_eq_some_iff.mpr h
  rw [Segment.ofSelector?_eq_some_iff.mpr rfl] at hfound
  exact (Option.some.inj hfound).symm

/-! ### The relation between the two -/

namespace Memory

/-- Whether the banks hold the bytes of a flat memory. -/
def Represents (memory : Memory) (bytes : FlatMemory) : Prop :=
  ∀ segment : Segment, ∀ offset < Segment.size,
    ByteStore.get (memory.bank segment) offset = bytes (segment.base.toNat + offset)

/-- The memory of zeros is the map of zeros. -/
theorem represents_zeros : Memory.zeros.Represents .zeros := by
  intro segment offset _
  cases segment <;> exact Bank.get_zeros offset

variable {memory : Memory} {bytes : FlatMemory} {address : Word} {size : AccessSize}
  {place : Place}

/-- An access at a place reads the number at its addresses. -/
theorem Represents.toNat_get (h : memory.Represents bytes)
    (hplace : Place.ofAccess address size = .ok place) :
    (memory.get place size).toNat = bytes.number address size := by
  obtain ⟨hstart, hfits⟩ := Place.ofAccess_eq_ok_iff.mp hplace
  obtain ⟨haddress, -⟩ := Place.ofAddress_eq_ok_iff.mp hstart
  rw [Memory.toNat_get, BigEndian.read_eq_sum, FlatMemory.number]
  refine Finset.sum_congr rfl fun i hi => ?_
  have hi : i < size.bytes := Finset.mem_range.mp hi
  rw [h place.segment (place.offset + i) (by omega), haddress, Segment.toNat_base, Nat.add_assoc]

/-- An access at a place writes the bytes at its addresses and no others. -/
theorem Represents.set (h : memory.Represents bytes)
    (hplace : Place.ofAccess address size = .ok place) (value : Word) :
    (memory.set place size value).Represents (bytes.write address size value) := by
  obtain ⟨hstart, hfits⟩ := Place.ofAccess_eq_ok_iff.mp hplace
  obtain ⟨haddress, -⟩ := Place.ofAddress_eq_ok_iff.mp hstart
  have hsize : Segment.size = 0x100000 := rfl
  intro segment offset hoffset
  rw [FlatMemory.write, if_pos (Place.exists_ofAccess_iff.mp ⟨place, hplace⟩), haddress,
    Segment.toNat_base]
  by_cases hsegment : place.segment = segment
  · subst hsegment
    rw [bank_set_self]
    -- In one segment, addresses compare as offsets do.
    by_cases hinside : place.offset ≤ offset ∧ offset < place.offset + size.bytes
    · rw [if_pos (by omega), BigEndian.get_write_of_inside _ hfits hinside.1 hinside.2,
        FlatMemory.byteOf]
      congr 3
      omega
    · rw [if_neg (by omega), BigEndian.get_write_of_outside _ _ (by omega),
        h place.segment offset hoffset, Segment.toNat_base]
  · have hselector : place.segment.selector ≠ segment.selector :=
      fun heq => hsegment (Segment.selector_injective heq)
    -- An access ends in the segment in which it starts.
    have houtside : ¬(place.segment.selector * Segment.size + place.offset
          ≤ segment.selector * Segment.size + offset
        ∧ segment.selector * Segment.size + offset
          < place.segment.selector * Segment.size + place.offset + size.bytes) := by
      rw [hsize] at hfits hoffset ⊢
      omega
    rw [if_neg houtside, bank_set_of_ne _ _ _ hsegment, h segment offset hoffset,
      Segment.toNat_base]

/-- Every call keeps the relation. -/
theorem Represents.call (h : memory.Represents bytes) (call : MemoryCall) :
    (memory.call call).Represents (bytes.call call) := by
  cases call with
  | reset => exact represents_zeros
  | write address size value =>
    show (match memory.write address size value with
      | .ok written => written
      | .error _ => memory).Represents (bytes.write address size value)
    unfold Memory.write
    cases hplace : Place.ofAccess address size with
    | ok place => exact h.set hplace value
    | error fault =>
      -- A refused write is not mapped, so it changes neither memory.
      have hunmapped : ¬MappedAccess address size := by
        rw [← Place.exists_ofAccess_iff, hplace]
        exact nofun
      rw [FlatMemory.write, if_neg hunmapped]
      exact h

/-- By induction, memory follows the map through any sequence of calls. -/
theorem Represents.foldl_call (h : memory.Represents bytes) (calls : List MemoryCall) :
    (calls.foldl Memory.call memory).Represents (calls.foldl FlatMemory.call bytes) := by
  induction calls generalizing memory bytes with
  | nil => exact h
  | cons call calls ih => exact ih (h.call call)

/-- The relation holds after all sequences of calls. -/
theorem represents_after (calls : List MemoryCall) :
    (Memory.after calls).Represents (FlatMemory.after calls) :=
  represents_zeros.foldl_call calls

/-! ### Every access is that of the flat memory -/

/-- Whether memory answers every access as a flat memory does. -/
structure Refines (memory : Memory) (bytes : FlatMemory) : Prop where
  /-- A read succeeds where all of its bytes are mapped. -/
  exists_read_iff : ∀ address size,
    (∃ word, memory.read address size = .ok word) ↔ MappedAccess address size
  /-- It gives the number in these bytes. -/
  read_ok : ∀ address size word,
    memory.read address size = .ok word → word.toNat = bytes.number address size
  /-- Any other read has one of the two faults of memory. -/
  read_error_iff : ∀ address size fault,
    memory.read address size = .error fault ↔ RefusedWith address size fault
  /-- A write succeeds where all of its bytes are mapped. -/
  exists_write_iff : ∀ address size value,
    (∃ written, memory.write address size value = .ok written) ↔ MappedAccess address size
  /-- Any other write has one of the two faults of memory. -/
  write_error_iff : ∀ address size value fault,
    memory.write address size value = .error fault ↔ RefusedWith address size fault
  /-- The banks are as long as their segments. -/
  size_bank : ∀ segment, ByteStore.size (memory.bank segment) = 0x100000
  /-- And they hold the bytes at the addresses of their segments. -/
  get_bank : ∀ segment : Segment, ∀ offset < 0x100000,
    ByteStore.get (memory.bank segment) offset = bytes (segment.base.toNat + offset)

/-- A read has a value exactly where all its bytes are in one segment. -/
theorem exists_read_iff :
    (∃ word, memory.read address size = .ok word) ↔ MappedAccess address size := by
  rw [← Place.exists_ofAccess_iff, Memory.read]
  cases Place.ofAccess address size <;> simp

/-- A write has a result exactly where all its bytes are in one segment. -/
theorem exists_write_iff {value : Word} :
    (∃ written, memory.write address size value = .ok written) ↔ MappedAccess address size := by
  rw [← Place.exists_ofAccess_iff, Memory.write]
  cases Place.ofAccess address size <;> simp

/-- A read is refused with the fault of its access. -/
theorem read_eq_error_iff {fault : Fault} :
    memory.read address size = .error fault ↔ RefusedWith address size fault := by
  rw [← Place.ofAccess_eq_error_iff, Memory.read]
  cases Place.ofAccess address size <;> simp

/-- A write is refused with the fault of its access. -/
theorem write_eq_error_iff {value : Word} {fault : Fault} :
    memory.write address size value = .error fault ↔ RefusedWith address size fault := by
  rw [← Place.ofAccess_eq_error_iff, Memory.write]
  cases Place.ofAccess address size <;> simp

/-- A read is refused with a fault of memory. -/
theorem kind_of_read_eq_error {fault : Fault} (h : memory.read address size = .error fault) :
    fault.kind = .memory := by
  rcases read_eq_error_iff.mp h with ⟨-, rfl⟩ | ⟨-, -, rfl⟩ <;> rfl

/-- A write is refused with a fault of memory. -/
theorem kind_of_write_eq_error {value : Word} {fault : Fault}
    (h : memory.write address size value = .error fault) : fault.kind = .memory := by
  rcases write_eq_error_iff.mp h with ⟨-, rfl⟩ | ⟨-, -, rfl⟩ <;> rfl

/-- All that memory answers can be told from the map. -/
theorem Represents.refines (h : memory.Represents bytes) : memory.Refines bytes where
  exists_read_iff _ _ := Memory.exists_read_iff
  read_ok address size word hread := by
    obtain ⟨place, hplace, rfl⟩ := read_eq_ok_iff.mp hread
    exact h.toNat_get hplace
  read_error_iff _ _ _ := read_eq_error_iff
  exists_write_iff _ _ _ := Memory.exists_write_iff
  write_error_iff _ _ _ _ := write_eq_error_iff
  size_bank _ := rfl
  get_bank := h

end Memory

/-- Memory is one big-endian map of bytes: after every sequence of writes and resets, every
access succeeds, reads and is refused as on the flat memory after the same calls. -/
theorem memory_refines_flat (calls : List MemoryCall) :
    (Memory.after calls).Refines (FlatMemory.after calls) :=
  (Memory.represents_after calls).refines

end MiniMips
