import MiniMips.Proofs.Memory.BigEndian

/-!
# `MiniMips.Proofs.Memory.Slice`: sized accesses to a sequence of bytes

An access of one, two or four bytes is a lens on the bytes: what was written is read back,
writing what was read changes nothing, and the bytes next to the access stay as they are.
`Lens` lists these laws for one offset and one size, and `lens` proves them for all stores.

`get?` and `set?` count with natural numbers. A machine adds the offset to the size in 64 bits
and refuses a sum that does not fit. It reads by shifting one byte after another into a word.
To write, it spells out the four bytes of the word and copies the last of them into place.
`getShifted?` and `setCopied` do it this way, and on a sequence whose length fits 64 bits both
ways agree. The theorems:

* `get?_eq_some_iff`, `set?_eq_some_iff`: which accesses succeed, and with what.
* `read_add`: the number in two neighbouring groups of bytes.
* `lens`: the laws of an access.
* `foldBytes_take_drop`, `copyAt_numberBytes`: shifting bytes in is reading, and copying them
  is writing.
* `getShifted?_eq`, `setCopied_eq`: so both ways agree.
* `sizedAccess_lens`: all of it, for arrays.
-/

set_option autoImplicit false

namespace MiniMips.BigEndian

/-! ### The laws of an access -/

section Lens

variable {α : Type} [ByteStore α]

/-- An access in the bounds of the bytes reads the number that they make. -/
theorem get?_eq_some_iff {bytes : α} {offset : Nat} {size : AccessSize} {word : Word} :
    get? bytes offset size = some word ↔
      offset + size.bytes ≤ ByteStore.size bytes ∧ word.toNat = read bytes offset size.bytes := by
  have hlt := read_lt_word bytes offset size
  unfold get?
  split
  · rename_i hfits
    rw [Option.some.injEq, ← BitVec.toNat_inj, BitVec.toNat_ofNat, Nat.mod_eq_of_lt hlt]
    exact ⟨fun h => ⟨hfits, h.symm⟩, fun h => h.2.symm⟩
  · rename_i hfits
    simp [hfits]

/-- An access in the bounds of the bytes writes the bytes of its value. -/
theorem set?_eq_some_iff {bytes written : α} {offset : Nat} {size : AccessSize} {value : Word} :
    set? bytes offset size value = some written ↔
      offset + size.bytes ≤ ByteStore.size bytes
        ∧ write bytes offset size.bytes value.toNat = written := by
  unfold set?
  split
  · rename_i hfits
    simp [hfits]
  · rename_i hfits
    simp [hfits]

/-- The number in two groups of bytes, one behind the other. -/
theorem read_add (bytes : α) (offset m n : Nat) :
    read bytes offset (m + n) = read bytes offset m * 256 ^ n + read bytes (offset + m) n := by
  induction n with
  | zero => simp [read]
  | succ n ih =>
    rw [← Nat.add_assoc, read, read, ih, Nat.pow_succ, Nat.add_mul, Nat.mul_assoc, Nat.add_assoc,
      Nat.add_assoc offset m n]

/-- The laws of the accesses of one size at one offset. -/
structure Lens (bytes : α) (offset : Nat) (size : AccessSize) : Prop where
  /-- Reads succeed where all bytes of the access exist. -/
  isSome_get : (get? bytes offset size).isSome ↔ offset + size.bytes ≤ ByteStore.size bytes
  /-- Writes succeed in the same places. -/
  isSome_set (value : Word) :
    (set? bytes offset size value).isSome ↔ offset + size.bytes ≤ ByteStore.size bytes
  /-- A write neither adds nor removes bytes. -/
  size_set (value : Word) (written : α) (h : set? bytes offset size value = some written) :
    ByteStore.size written = ByteStore.size bytes
  /-- A write changes no byte outside the access. -/
  get_set_outside (value : Word) (written : α) (h : set? bytes offset size value = some written)
    (j : Nat) (hj : j < offset ∨ offset + size.bytes ≤ j) :
    ByteStore.get written j = ByteStore.get bytes j
  /-- What was written is read back, as far as it fits. -/
  get_set (value : Word) (written : α) (h : set? bytes offset size value = some written) :
    ∃ word, get? written offset size = some word
      ∧ word.toNat = value.toNat % 256 ^ size.bytes
  /-- Writing what was read changes nothing. -/
  set_get (word : Word) (h : get? bytes offset size = some word) :
    set? bytes offset size word = some bytes
  /-- A read is the reads of its two halves. -/
  halves (half : AccessSize) (hhalf : size.bytes = 2 * half.bytes) (word : Word)
    (h : get? bytes offset size = some word) :
    ∃ high low, get? bytes offset half = some high
      ∧ get? bytes (offset + half.bytes) half = some low
      ∧ word.toNat = high.toNat * 256 ^ half.bytes + low.toNat

/-- The bounds are all that an access is refused for. -/
theorem exists_get?_iff {bytes : α} {offset : Nat} {size : AccessSize} :
    (∃ word, get? bytes offset size = some word)
      ↔ offset + size.bytes ≤ ByteStore.size bytes := by
  constructor
  · rintro ⟨word, h⟩
    exact (get?_eq_some_iff.mp h).1
  · intro hfits
    refine ⟨BitVec.ofNat 32 (read bytes offset size.bytes), get?_eq_some_iff.mpr ⟨hfits, ?_⟩⟩
    rw [BitVec.toNat_ofNat, Nat.mod_eq_of_lt (read_lt_word bytes offset size)]

/-- Reading and writing the same slice are a lens on the bytes. -/
theorem lens (bytes : α) (offset : Nat) (size : AccessSize) : Lens bytes offset size where
  isSome_get := by
    rw [Option.isSome_iff_exists]
    exact exists_get?_iff
  isSome_set value := by
    simp [Option.isSome_iff_exists, set?_eq_some_iff]
  size_set value written h := by
    obtain ⟨-, rfl⟩ := set?_eq_some_iff.mp h
    exact size_write bytes offset size.bytes value.toNat
  get_set_outside value written h j hj := by
    obtain ⟨-, rfl⟩ := set?_eq_some_iff.mp h
    exact get_write_of_outside bytes value.toNat hj
  get_set value written h := by
    obtain ⟨hfits, rfl⟩ := set?_eq_some_iff.mp h
    have hfits' := hfits
    rw [← size_write bytes offset size.bytes value.toNat] at hfits'
    obtain ⟨word, hword⟩ := exists_get?_iff.mpr hfits'
    exact ⟨word, hword, (get?_eq_some_iff.mp hword).2.trans (read_write_self value.toNat hfits)⟩
  set_get word h := by
    obtain ⟨hfits, hword⟩ := get?_eq_some_iff.mp h
    refine set?_eq_some_iff.mpr ⟨hfits, ?_⟩
    rw [hword, write_read_self hfits]
  -- Both halves lie inside the slice that was read, so they can be read too.
  halves half hhalf word h := by
    obtain ⟨hfits, hword⟩ := get?_eq_some_iff.mp h
    obtain ⟨high, hhigh⟩ : ∃ high, get? bytes offset half = some high :=
      exists_get?_iff.mpr (by omega)
    obtain ⟨low, hlow⟩ : ∃ low, get? bytes (offset + half.bytes) half = some low :=
      exists_get?_iff.mpr (by omega)
    refine ⟨high, low, hhigh, hlow, ?_⟩
    rw [hword, hhalf, Nat.two_mul, read_add, (get?_eq_some_iff.mp hhigh).2,
      (get?_eq_some_iff.mp hlow).2]

end Lens

/-! ### Bytes shifted and copied -/

/-- The sum of two numbers, if it fits 64 bits. -/
def checkedAdd? (x y : BitVec 64) : Option (BitVec 64) :=
  if x.uaddOverflow y then none else some (x + y)

/-- The end of an access, if it fits 64 bits and lies in the bytes. -/
def accessEnd? (bytes : Array Byte) (offset : BitVec 64) (size : AccessSize) :
    Option (BitVec 64) :=
  (checkedAdd? offset (BitVec.ofNat 64 size.bytes)).filter fun stop => stop.toNat ≤ bytes.size

/-- The word with the given bytes, each of which moves those before it up. -/
def foldBytes (bytes : List Byte) : Word :=
  bytes.foldl (fun word byte => word <<< 8 ||| byte.setWidth 32) 0

/-- The word of an access, read one byte after another. -/
def getShifted? (bytes : Array Byte) (offset : BitVec 64) (size : AccessSize) : Option Word :=
  (accessEnd? bytes offset size).map fun stop =>
    foldBytes (bytes.toList.extract offset.toNat stop.toNat)

/-- The bytes of a word, the highest first. -/
def wordBytes (value : Word) : List Byte :=
  [value.extractLsb' 24 8, value.extractLsb' 16 8, value.extractLsb' 8 8, value.extractLsb' 0 8]

/-- The array with bytes copied over those from an offset on. -/
def copyAt (bytes : Array Byte) (offset : Nat) : List Byte → Array Byte
  | [] => bytes
  | byte :: rest => copyAt (ByteStore.set bytes offset byte) (offset + 1) rest

/-- Whether a write in place is carried out, and the bytes after it. The last bytes of the word
are copied, as many as the access has. -/
def setCopied (bytes : Array Byte) (offset : BitVec 64) (size : AccessSize) (value : Word) :
    Bool × Array Byte :=
  match accessEnd? bytes offset size with
  | none => (false, bytes)
  | some _ => (true, copyAt bytes offset.toNat ((wordBytes value).drop (4 - size.bytes)))

/-- A sum that fits 64 bits is the sum of the numbers. -/
theorem checkedAdd?_eq_some_iff {x y z : BitVec 64} :
    checkedAdd? x y = some z ↔ z.toNat = x.toNat + y.toNat := by
  have hz := z.isLt
  unfold checkedAdd? BitVec.uaddOverflow
  split
  · rename_i hoverflow
    simp at hoverflow ⊢
    omega
  · rename_i hfits
    simp at hfits
    rw [Option.some.injEq, ← BitVec.toNat_inj, BitVec.toNat_add, Nat.mod_eq_of_lt hfits]
    exact eq_comm

/-- The end of an access is computed without wrapping around, and must be in bounds. -/
theorem accessEnd?_eq_some_iff {bytes : Array Byte} {offset stop : BitVec 64}
    {size : AccessSize} :
    accessEnd? bytes offset size = some stop ↔
      stop.toNat = offset.toNat + size.bytes ∧ stop.toNat ≤ bytes.size := by
  have hwidth : (BitVec.ofNat 64 size.bytes).toNat = size.bytes := by cases size <;> rfl
  rw [accessEnd?, Option.filter_eq_some_iff, checkedAdd?_eq_some_iff, hwidth, decide_eq_true_iff]

/-- An access in bytes whose number fits 64 bits has an end that fits them as well. -/
theorem exists_accessEnd? {bytes : Array Byte} (hlength : bytes.size < 2 ^ 64)
    {offset : BitVec 64} {size : AccessSize} (h : offset.toNat + size.bytes ≤ bytes.size) :
    ∃ stop, accessEnd? bytes offset size = some stop
      ∧ stop.toNat = offset.toNat + size.bytes := by
  have hstop : (BitVec.ofNat 64 (offset.toNat + size.bytes)).toNat = offset.toNat + size.bytes := by
    rw [BitVec.toNat_ofNat, Nat.mod_eq_of_lt (by omega)]
  exact ⟨_, accessEnd?_eq_some_iff.mpr ⟨hstop, by omega⟩, hstop⟩

/-- An access that leaves the bytes has none. -/
theorem accessEnd?_of_lt {bytes : Array Byte} {offset : BitVec 64} {size : AccessSize}
    (h : bytes.size < offset.toNat + size.bytes) : accessEnd? bytes offset size = none := by
  refine Option.eq_none_iff_forall_ne_some.mpr fun stop hstop => ?_
  obtain ⟨hsum, hle⟩ := accessEnd?_eq_some_iff.mp hstop
  omega

/-- Shifting a byte into a number. -/
theorem shiftIn_eq (n : Nat) (byte : Byte) :
    BitVec.ofNat 32 n <<< 8 ||| byte.setWidth 32 = BitVec.ofNat 32 (n * 256 + byte.toNat) := by
  -- The shift has made room for the byte, so laying it over is adding it.
  have hroom : BitVec.ofNat 32 n <<< 8 &&& byte.setWidth 32 = 0#32 := by
    ext i hi
    by_cases hlow : i < 8
    · simp [hlow]
    · simp [BitVec.getLsbD_of_ge byte i (by omega)]
  rw [← BitVec.add_eq_or_of_and_eq_zero _ _ hroom]
  refine BitVec.eq_of_toNat_eq ?_
  rw [BitVec.toNat_add, BitVec.toNat_shiftLeft, BitVec.toNat_setWidth, BitVec.toNat_ofNat,
    BitVec.toNat_ofNat, Nat.shiftLeft_eq]
  omega

/-- One more byte moves the others up by eight bits. -/
theorem foldBytes_append_singleton (bytes : List Byte) (byte : Byte) :
    foldBytes (bytes ++ [byte]) = foldBytes bytes <<< 8 ||| byte.setWidth 32 := by
  rw [foldBytes, List.foldl_append]
  rfl

/-- Shifting in the bytes of an array reads their number. -/
theorem foldBytes_take_drop {bytes : Array Byte} {offset count : Nat}
    (h : offset + count ≤ bytes.size) :
    foldBytes ((bytes.toList.drop offset).take count)
      = BitVec.ofNat 32 (read bytes offset count) := by
  induction count with
  | zero => rfl
  | succ count ih =>
    have hlast : count < (bytes.toList.drop offset).length := by
      rw [List.length_drop, Array.length_toList]
      omega
    have hbyte : (bytes.toList.drop offset)[count] = ByteStore.get bytes (offset + count) := by
      show _ = bytes.getD (offset + count) 0
      simp [Array.getD, show offset + count < bytes.size by omega]
    rw [List.take_succ_eq_append_getElem hlast, foldBytes_append_singleton, ih (by omega), hbyte,
      shiftIn_eq, read]

/-- The bytes of a number, the highest first. -/
def numberBytes : (count value : Nat) → List Byte
  | 0, _ => []
  | count + 1, value => numberBytes count (value / 256) ++ [BitVec.ofNat 8 value]

/-- A number is written in as many bytes as asked for. -/
theorem length_numberBytes (count value : Nat) : (numberBytes count value).length = count := by
  induction count generalizing value with
  | zero => rfl
  | succ count ih => rw [numberBytes, List.length_append, ih, List.length_singleton]

/-- The last bytes of a word are those of its number. -/
theorem drop_wordBytes (value : Word) (size : AccessSize) :
    (wordBytes value).drop (4 - size.bytes) = numberBytes size.bytes value.toNat := by
  have hbyte : ∀ k, value.extractLsb' k 8 = BitVec.ofNat 8 (value.toNat / 2 ^ k) := by
    intro k
    rw [BitVec.extractLsb', Nat.shiftRight_eq_div_pow]
  cases size <;>
    simp [wordBytes, AccessSize.bytes, numberBytes, hbyte, Nat.div_div_eq_div_mul]

/-- Copying two pieces is copying one behind the other. -/
theorem copyAt_append (bytes : Array Byte) (offset : Nat) (xs ys : List Byte) :
    copyAt bytes offset (xs ++ ys) = copyAt (copyAt bytes offset xs) (offset + xs.length) ys := by
  induction xs generalizing bytes offset with
  | nil => rfl
  | cons x xs ih =>
    rw [List.cons_append, copyAt, copyAt, ih, List.length_cons, Nat.add_assoc,
      Nat.add_comm 1 xs.length]

/-- Copying the bytes of a number writes it. -/
theorem copyAt_numberBytes (bytes : Array Byte) (offset count value : Nat) :
    copyAt bytes offset (numberBytes count value) = write bytes offset count value := by
  induction count generalizing value with
  | zero => rfl
  | succ count ih =>
    rw [numberBytes, copyAt_append, ih, length_numberBytes, write]
    rfl

/-! ### Both ways agree -/

/-- Shifting in the bytes of an access reads its word. -/
theorem getShifted?_eq {bytes : Array Byte} (hlength : bytes.size < 2 ^ 64) (offset : BitVec 64)
    (size : AccessSize) : getShifted? bytes offset size = get? bytes offset.toNat size := by
  by_cases hfits : offset.toNat + size.bytes ≤ bytes.size
  · obtain ⟨stop, hend, hstop⟩ := exists_accessEnd? hlength hfits
    have hpart : bytes.toList.extract offset.toNat stop.toNat
        = (bytes.toList.drop offset.toNat).take size.bytes := by
      rw [List.extract_eq_take_drop, hstop, Nat.add_sub_cancel_left]
    rw [getShifted?, hend, Option.map_some, hpart, foldBytes_take_drop hfits, get?]
    exact (if_pos hfits).symm
  · rw [getShifted?, accessEnd?_of_lt (by omega), get?]
    exact (if_neg hfits).symm

/-- Copying the bytes of a word writes it, and a refused write leaves all bytes alone. -/
theorem setCopied_eq {bytes : Array Byte} (hlength : bytes.size < 2 ^ 64) (offset : BitVec 64)
    (size : AccessSize) (value : Word) :
    setCopied bytes offset size value = match set? bytes offset.toNat size value with
      | some written => (true, written)
      | none => (false, bytes) := by
  by_cases hfits : offset.toNat + size.bytes ≤ bytes.size
  · obtain ⟨stop, hend, -⟩ := exists_accessEnd? hlength hfits
    have hset : set? bytes offset.toNat size value
        = some (write bytes offset.toNat size.bytes value.toNat) := if_pos hfits
    rw [setCopied, hend, hset, drop_wordBytes, copyAt_numberBytes]
  · have hset : set? bytes offset.toNat size value = none := if_neg hfits
    rw [setCopied, accessEnd?_of_lt (by omega), hset]

/-- Sized accesses to an array of bytes are lenses at every offset. On an array whose length
fits 64 bits, they are what comes from adding in 64 bits, shifting bytes in and copying as many
bytes out as the access has. There an access is refused when its end does not fit 64 bits, and a
refused write leaves the array as it was. -/
theorem sizedAccess_lens (bytes : Array Byte) (size : AccessSize) :
    (∀ offset, Lens bytes offset size)
      ∧ (∀ value, ((wordBytes value).drop (4 - size.bytes)).length = size.bytes)
      ∧ (bytes.size < 2 ^ 64 → ∀ offset : BitVec 64,
        getShifted? bytes offset size = get? bytes offset.toNat size
          ∧ (∀ value, setCopied bytes offset size value
            = match set? bytes offset.toNat size value with
              | some written => (true, written)
              | none => (false, bytes))
          ∧ (2 ^ 64 ≤ offset.toNat + size.bytes →
            getShifted? bytes offset size = none
              ∧ ∀ value, setCopied bytes offset size value = (false, bytes))) := by
  refine ⟨fun offset => lens bytes offset size, ?_, ?_⟩
  · intro value
    rw [drop_wordBytes, length_numberBytes]
  intro hlength offset
  refine ⟨getShifted?_eq hlength offset size, setCopied_eq hlength offset size, ?_⟩
  intro hoverflow
  have hend := accessEnd?_of_lt (lt_of_lt_of_le hlength hoverflow)
  refine ⟨?_, ?_⟩
  · rw [getShifted?, hend, Option.map_none]
  · intro value
    rw [setCopied, hend]

/-- Two bytes in the middle of four: what is written and left alone there, and what is read as
two halves. An access at the last offset of all has no end. -/
theorem sizedAccess_lens_halfWord :
    let bytes : Array Byte := #[0xAA, 0xAB, 0xAC, 0xAD]
    let written : Array Byte := #[0xAA, 0xBE, 0xEF, 0xAD]
    set? bytes 1 .halfWord 0xDEADBEEF = some written
      ∧ ByteStore.size written = ByteStore.size bytes
      ∧ ByteStore.get written 0 = ByteStore.get bytes 0
      ∧ ByteStore.get written 3 = ByteStore.get bytes 3
      ∧ (∃ word, get? written 1 .halfWord = some word
        ∧ word.toNat = (0xDEADBEEF : Word).toNat % 256 ^ 2)
      ∧ get? bytes 1 .halfWord = some 0xABAC
      ∧ set? bytes 1 .halfWord 0xABAC = some bytes
      ∧ AccessSize.halfWord.bytes = 2 * AccessSize.byte.bytes
      ∧ (∃ high low, get? bytes 1 .byte = some high ∧ get? bytes (1 + 1) .byte = some low
        ∧ (0xABAC : Word).toNat = high.toNat * 256 ^ 1 + low.toNat)
      ∧ bytes.size < 2 ^ 64
      ∧ 2 ^ 64 ≤ (BitVec.allOnes 64).toNat + AccessSize.halfWord.bytes
      ∧ setCopied bytes (BitVec.allOnes 64) .halfWord 0xDEADBEEF = (false, bytes) := by
  intro bytes written
  have hset : set? bytes 1 .halfWord 0xDEADBEEF = some written := by decide
  have hget : get? bytes 1 .halfWord = some 0xABAC := by decide
  have hlength : bytes.size < 2 ^ 64 := by decide
  have hoverflow : 2 ^ 64 ≤ (BitVec.allOnes 64).toNat + AccessSize.halfWord.bytes := by decide
  obtain ⟨hlens, -, hwords⟩ := sizedAccess_lens bytes .halfWord
  obtain ⟨-, -, hrefused⟩ := hwords hlength (BitVec.allOnes 64)
  have hlens := hlens 1
  exact ⟨hset, hlens.size_set _ _ hset, hlens.get_set_outside _ _ hset 0 (.inl (by decide)),
    hlens.get_set_outside _ _ hset 3 (.inr (by decide)), hlens.get_set _ _ hset, hget,
    hlens.set_get _ hget, rfl, hlens.halves .byte rfl _ hget, hlength, hoverflow,
    (hrefused hoverflow).2 _⟩

end MiniMips.BigEndian
