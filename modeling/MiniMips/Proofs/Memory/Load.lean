import MiniMips.Machine.Basic
import MiniMips.Proofs.Memory.Flat

/-!
# `MiniMips.Proofs.Memory.Load`: consecutive words in a segment

`Memory.loadWords` writes one word after the other and stops at the first that is refused. As
long as all words fit their segment none is refused. Then every word is found in its place,
and an access that touches none of them reads what it has read before
(`Memory.Loaded`).

The loading goes by addresses, which leave the segment behind its last word. So the induction
goes by a place whose offset may be the size of the segment, and a place becomes an address
only where a word is written. The theorems:

* `Memory.get_set_of_outside`: an access that a write does not touch.
* `Memory.Loaded.cons`, `Memory.exists_loadWords`: the loading of words that fit.
* `Memory.read_wordAddress`, `Memory.Loaded.read_wordAddress`: the words of a segment by
  their addresses.
* `Machine.exists_loadProgram`: a program in the program segment.
-/

set_option autoImplicit false

namespace MiniMips

/-! ### Places in a segment -/

/-- The place `count` bytes further on. -/
def Place.add (place : Place) (count : Nat) : Place :=
  { place with offset := place.offset + count }

/-- Whether an access at a place touches none of the `count` bytes from another place on. -/
def Place.Outside (start : Place) (count : Nat) (place : Place) (size : AccessSize) : Prop :=
  start.segment ≠ place.segment ∨ place.offset + size.bytes ≤ start.offset
    ∨ start.offset + count ≤ place.offset

/-- Distances in a segment add up. -/
theorem Place.add_add (place : Place) (first second : Nat) :
    place.add (first + second) = (place.add first).add second := by
  rw [add, add, add, Nat.add_assoc]

/-- An access outside of some bytes is outside of the first of them. -/
theorem Place.Outside.before {start place : Place} {size : AccessSize} {first second : Nat}
    (h : start.Outside (first + second) place size) : start.Outside first place size := by
  rcases h with hsegment | hbefore | hbehind
  · exact .inl hsegment
  · exact .inr (.inl hbefore)
  · exact .inr (.inr (by omega))

/-- And of those behind the first. -/
theorem Place.Outside.behind {start place : Place} {size : AccessSize} {first second : Nat}
    (h : start.Outside (first + second) place size) :
    (start.add first).Outside second place size := by
  rcases h with hsegment | hbefore | hbehind
  · exact .inl hsegment
  · exact .inr (.inl (Nat.le_add_right_of_le hbefore))
  · refine .inr (.inr ?_)
    show start.offset + first + second ≤ place.offset
    omega

/-- The address of a word, by its number from a start on. It wraps at the end of the address
space. -/
def wordAddress (start : Word) (i : Nat) : Word :=
  start + BitVec.ofNat 32 (4 * i)

/-- The first of some words is at their start. -/
@[simp] theorem wordAddress_zero (start : Word) : wordAddress start 0 = start :=
  BitVec.add_zero start

/-- Every other word is four bytes behind the one before. -/
theorem wordAddress_succ (start : Word) (i : Nat) :
    wordAddress start (i + 1) = wordAddress start i + 4 := by
  unfold wordAddress
  rw [Nat.mul_succ, BitVec.ofNat_add, BitVec.add_assoc]
  rfl

/-- The words behind the first are those from the next address on. -/
theorem wordAddress_succ' (start : Word) (i : Nat) :
    wordAddress start (i + 1) = wordAddress (start + 4) i := by
  unfold wordAddress
  rw [Nat.mul_succ, Nat.add_comm, BitVec.ofNat_add, BitVec.add_assoc]
  rfl

/-- Up to the last address there is no wrapping. -/
theorem toNat_wordAddress {start : Word} {i : Nat} (h : start.toNat + 4 * i < 2 ^ 32) :
    (wordAddress start i).toNat = start.toNat + 4 * i := by
  rw [wordAddress, BitVec.toNat_add, BitVec.toNat_ofNat]
  omega

/-- The address of a word in a segment, by its number. -/
def Segment.wordAddress (segment : Segment) (i : Nat) : Word :=
  segment.base + BitVec.ofNat 32 (4 * i)

/-- A segment has room for 262144 words. -/
theorem Segment.four_mul_le_size {count : Nat} (h : count ≤ 262144) :
    4 * count ≤ Segment.size := by
  show 4 * count ≤ 1048576
  omega

/-- Segments end before the address space does. -/
theorem Segment.toNat_base_add_size_le (segment : Segment) :
    segment.base.toNat + Segment.size ≤ 2 ^ 31 := by
  cases segment <;> decide

/-- An address in a segment, as a number. -/
theorem Segment.toNat_wordAddress (segment : Segment) {i : Nat} (h : 4 * i ≤ Segment.size) :
    (segment.wordAddress i).toNat = segment.base.toNat + 4 * i := by
  have hbase := segment.toNat_base_add_size_le
  exact MiniMips.toNat_wordAddress (by omega)

/-- The address some words further on. -/
theorem Segment.wordAddress_add (segment : Segment) (i count : Nat) :
    segment.wordAddress (i + count)
      = segment.wordAddress i + BitVec.ofNat 32 (4 * count) := by
  unfold wordAddress
  rw [Nat.mul_add, BitVec.ofNat_add, BitVec.add_assoc]

/-- An access that ends in its segment has a place. -/
theorem Place.ofAccess_of_fits {address : Word} {place : Place} {size : AccessSize}
    (haddress : address.toNat = place.segment.base.toNat + place.offset)
    (hfits : place.offset + size.bytes ≤ Segment.size) :
    Place.ofAccess address size = .ok place := by
  have hpos := size.bytes_pos
  rw [Segment.toNat_base] at haddress
  exact Place.ofAccess_eq_ok_iff.mpr
    ⟨Place.ofAddress_eq_ok_iff.mpr ⟨haddress, by omega⟩, hfits⟩

namespace Memory

/-! ### One write -/

/-- A write is not seen by an access that touches none of its bytes. -/
theorem get_set_of_outside (memory : Memory) {start place : Place} {size other : AccessSize}
    (value : Word) (h : start.Outside size.bytes place other) :
    (memory.set start size value).get place other = memory.get place other := by
  unfold Memory.get
  by_cases hsegment : start.segment = place.segment
  · have hoffset : place.offset + other.bytes ≤ start.offset
        ∨ start.offset + size.bytes ≤ place.offset := by
      rcases h with hne | hoffset
      · exact absurd hsegment hne
      · exact hoffset
    rw [← hsegment, bank_set_self]
    congr 1
    refine BigEndian.read_congr ?_
    intro i hlow hhigh
    exact BigEndian.get_write_of_outside _ _ (by omega)
  · rw [bank_set_of_ne _ _ _ hsegment]

/-- Bytes of zero make the number zero. -/
theorem read_zeros (bank : Bank) (hzeros : ∀ i, ByteStore.get bank i = 0) (offset count : Nat) :
    BigEndian.read bank offset count = 0 := by
  induction count with
  | zero => rfl
  | succ count ih =>
    rw [BigEndian.read, ih, hzeros]
    rfl

/-- Every access to a memory of zeros reads zero. -/
theorem get_zeros (place : Place) (size : AccessSize) : Memory.zeros.get place size = 0 := by
  have hzeros : ∀ i, ByteStore.get (Memory.zeros.bank place.segment) i = 0 := by
    intro i
    cases place.segment <;> exact Bank.get_zeros i
  rw [Memory.get, read_zeros _ hzeros]
  rfl

/-! ### Words in a row -/

/-- Whether a memory holds words from a place on, and is another one elsewhere. -/
structure Loaded (memory : Memory) (start : Place) (words : List Word) (loaded : Memory) :
    Prop where
  get_word : ∀ i (hi : i < words.length), loaded.get (start.add (4 * i)) .word = words[i]
  get_outside : ∀ place size, start.Outside (4 * words.length) place size →
    loaded.get place size = memory.get place size

/-- A word and then the words behind it. -/
theorem Loaded.cons {memory loaded : Memory} {start : Place} {word : Word} {words : List Word}
    (h : (memory.set start .word word).Loaded (start.add 4) words loaded)
    (hfits : start.offset + 4 ≤ Segment.size) : memory.Loaded start (word :: words) loaded where
  get_word i hi := by
    cases i with
    | zero =>
      -- The words behind the first one leave it as it was written.
      have hfirst : (start.add 4).Outside (4 * words.length) start .word :=
        .inr (.inl (Nat.le_refl _))
      show loaded.get start .word = word
      rw [h.get_outside start .word hfirst]
      exact get_set_word_self memory word hfits
    | succ i =>
      have hshift : start.add (4 * (i + 1)) = (start.add 4).add (4 * i) := by
        rw [Nat.mul_succ, Nat.add_comm]
        exact start.add_add 4 (4 * i)
      rw [hshift]
      exact h.get_word i (Nat.lt_of_succ_lt_succ hi)
  get_outside place size houtside := by
    rw [List.length_cons, Nat.mul_succ, Nat.add_comm] at houtside
    rw [h.get_outside place size houtside.behind, get_set_of_outside memory word houtside.before]

/-- Words that fit their segment are all written. -/
theorem exists_loadWords (memory : Memory) {address : Word} (start : Place) (words : List Word)
    (haddress : address.toNat = start.segment.base.toNat + start.offset)
    (hfits : start.offset + 4 * words.length ≤ Segment.size) :
    ∃ loaded, memory.loadWords address words = (loaded, .ok ())
      ∧ memory.Loaded start words loaded := by
  -- The memory changes from word to word, and the start moves with it.
  induction words generalizing memory address start with
  | nil =>
    refine ⟨memory, rfl, ?_, ?_⟩
    · intro i hi
      cases hi
    · intro place size _
      rfl
  | cons word words ih =>
    rw [List.length_cons] at hfits
    have hword : start.offset + 4 ≤ Segment.size := by omega
    have hplace : Place.ofAccess address .word = .ok start := Place.ofAccess_of_fits haddress hword
    have hnext : (address + 4).toNat
        = (start.add 4).segment.base.toNat + (start.add 4).offset := by
      have hbase := start.segment.toNat_base_add_size_le
      show (address + 4).toNat = start.segment.base.toNat + (start.offset + 4)
      rw [BitVec.toNat_add, haddress]
      show (_ + 4) % 2 ^ 32 = _
      omega
    have hrest : (start.add 4).offset + 4 * words.length ≤ Segment.size := by
      show start.offset + 4 + 4 * words.length ≤ Segment.size
      omega
    obtain ⟨loaded, hload, hloaded⟩ := ih (memory.set start .word word) (start.add 4) hnext hrest
    refine ⟨loaded, ?_, hloaded.cons hword⟩
    rw [loadWords, write, hplace]
    exact hload

/-- The words of a segment can be read at their addresses. -/
theorem read_wordAddress (memory : Memory) (segment : Segment) {i : Nat}
    (h : 4 * i + 4 ≤ Segment.size) :
    memory.read (segment.wordAddress i) .word = .ok (memory.get ⟨segment, 4 * i⟩ .word) := by
  have haddress : (segment.wordAddress i).toNat = segment.base.toNat + 4 * i :=
    segment.toNat_wordAddress (by omega)
  exact read_eq_ok_iff.mpr ⟨⟨segment, 4 * i⟩, Place.ofAccess_of_fits haddress h, rfl⟩

/-- Words that are loaded at the start of a segment are found at their addresses. -/
theorem Loaded.read_wordAddress {memory loaded : Memory} {segment : Segment}
    {words : List Word} (h : memory.Loaded ⟨segment, 0⟩ words loaded)
    (hfits : 4 * words.length ≤ Segment.size) {i : Nat} (hi : i < words.length) :
    loaded.read (segment.wordAddress i) .word = .ok words[i] := by
  have hword := h.get_word i hi
  rw [Place.add, Nat.zero_add] at hword
  rw [loaded.read_wordAddress segment (by omega), hword]

end Memory

/-! ### Programs -/

/-- A program that fits its segment is loaded from the start of the segment. Nothing but
memory changes, and of memory only the words of the program. -/
theorem Machine.exists_loadProgram (machine : Machine) {words : List Word}
    (h : words.length ≤ 262144) :
    ∃ memory, machine.loadProgram words = ({ machine with memory := memory }, .ok ())
      ∧ machine.memory.Loaded ⟨.program, 0⟩ words memory := by
  have hfits : 0 + 4 * words.length ≤ Segment.size := by
    rw [Nat.zero_add]
    exact Segment.four_mul_le_size h
  obtain ⟨memory, hload, hloaded⟩ :=
    machine.memory.exists_loadWords ⟨.program, 0⟩ words rfl hfits
  refine ⟨memory, ?_, hloaded⟩
  rw [loadProgram, loadWords, hload]

end MiniMips
