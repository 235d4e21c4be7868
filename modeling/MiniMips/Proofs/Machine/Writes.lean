import MiniMips.Proofs.Machine.Records
import MiniMips.Proofs.Memory.Load

/-!
# `MiniMips.Proofs.Machine.Writes`: what a step writes, location by location

A machine is a map from locations to contents: the registers by their names and the bytes of
memory by their addresses. A step is an update of this map and a list of records.
`Machine.writes` is the update, a value for each location that the step writes. It depends on
the machine only through the effect of the step and the program counter, so steps with the same
effect write the same values, whatever the locations have held before. The theorems:

* `Memory.get_byte_set`: a byte after a store.
* `Effect.contents_apply`: the locations after an effect.
* `Machine.updated_step`: the machine after a step, `Machine.Updated`.
* `Machine.mayWrite_of_writes`: the locations that a step can write.
-/

set_option autoImplicit false

namespace MiniMips

/-! ### Locations -/

/-- A part of the machine with a value of its own. -/
inductive Location where
  | register (name : RegisterName)
  | byte (address : Word)
deriving DecidableEq, Repr

/-- What a machine holds at a location. There are no bytes outside of memory. -/
def Machine.contents (machine : Machine) : Location → Except Fault Word
  | .register name => .ok (machine.registers.value name)
  | .byte address => machine.memory.read address .byte

/-- The byte that a store leaves at a place, if it writes one there. -/
def storedByte? (start : Place) (size : AccessSize) (value : Word) (place : Place) :
    Option Word :=
  if start.segment = place.segment ∧ start.offset ≤ place.offset
      ∧ place.offset < start.offset + size.bytes then
    some ((FlatMemory.byteOf value (start.offset + size.bytes - 1 - place.offset)).setWidth 32)
  else none

/-- The values that an effect writes. -/
def Effect.writes : Effect → Location → Option Word
  | .writeRegister r value, .register (.general s) => if r = s then some value else none
  | .writeHiLo hi _, .register .hi => some hi
  | .writeHiLo _ lo, .register .lo => some lo
  | .jump target, .register .pc => some target
  | .link _ target, .register .pc => some target
  | .link returnAddress _, .register (.general s) =>
    if Reg.ra = s then some returnAddress else none
  | .store start size value, .byte address =>
    match Place.ofAddress address with
    | .ok place => storedByte? start size value place
    | .error _ => none
  | _, _ => none

/-! ### A store, byte by byte -/

/-- The access of one byte never leaves a segment. -/
theorem Place.ofAccess_byte (address : Word) :
    Place.ofAccess address .byte = Place.ofAddress address := by
  unfold Place.ofAccess
  cases haddress : Place.ofAddress address with
  | error fault => rfl
  | ok place =>
    have hfits : place.offset + AccessSize.byte.bytes ≤ Segment.size :=
      (Place.ofAddress_eq_ok_iff.mp haddress).2
    simp only [if_pos hfits]

namespace Memory

/-- A byte is read as a word from one place. -/
theorem get_byte (memory : Memory) (place : Place) :
    memory.get place .byte
      = (ByteStore.get (memory.bank place.segment) place.offset).setWidth 32 := by
  refine BitVec.eq_of_toNat_eq ?_
  have hlt := (ByteStore.get (memory.bank place.segment) place.offset).isLt
  rw [toNat_get, BigEndian.read_eq_sum, BitVec.toNat_setWidth]
  simp only [AccessSize.bytes, Finset.sum_range_one, Nat.add_zero]
  omega

/-- A byte after a store is one of the stored ones, or the byte before. -/
theorem get_byte_set (memory : Memory) {start : Place} {size : AccessSize} (value : Word)
    (place : Place) (hfits : start.offset + size.bytes ≤ Segment.size) :
    (memory.set start size value).get place .byte
      = (storedByte? start size value place).getD (memory.get place .byte) := by
  unfold storedByte?
  -- A byte inside the written range is a digit of the value; any other is as it was.
  by_cases hinside : start.segment = place.segment ∧ start.offset ≤ place.offset
      ∧ place.offset < start.offset + size.bytes
  · obtain ⟨hsegment, hlow, hhigh⟩ := hinside
    rw [if_pos ⟨hsegment, hlow, hhigh⟩, get_byte, ← hsegment, bank_set_self,
      BigEndian.get_write_of_inside _ hfits hlow hhigh]
    rfl
  · have houtside : start.Outside size.bytes place .byte := by
      have hone : AccessSize.byte.bytes = 1 := rfl
      by_cases hsegment : start.segment = place.segment
      · simp only [hsegment, true_and] at hinside
        exact .inr (by omega)
      · exact .inl hsegment
    rw [if_neg hinside, get_set_of_outside memory value houtside]
    rfl

end Memory

/-! ### An effect -/

/-- Whether an effect stores nothing beyond the end of a segment. -/
def Effect.Fits : Effect → Prop
  | .store start size _ => start.offset + size.bytes ≤ Segment.size
  | _ => True

/-- The effects of instructions fit. -/
theorem Instruction.Origin.fits {op : Operation} {fields : Fields} {registers : Registers}
    {effect : Effect} (h : Instruction.Origin op fields registers effect) : effect.Fits := by
  cases effect with
  | store =>
    obtain ⟨-, -, -, hplace⟩ := h
    exact (Place.ofAccess_eq_ok_iff.mp hplace).2
  | _ => trivial

/-- A register after another one, or the same, has been written. -/
theorem Registers.get_set (registers : Registers) (r s : Reg) (value : Word) :
    (registers.set r value).get s
      = (if r = s then some value else none).getD (registers.get s) := by
  by_cases h : r = s
  · rw [if_pos h, ← h, get_set_self]
    rfl
  · rw [if_neg h, get_set_of_ne registers value h]
    rfl

/-- The locations after an effect hold what it writes, and the others what they have held. -/
theorem Effect.contents_apply {effect : Effect} (hfits : effect.Fits) (machine : Machine)
    (location : Location) :
    (effect.apply machine).contents location
      = (effect.writes location).elim (machine.contents location) .ok := by
  cases location with
  | register name =>
    cases name with
    | general s =>
      cases effect with
      | writeRegister r value =>
        show Except.ok ((machine.registers.set r value).get s) = _
        rw [Registers.get_set]
        by_cases h : r = s <;> simp [writes, h, Machine.contents, Registers.value]
      | link returnAddress target =>
        show Except.ok ((machine.registers.set .ra returnAddress).get s) = _
        rw [Registers.get_set]
        by_cases h : Reg.ra = s <;> simp [writes, h, Machine.contents, Registers.value]
      | _ => rfl
    | _ => cases effect <;> rfl
  | byte address =>
    cases effect with
    | store start size value =>
      show (machine.memory.set start size value).read address .byte = _
      -- An address without a place has no byte before the store and none after it.
      simp only [Machine.contents, writes, Memory.read, Place.ofAccess_byte]
      cases Place.ofAddress address with
      | error fault => rfl
      | ok place =>
        simp only [Memory.get_byte_set machine.memory value place hfits]
        cases storedByte? start size value place <;> rfl
    | _ => rfl

/-! ### A step -/

namespace Machine

/-- The values that the next step writes. The program counter goes to the next word, unless
the effect moves it elsewhere. -/
def writes (machine : Machine) : Location → Option Word
  | .register .pc =>
    some ((machine.change.writes (.register .pc)).getD (machine.registers.pc + 4))
  | location => machine.change.writes location

/-- Whether a machine is the one before with values written to locations and records added to
the console, and with nothing else changed. -/
structure Updated (machine : Machine) (writes : Location → Option Word)
    (records : List ConsoleRecord) (after : Machine) : Prop where
  written : ∀ location value, writes location = some value →
    after.contents location = .ok value
  kept : ∀ location, writes location = none →
    after.contents location = machine.contents location
  records : after.console.records.toList = machine.console.records.toList ++ records
  saved : after.registers.saved = machine.registers.saved
  config : after.config = machine.config

variable {machine : Machine} {word : Word}

/-- The effect of a step comes from the fetched word, if there is an effect. -/
theorem exists_origin_of_change (h : machine.change ≠ .nothing) :
    ∃ word, machine.memory.read machine.registers.pc .word = .ok word
      ∧ ∃ op, (Fields.ofWord word).operation? = some op
        ∧ Instruction.Origin op (Fields.ofWord word) machine.registers.toRegisters
          machine.change := by
  obtain ⟨word, hread, heffect⟩ := exists_effectOf_of_change h
  rw [← machine.advance.effectOf_trace word] at heffect
  exact ⟨word, hread, exists_origin_of_effectOf heffect⟩

/-- The effect of a step fits, as it comes from an instruction. -/
theorem fits_change (machine : Machine) : machine.change.Fits := by
  by_cases h : machine.change = .nothing
  · rw [h]
    trivial
  · obtain ⟨_, _, _, _, horigin⟩ := exists_origin_of_change h
    exact horigin.fits

/-- The locations after a step. -/
theorem contents_step (machine : Machine) (location : Location) :
    machine.step.2.contents location
      = (machine.writes location).elim (machine.contents location) .ok := by
  obtain ⟨hregisters, hmemory, -⟩ := machine.step_eq_apply
  have hstep : machine.step.2.contents location
      = (machine.change.apply machine.advance).contents location := by
    cases location with
    | register name => rw [contents, hregisters, contents]
    | byte address => rw [contents, hmemory, contents]
  rw [hstep, Effect.contents_apply machine.fits_change]
  cases location with
  | register name =>
    cases name with
    | pc =>
      -- The fetch itself has written the program counter, and nothing else.
      show _ = Except.ok ((machine.change.writes (.register .pc)).getD (machine.registers.pc + 4))
      cases machine.change.writes (.register .pc) <;> rfl
    | _ => rfl
  | byte address => rfl

/-- A step writes its values and adds its records. -/
theorem updated_step (machine : Machine) :
    machine.Updated machine.writes machine.stepRecords machine.step.2 where
  written location value h := by
    rw [contents_step, h]
    rfl
  kept location h := by
    rw [contents_step, h]
    rfl
  records := machine.toList_step
  saved := by
    obtain ⟨hregisters, -, -⟩ := machine.step_eq_apply
    rw [hregisters, Effect.apply_saved]
    rfl
  config := by
    obtain ⟨-, -, hconfig⟩ := machine.step_eq_apply
    exact hconfig

/-! ### The locations that a word can write -/

/-- Whether a word writes to a location: the destination among the general registers, HI and
LO for a product or a quotient, and the bytes of its access for a store. -/
def Destination (machine : Machine) (word : Word) : Location → Prop
  | .register .pc => False
  | .register .hi | .register .lo =>
    (Fields.ofWord word).operation? = some (.register .multiply)
      ∨ (Fields.ofWord word).operation? = some (.register .divide)
  | .register (.general r) => destination? word = some r
  | .byte address =>
    ∃ store : StoreOp, (Fields.ofWord word).operation? = some (.primary (.store store))
      ∧ ∃ i < store.width.bytes, address =
        machine.registers.get (Fields.ofWord word).rs
          + (Fields.ofWord word).immediate.signExtend 32 + BitVec.ofNat 32 i

/-- Whether the next step can write a location: the program counter, which every step writes,
and what the fetched word writes to. -/
def MayWrite (machine : Machine) (location : Location) : Prop :=
  location = .register .pc
    ∨ ∃ word, machine.memory.read machine.registers.pc .word = .ok word
      ∧ machine.Destination word location

/-- The bytes that a store writes are those of its access. -/
theorem exists_eq_add_of_writes_byte {start : Place} {size : AccessSize} {value byte : Word}
    {base address : Word} (hstart : Place.ofAccess base size = .ok start)
    (h : (Effect.store start size value).writes (.byte address) = some byte) :
    ∃ i < size.bytes, address = base + BitVec.ofNat 32 i := by
  simp only [Effect.writes] at h
  cases hplace : Place.ofAddress address with
  | error fault =>
    rw [hplace] at h
    cases h
  | ok place =>
    simp only [hplace, storedByte?, Option.ite_none_right_eq_some] at h
    obtain ⟨⟨hsegment, hlow, hhigh⟩, -⟩ := h
    obtain ⟨haddress, -⟩ := Place.ofAddress_eq_ok_iff.mp hplace
    obtain ⟨hbase, -⟩ :=
      Place.ofAddress_eq_ok_iff.mp (Place.ofAccess_eq_ok_iff.mp hstart).1
    -- In one segment, addresses are as far apart as their offsets.
    rw [hsegment] at hbase
    refine ⟨place.offset - start.offset, by omega, BitVec.eq_of_toNat_eq ?_⟩
    have hlt := address.isLt
    rw [BitVec.toNat_add, BitVec.toNat_ofNat]
    omega

/-- An effect writes nothing but the program counter and the destination of its word. -/
theorem destination_of_origin {op : Operation} {effect : Effect} {location : Location}
    {value : Word} (hop : (Fields.ofWord word).operation? = some op)
    (horigin :
      Instruction.Origin op (Fields.ofWord word) machine.registers.toRegisters effect)
    (h : effect.writes location = some value) (hpc : location ≠ .register .pc) :
    machine.Destination word location := by
  -- By location: the effect that writes it is known, and its origin names the operation that
  -- has that destination.
  cases location with
  | register name =>
    cases name with
    | pc => exact absurd rfl hpc
    | hi | lo =>
      cases effect with
      | writeHiLo hi lo =>
        rcases horigin with rfl | ⟨rfl, -⟩
        · exact .inl hop
        · exact .inr hop
      | _ => cases h
    | general s =>
      show destination? word = some s
      rw [destination?, hop]
      cases effect with
      | writeRegister r value =>
        simp only [Effect.writes, Option.ite_none_right_eq_some] at h
        obtain ⟨rfl, -⟩ := h
        exact horigin
      | link returnAddress target =>
        simp only [Effect.writes, Option.ite_none_right_eq_some] at h
        obtain ⟨rfl, -⟩ := h
        cases horigin
        rfl
      | _ => cases h
  | byte address =>
    cases effect with
    | store start size value =>
      obtain ⟨store, rfl, rfl, hstart⟩ := horigin
      exact ⟨store, hop, exists_eq_add_of_writes_byte hstart h⟩
    | _ => cases h

/-- Nor does a step. -/
theorem mayWrite_of_writes {location : Location} {value : Word}
    (h : machine.writes location = some value) : machine.MayWrite location := by
  by_cases hpc : location = .register .pc
  · exact .inl hpc
  -- Any write other than the PC comes from the effect of the step, not from its advance.
  have hwrites : machine.change.writes location = some value := by
    cases location with
    | register name =>
      cases name with
      | pc => exact absurd rfl hpc
      | _ => exact h
    | byte address => exact h
  have hchange : machine.change ≠ .nothing := by
    intro hnothing
    rw [hnothing] at hwrites
    cases hwrites
  obtain ⟨word, hread, op, hop, horigin⟩ := exists_origin_of_change hchange
  exact .inr ⟨word, hread, destination_of_origin hop horigin hwrites hpc⟩

end Machine

end MiniMips
