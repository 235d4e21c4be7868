import MiniMips.Proofs.Machine.Alignment
import MiniMips.Proofs.Machine.Records
import MiniMips.Proofs.Machine.Unbounded
import MiniMips.Proofs.Memory.Load

/-!
# `MiniMips.Proofs.Machine.Runaway`: a program counter outside of memory

A step whose fetch fails reports its fault and goes on, and all that it has changed is the
program counter. So a program counter that is not mapped walks upwards, one word after the
other, until it comes to a segment, and what lies there is executed, program or not.

The addresses wrap, so the next segment is the one whose base is the fewest bytes away when
these are counted modulo the size of the address space. No address before its base is mapped:
a mapped one would lie in a segment that is nearer still, or in one that has started before
the walk has. The theorems:

* `Segment.distance_nextFrom_le`: no segment is nearer than the next one.
* `Segment.not_mapped_before`: the words before its base are not mapped.
* `Machine.Walked.step`, `Machine.RunsOutside.walked`: what a step outside of memory keeps, and
  so what all of them keep.
* `Machine.RunsOutside.addedRecords`: the records of these steps.
* `Machine.RunsOutside.haltsAfter`: the end at a word of zeros.
* `runaway_run`: the whole walk, and the end of a program that comes to a word of zeros.
-/

set_option autoImplicit false

namespace MiniMips

/-! ### The next segment -/

namespace Segment

/-- The number of bytes from an address up to the base of a segment. The addresses wrap. -/
def distanceFrom (segment : Segment) (address : Word) : Nat :=
  (segment.base - address).toNat

/-- The segment whose base is the first one that is reached from an address upwards. -/
def nextFrom (address : Word) : Segment :=
  if address ≤ program.base then program
  else if address ≤ data.base then data
  else if address ≤ stack.base then stack
  else program

/-- The number of words up to there. -/
def wordsToNext (address : Word) : Nat :=
  (nextFrom address).distanceFrom address / 4

/-- Segments start at aligned addresses. -/
theorem isAligned_base (segment : Segment) : IsAligned segment.base := by
  cases segment <;> decide

/-- The distance up to a segment, wrapped around, in numbers. -/
theorem distanceFrom_eq (segment : Segment) (address : Word) :
    segment.distanceFrom address
      = (2 ^ 32 - address.toNat + segment.base.toNat) % 2 ^ 32 :=
  BitVec.toNat_sub segment.base address

variable {address : Word}

/-- No segment is nearer than the next one. -/
theorem distance_nextFrom_le (address : Word) (other : Segment) :
    (nextFrom address).distanceFrom address ≤ other.distanceFrom address := by
  have haddress := address.isLt
  have hprogram : program.base.toNat = 0x00400000 := rfl
  have hdata : data.base.toNat = 0x10000000 := rfl
  have hstack : stack.base.toNat = 0x7FF00000 := rfl
  rw [distanceFrom_eq, distanceFrom_eq]
  unfold nextFrom
  simp only [BitVec.le_def]
  cases other <;> split_ifs <;> omega

/-- From an address that is not mapped no word is, up to the base of the next segment. -/
theorem not_mapped_before (hunmapped : ¬Mapped address.toNat) {i : Nat}
    (hi : 4 * i < (nextFrom address).distanceFrom address) :
    ¬Mapped (MiniMips.wordAddress address i).toNat := by
  intro hmapped
  obtain ⟨other, offset, hoffset, hother⟩ := mapped_iff.mp hmapped
  have hnearest := distance_nextFrom_le address other
  have hend := other.toNat_base_add_size_le
  have haddress := address.isLt
  rw [MiniMips.wordAddress, BitVec.toNat_add, BitVec.toNat_ofNat] at hother
  rw [distanceFrom_eq other] at hnearest
  by_cases hstart : offset ≤ 4 * i
  · -- The walk has come to the base of the other segment, which is nearer.
    omega
  · -- The walk has started behind that base, so its first address is mapped.
    refine hunmapped (mapped_iff.mpr ⟨other, offset - 4 * i, by omega, ?_⟩)
    omega

/-- From an aligned address the distance to the next segment is a number of words. -/
theorem four_mul_wordsToNext (h : IsAligned address) :
    4 * wordsToNext address = (nextFrom address).distanceFrom address := by
  have hbase := (nextFrom address).isAligned_base
  unfold IsAligned at h hbase
  rw [wordsToNext, distanceFrom_eq]
  omega

/-- An aligned walk comes to the base. -/
theorem wordAddress_wordsToNext (h : IsAligned address) :
    MiniMips.wordAddress address (wordsToNext address) = (nextFrom address).base := by
  rw [MiniMips.wordAddress, four_mul_wordsToNext h, distanceFrom, BitVec.ofNat_toNat,
    BitVec.setWidth_eq, BitVec.add_comm, BitVec.sub_add_cancel]

/-- And is shorter than the address space. -/
theorem wordsToNext_lt (address : Word) : wordsToNext address < 2 ^ 30 := by
  have hlt := ((nextFrom address).base - address).isLt
  unfold wordsToNext distanceFrom
  omega

end Segment

namespace Machine

variable {machine : Machine}

/-! ### Steps outside of memory -/

/-- Whether a machine has only gone on by a number of words, apart from its console. -/
structure Walked (machine : Machine) (count : Nat) (later : Machine) : Prop where
  registers : later.registers
    = { machine.registers with pc := wordAddress machine.registers.pc count }
  memory : later.memory = machine.memory
  config : later.config = machine.config

/-- No word is fetched outside of memory. -/
theorem read_of_unmapped (h : ¬Mapped machine.registers.pc.toNat) :
    machine.memory.read machine.registers.pc .word
      = .error (.unmappedAddress machine.registers.pc) :=
  Memory.read_eq_error_iff.mpr (.inl ⟨h, rfl⟩)

/-- The step of a machine outside of memory reports its address and goes on to the next word. -/
theorem step_of_unmapped (h : ¬Mapped machine.registers.pc.toNat) :
    machine.step = machine.advance.report (.unmappedAddress machine.registers.pc) :=
  step_of_read_error (read_of_unmapped h)

/-- The records of a step outside of memory. There is no word to trace. -/
theorem stepRecords_of_unmapped (h : ¬Mapped machine.registers.pc.toNat) :
    machine.stepRecords = [(Fault.unmappedAddress machine.registers.pc).record] := by
  rw [stepRecords, traceRecords, ownRecords, read_of_unmapped h]
  rfl

/-- One step more. -/
theorem Walked.step {count : Nat} {later : Machine} (h : machine.Walked count later)
    (hunmapped : ¬Mapped later.registers.pc.toNat) :
    machine.Walked (count + 1) later.step.2 := by
  rw [step_of_unmapped hunmapped]
  refine ⟨?_, h.memory, h.config⟩
  show { later.registers with pc := later.registers.pc + 4 } = _
  rw [h.registers, wordAddress_succ]

/-! ### The walk -/

/-- Whether no word is mapped, of a number of them from the program counter on. -/
def RunsOutside (machine : Machine) (count : Nat) : Prop :=
  ∀ i < count, ¬Mapped (wordAddress machine.registers.pc i).toNat

variable {count i : Nat}

/-- The first steps of a run outside of memory are one themselves. -/
theorem RunsOutside.mono (h : machine.RunsOutside count) (hle : i ≤ count) :
    machine.RunsOutside i := by
  intro j hj
  exact h j (Nat.lt_of_lt_of_le hj hle)

/-- Steps outside of memory only go on. -/
theorem RunsOutside.walked (h : machine.RunsOutside count) :
    machine.Walked count (machine.after count) := by
  induction count with
  | zero =>
    refine ⟨?_, rfl, rfl⟩
    rw [wordAddress_zero, after_zero]
  | succ count ih =>
    have hwalked := ih (h.mono (Nat.le_succ count))
    rw [after_succ]
    refine hwalked.step ?_
    rw [hwalked.registers]
    exact h count (Nat.lt_succ_self count)

/-- Where each of these steps starts. -/
theorem RunsOutside.pc_after (h : machine.RunsOutside count) (hi : i < count) :
    (machine.after i).registers.pc = wordAddress machine.registers.pc i
      ∧ ¬Mapped (machine.after i).registers.pc.toNat := by
  rw [(h.mono (Nat.le_of_lt hi)).walked.registers]
  exact ⟨rfl, h i hi⟩

/-- Their faults. -/
theorem RunsOutside.step_after (h : machine.RunsOutside count) (hi : i < count) :
    (machine.after i).step.1
      = .faulted (.unmappedAddress (wordAddress machine.registers.pc i)) := by
  obtain ⟨hpc, hunmapped⟩ := h.pc_after hi
  rw [step_of_unmapped hunmapped, report_fst, hpc]

/-- And their records. -/
theorem RunsOutside.addedRecords (h : machine.RunsOutside count) :
    machine.addedRecords count = (List.range count).map fun i =>
      (Fault.unmappedAddress (wordAddress machine.registers.pc i)).record := by
  rw [Machine.addedRecords, List.map_eq_flatMap]
  refine List.flatMap_congr ?_
  intro i hi
  obtain ⟨hpc, hunmapped⟩ := h.pc_after (List.mem_range.mp hi)
  rw [stepRecords_of_unmapped hunmapped, hpc]

/-- None of these steps ends the program. -/
theorem RunsOutside.not_ends (h : machine.RunsOutside count) (hi : i ≤ count) :
    ¬Boundary.halted.Ends (machine.lastOutcome i) := by
  cases i with
  | zero => exact Boundary.halted.not_ends_running
  | succ i =>
    rw [lastOutcome_succ, h.step_after hi]
    exact mt Boundary.ends_halted_iff.mp Bool.false_ne_true

/-- So a bounded run takes them all. -/
theorem RunsOutside.runBounded (h : machine.RunsOutside count) :
    machine.runBounded count .halted = machine.ran count := by
  refine EndsAfter.runBounded (endsAfter_self ?_)
  intro i hi
  exact h.not_ends (Nat.le_of_lt hi)

/-- A program that comes to a word of zeros ends behind it. -/
theorem RunsOutside.haltsAfter (h : machine.RunsOutside count)
    (hzero : machine.memory.read (wordAddress machine.registers.pc count) .word = .ok 0) :
    machine.HaltsAfter (count + 1) ∧ machine.lastOutcome (count + 1) = .halted .zeroWord
      ∧ (machine.after (count + 1)).registers.pc
        = wordAddress machine.registers.pc (count + 1) := by
  -- Walking outside of the segments writes nothing, so the word that ends the run is the one
  -- memory holds at the start.
  have hread : (machine.after count).memory.read (machine.after count).registers.pc .word
      = .ok 0 := by
    rw [h.walked.memory, h.walked.registers]
    exact hzero
  have hlast : machine.lastOutcome (count + 1) = .halted .zeroWord := by
    rw [lastOutcome_succ, step_of_read hread]
    rfl
  refine ⟨⟨?_, ?_⟩, hlast, ?_⟩
  · intro i hi
    exact h.not_ends (Nat.le_of_lt_succ hi)
  · rw [hlast]
    exact Boundary.halted.ends_halted .zeroWord
  · rw [after_succ, step_of_read hread]
    simp only [if_true, trace_registers, advance_registers_pc]
    rw [h.walked.registers, wordAddress_succ]

end Machine

/-- A program counter outside of memory walks up to the next segment, one word with each
step. Each step reports its address as not mapped, and nothing but the program counter and the
console changes on the way. If the segment starts with a word of zeros, the program ends
there. -/
theorem runaway_run {machine : Machine} (hpc : IsAligned machine.registers.pc)
    (hunmapped : ¬Mapped machine.registers.pc.toNat) :
    let segment := Segment.nextFrom machine.registers.pc
    let count := Segment.wordsToNext machine.registers.pc
    let last := (machine.runBounded count .halted).2
    (∀ other : Segment,
        segment.distanceFrom machine.registers.pc ≤ other.distanceFrom machine.registers.pc)
      ∧ 4 * count = segment.distanceFrom machine.registers.pc
      ∧ machine.runBounded count .halted = machine.ran count
      ∧ (∀ i < count, (machine.after i).step.1
        = .faulted (.unmappedAddress (wordAddress machine.registers.pc i)))
      ∧ last.registers = { machine.registers with pc := segment.base }
      ∧ last.memory = machine.memory
      ∧ last.config = machine.config
      ∧ last.console.records.toList = machine.console.records.toList
        ++ ((List.range count).map fun i =>
          (Fault.unmappedAddress (wordAddress machine.registers.pc i)).record)
      ∧ (machine.memory.read segment.base .word = .ok 0 →
        ∃ final, machine.run = some (⟨count + 1, .halted .zeroWord⟩, final)
          ∧ final.registers.pc = segment.base + 4) := by
  intro segment count last
  have hbase : wordAddress machine.registers.pc count = segment.base :=
    Segment.wordAddress_wordsToNext hpc
  -- Every step before the base fetches outside of the segments; all that follows is read off
  -- such a walk.
  have hway : machine.RunsOutside count := by
    intro i hi
    refine Segment.not_mapped_before hunmapped ?_
    rw [← Segment.four_mul_wordsToNext hpc]
    exact Nat.mul_lt_mul_of_pos_left hi (by decide)
  have hwalked := hway.walked
  have hlast : last = machine.after count := congrArg Prod.snd hway.runBounded
  rw [hlast]
  refine ⟨Segment.distance_nextFrom_le _, Segment.four_mul_wordsToNext hpc, hway.runBounded,
    fun _ => hway.step_after, ?_, hwalked.memory, hwalked.config, ?_, ?_⟩
  · rw [hwalked.registers, hbase]
  · rw [machine.toList_after, hway.addedRecords]
  · intro hzero
    rw [← hbase] at hzero
    obtain ⟨hhalts, hfinal, hend⟩ := hway.haltsAfter hzero
    have hcount : count < 2 ^ 30 := Segment.wordsToNext_lt _
    refine ⟨machine.after (count + 1), ?_, ?_⟩
    · rw [hhalts.run (by omega), Machine.ran, hfinal]
    · rw [hend, wordAddress_succ, hbase]

/-- The last word of the address space. The next one is at zero, and an empty program segment
ends the program after 1048577 faults. -/
theorem runaway_run_wraps :
    let machine := Machine.initial { entryPoint := 0xFFFFFFFC }
    (machine.runBounded 1048577 .halted).1.steps = 1048577
      ∧ (machine.after 1).step.1 = .faulted (.unmappedAddress 0)
      ∧ (machine.runBounded 1048577 .halted).2.registers.pc = 0x00400000
      ∧ ∃ final, machine.run = some (⟨1048578, .halted .zeroWord⟩, final)
        ∧ final.registers.pc = 0x00400004 := by
  intro machine
  have hpc : IsAligned machine.registers.pc := by decide
  have hunmapped : ¬Mapped machine.registers.pc.toNat := by decide
  have hzero : machine.memory.read (Segment.nextFrom machine.registers.pc).base .word = .ok 0 := by
    decide +kernel
  have hsegment : Segment.nextFrom machine.registers.pc = .program := by decide
  have hcount : Segment.wordsToNext machine.registers.pc = 1048577 := by decide
  obtain ⟨-, -, hrun, hsteps, hregisters, -, -, -, hend⟩ := runaway_run hpc hunmapped
  rw [hsegment] at hregisters hend hzero
  rw [hcount] at hrun hsteps hregisters hend
  have hsecond := hsteps 1 (by decide)
  rw [show wordAddress machine.registers.pc 1 = 0 by decide] at hsecond
  refine ⟨congrArg (·.1.steps) hrun, hsecond, ?_, hend hzero⟩
  rw [hregisters]
  rfl

end MiniMips
