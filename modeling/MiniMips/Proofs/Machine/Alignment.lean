import MiniMips.Proofs.Instruction.Address
import MiniMips.Proofs.Machine.Outcome
import MiniMips.Proofs.Machine.Run

/-!
# `MiniMips.Proofs.Machine.Alignment`: the program counter stays aligned

Nothing checks that a program counter or an address is a multiple of four. A program counter
that starts as one stays one all the same: the fetch adds four, branches and jumps count in
words, and only a jump to a register takes its target as it finds it. So the hypothesis of a
run is that these jumps find aligned addresses (`Machine.JumpsAligned`), and it is the only one.
It does not matter how a step ends, or whether the program has changed itself.

The segments are multiples of four bytes long. So an aligned word never leaves its segment, and
a `segmentOverrun` tells an access that is not aligned. The theorems:

* `isAligned_branchTarget`, `isAligned_jumpTarget`: the targets of branches and jumps.
* `RefusedWith.overrun`: an access that leaves its segment is not aligned.
* `Instruction.target_of_effect`: where an instruction can jump to.
* `Machine.isAligned_step`: a step keeps the program counter aligned.
* `Machine.overrun_of_step`: the overruns of a step at an aligned program counter.
* `aligned_run`: both, for all steps of a run.
-/

set_option autoImplicit false

namespace MiniMips

/-! ### Aligned addresses -/

/-- Whether an address is a multiple of four. -/
def IsAligned (address : Word) : Prop :=
  address.toNat % 4 = 0

instance (address : Word) : Decidable (IsAligned address) :=
  inferInstanceAs (Decidable (_ = _))

variable {pc : Word}

/-- The next word is aligned. -/
theorem isAligned_add_four (h : IsAligned pc) : IsAligned (pc + 4) := by
  show (pc + 4#32).toNat % 4 = 0
  rw [BitVec.toNat_add, BitVec.toNat_ofNat]
  unfold IsAligned at h
  omega

/-- A branch counts words from an aligned address, forwards or backwards. -/
theorem isAligned_branchTarget (h : IsAligned pc) (immediate : BitVec 16) :
    IsAligned (branchTarget pc immediate) := by
  have htarget := toNat_branchTarget pc immediate.toInt
  rw [BitVec.ofInt_toInt] at htarget
  unfold IsAligned at h ⊢
  omega

/-- A jump counts words in a region, so its target is aligned wherever it starts. -/
theorem isAligned_jumpTarget (pc : Word) (target : BitVec 26) :
    IsAligned (jumpTarget pc target) := by
  have htarget := toNat_jumpTarget pc target.toNat
  rw [BitVec.ofNat_toNat, BitVec.setWidth_eq] at htarget
  unfold IsAligned
  omega

/-- An access that leaves its segment is not aligned to its own size. -/
theorem RefusedWith.overrun {address start : Word} {size : AccessSize} {bytes : Nat}
    (h : RefusedWith address size (.segmentOverrun start bytes)) :
    start = address ∧ bytes = size.bytes ∧ address.toNat % size.bytes ≠ 0 := by
  rcases h with ⟨-, h⟩ | ⟨hfirst, hlast, h⟩
  · cases h
  · cases h
    refine ⟨rfl, rfl, ?_⟩
    -- Both ends of each segment are multiples of every size.
    intro haligned
    unfold Mapped at hfirst hlast
    cases size with
    | byte => exact hlast hfirst
    | halfWord | word =>
      simp only [AccessSize.bytes] at hlast haligned
      omega

/-! ### Where an instruction can jump to -/

/-- The address at which an effect lets the program go on, if it is not the next one. -/
def Effect.target? : Effect → Option Word
  | .jump target | .link _ target => some target
  | _ => none

/-- An effect leaves the program counter alone, unless it has a target. -/
theorem Effect.apply_pc (effect : Effect) (machine : Machine) :
    (effect.apply machine).registers.pc = effect.target?.getD machine.registers.pc := by
  cases effect <;> rfl

/-- A target is the value of a register, that of a branch or that of a jump. -/
theorem Instruction.target_of_effect {op : Operation} {fields : Fields} {registers : Registers}
    {memory : Memory} {effect : Effect} {target : Word}
    (h : (Instruction.mk op fields).effect registers memory = .ok effect)
    (htarget : effect.target? = some target) :
    op = .register .jumpRegister ∧ target = registers.get fields.rs
      ∨ target = branchTarget registers.pc fields.immediate
      ∨ target = jumpTarget registers.pc fields.target := by
  have horigin := Instruction.origin_of_effect h
  cases effect with
  | jump found =>
    cases htarget
    -- A jump effect has three possible sources; the effect of each computes its own target.
    rcases horigin with rfl | rfl | ⟨branch, rfl, htaken⟩
    · cases h
      exact .inl ⟨rfl, rfl⟩
    · cases h
      exact .inr (.inr rfl)
    · simp only [Instruction.effect, PrimaryOp.effect, if_pos htaken] at h
      cases h
      exact .inr (.inl rfl)
  | link returnAddress found =>
    cases htarget
    cases horigin
    cases h
    exact .inr (.inr rfl)
  | _ => cases htarget

namespace Machine

/-! ### One step -/

/-- Whether the next word finds an aligned address, if it jumps to the value of a register. -/
def JumpsAligned (machine : Machine) : Prop :=
  ∀ word, machine.memory.read machine.registers.pc .word = .ok word →
    (Fields.ofWord word).operation? = some (.register .jumpRegister) →
      IsAligned (machine.registers.get (Fields.ofWord word).rs)

instance (machine : Machine) : Decidable machine.JumpsAligned :=
  match hread : machine.memory.read machine.registers.pc .word with
  | .ok word =>
    decidable_of_iff ((Fields.ofWord word).operation? = some (.register .jumpRegister) →
        IsAligned (machine.registers.get (Fields.ofWord word).rs))
      (by simp [JumpsAligned, hread])
  | .error _ => isTrue (by simp [JumpsAligned, hread])

/-- Whether the next word loads or stores a word at an address. -/
def AccessesWord (machine : Machine) (address : Word) : Prop :=
  ∃ word, machine.memory.read machine.registers.pc .word = .ok word
    ∧ ((Fields.ofWord word).operation? = some (.primary (.load .lw))
      ∨ (Fields.ofWord word).operation? = some (.primary (.store .sw)))
    ∧ address = machine.registers.get (Fields.ofWord word).rs
      + (Fields.ofWord word).immediate.signExtend 32

variable {machine : Machine}

/-- A step keeps the program counter aligned, however it ends. -/
theorem isAligned_step (hpc : IsAligned machine.registers.pc) (hjumps : machine.JumpsAligned) :
    IsAligned machine.step.2.registers.pc := by
  have hnext : IsAligned machine.advance.registers.pc := isAligned_add_four hpc
  -- Without a target the program counter stays behind the fetch, and targets start from there.
  obtain ⟨hregisters, -, -⟩ := machine.step_eq_apply
  rw [hregisters, Effect.apply_pc]
  cases htarget : machine.change.target? with
  | none => exact hnext
  | some target =>
    have hchange : machine.change ≠ .nothing := by
      intro hnothing
      rw [hnothing] at htarget
      cases htarget
    obtain ⟨word, hread, heffect⟩ := exists_effectOf_of_change hchange
    obtain ⟨op, hop, hinstruction⟩ := exists_effect_of_effectOf heffect
    show IsAligned target
    rcases Instruction.target_of_effect hinstruction htarget with ⟨rfl, rfl⟩ | rfl | rfl
    · exact hjumps word hread hop
    · exact isAligned_branchTarget hnext _
    · exact isAligned_jumpTarget _ _

/-- The fetch at an aligned program counter stays in one segment. -/
theorem fetch_ne_overrun (hpc : IsAligned machine.registers.pc) (address : Word) (bytes : Nat) :
    machine.fetch.1 ≠ .error (.segmentOverrun address bytes) := by
  intro h
  obtain ⟨-, -, hpc'⟩ := (Memory.read_eq_error_iff.mp h).overrun
  exact hpc' hpc

/-- So an overrun is that of a load or a store. Bytes never leave a segment, so it is one of a
word. -/
theorem overrun_of_step {address : Word} {bytes : Nat} (hpc : IsAligned machine.registers.pc)
    (h : machine.step.1 = .faulted (.segmentOverrun address bytes)) :
    bytes = 4 ∧ machine.AccessesWord address ∧ ¬IsAligned address := by
  cases hread : machine.memory.read machine.registers.pc .word with
  | error fault =>
    rw [step_of_read_error hread] at h
    cases h
    exact absurd hread (fetch_ne_overrun hpc _ _)
  | ok word =>
    have hfails := (faultsWith_iff_of_kind rfl).mp ((step_eq_faulted_iff hread).mp h)
    -- Only an access of four bytes can overrun: a byte lies inside its segment or outside of
    -- it.
    rcases hfails with ⟨load, hop, haccess⟩ | ⟨store, hop, haccess⟩
    · obtain ⟨rfl, rfl, hunaligned⟩ := (Memory.read_eq_error_iff.mp haccess).overrun
      cases load with
      | lw => exact ⟨rfl, ⟨word, hread, .inl hop, rfl⟩, hunaligned⟩
      | lb | lbu => exact absurd (Nat.mod_one _) hunaligned
    · obtain ⟨rfl, rfl, hunaligned⟩ := (Memory.write_eq_error_iff.mp haccess).overrun
      cases store with
      | sw => exact ⟨rfl, ⟨word, hread, .inr hop, rfl⟩, hunaligned⟩
      | sb => exact absurd (Nat.mod_one _) hunaligned

/-! ### A number of steps -/

/-- The program counter of a run stays aligned while its register jumps are. -/
theorem isAligned_after (hpc : IsAligned machine.registers.pc) {count : Nat}
    (hjumps : ∀ i < count, (machine.after i).JumpsAligned) :
    IsAligned (machine.after count).registers.pc := by
  induction count with
  | zero => exact hpc
  | succ count ih =>
    rw [after_succ]
    refine isAligned_step (ih ?_) (hjumps count (Nat.lt_succ_self count))
    intro i hi
    exact hjumps i (Nat.lt_succ_of_lt hi)

end Machine

/-- A program counter that starts aligned stays aligned, as long as every jump to a register
finds an aligned address. No fetch leaves its segment then, and what does leave it is a load or
a store of a word at an address that is not aligned. -/
theorem aligned_run {machine : Machine} {count : Nat} (hpc : IsAligned machine.registers.pc)
    (hjumps : ∀ i < count, (machine.after i).JumpsAligned) :
    (∀ i ≤ count, IsAligned (machine.after i).registers.pc)
      ∧ ∀ i < count, ∀ address bytes,
        (machine.after i).fetch.1 ≠ .error (.segmentOverrun address bytes)
          ∧ ((machine.after i).step.1 = .faulted (.segmentOverrun address bytes) →
            bytes = 4 ∧ (machine.after i).AccessesWord address ∧ ¬IsAligned address) := by
  have haligned : ∀ i ≤ count, IsAligned (machine.after i).registers.pc := by
    intro i hi
    refine Machine.isAligned_after hpc ?_
    intro j hj
    exact hjumps j (Nat.lt_of_lt_of_le hj hi)
  refine ⟨haligned, ?_⟩
  intro i hi address bytes
  have hi' := haligned i (Nat.le_of_lt hi)
  exact ⟨Machine.fetch_ne_overrun hi' address bytes, Machine.overrun_of_step hi'⟩

/-- A program that loads the last two bytes of a segment as a word and then jumps to address
zero, where there is no word. -/
theorem aligned_run_overrun :
    let machine := ((Machine.initial {}).loadProgram [0x3C010050, 0x8C22FFFE, 0x00000008]).1
    (machine.after 1).step.1 = .faulted (.segmentOverrun 0x004FFFFE 4)
      ∧ (machine.after 1).AccessesWord 0x004FFFFE
      ∧ ¬IsAligned 0x004FFFFE
      ∧ (machine.after 3).registers.pc = 0
      ∧ (machine.after 3).step.1 = .faulted (.unmappedAddress 0)
      ∧ IsAligned (machine.after 4).registers.pc := by
  intro machine
  have hpc : IsAligned machine.registers.pc := by decide +kernel
  have hjumps : ∀ i < 4, (machine.after i).JumpsAligned := by decide +kernel
  have hoverrun : (machine.after 1).step.1 = .faulted (.segmentOverrun 0x004FFFFE 4) := by
    decide +kernel
  obtain ⟨haligned, hsteps⟩ := aligned_run hpc hjumps
  obtain ⟨-, haccess, hunaligned⟩ := (hsteps 1 (by decide) _ _).2 hoverrun
  exact ⟨hoverrun, haccess, hunaligned, by decide +kernel, by decide +kernel,
    haligned 4 (by decide)⟩

end MiniMips
