import MiniMips.Proofs.Machine.Writes

/-!
# `MiniMips.Proofs.Machine.Inputs`: what a step reads

An instruction names its inputs: registers, HI or LO, or the result of a load. `sources` lists
them for each word. Two machines that fetch the same word at the same address, and have the
same inputs for it, take the same step (`step_reads_inputs`). They may differ everywhere else,
so a step looks at nothing but its inputs.

The same step is not the same machine afterwards. What both steps share is the update: the
values that they write and the records that they add (`Machine.Updated`). The theorems:

* `Instruction.effect_congr`: the inputs of an instruction decide its effect.
* `Machine.SameInputs.change`, `Machine.SameInputs.stepRecords`: so they decide what the step
  writes and records.
* `step_reads_inputs`: the steps of two machines with the same inputs.
-/

set_option autoImplicit false

namespace MiniMips

/-! ### The inputs of a word -/

/-- A place from which an instruction takes an input. -/
inductive Source where
  | register (r : Reg)
  | hi
  | lo
  /-- The result of a load, at an offset from the value of a register. -/
  | load (base : Reg) (offset : BitVec 16) (size : AccessSize)
deriving DecidableEq, Repr

/-- The input from a source. Only a load can give a fault. -/
def Source.input (source : Source) (registers : Registers) (memory : Memory) :
    Except Fault Word :=
  match source with
  | .register r => .ok (registers.get r)
  | .hi => .ok registers.hi
  | .lo => .ok registers.lo
  | .load base offset size => memory.read (registers.get base + offset.signExtend 32) size

/-- The sources of an operation. -/
def Operation.sources (op : Operation) (fields : Fields) : List Source :=
  match op with
  | .register (.shift _) => [.register fields.rt]
  | .register .jumpRegister | .primary (.immediate _) => [.register fields.rs]
  | .register .moveFromHi => [.hi]
  | .register .moveFromLo => [.lo]
  | .register .syscall => [.register .v0, .register .a0]
  | .register .multiply | .register .divide | .register (.arithmetic _)
  | .primary (.branch _) | .primary (.store _) => [.register fields.rs, .register fields.rt]
  | .primary (.load op) => [.register fields.rs, .load fields.rs fields.immediate op.width]
  | .primary .jump | .primary .jumpAndLink | .primary .loadUpper => []

/-- The sources of a word. The word of zeros and words that are no instruction have none. -/
def sources (word : Word) : List Source :=
  if word = 0 then []
  else
    match (Fields.ofWord word).operation? with
    | some op => op.sources (Fields.ofWord word)
    | none => []

/-- The inputs of an instruction and the program counter decide its effect. -/
theorem Instruction.effect_congr {op : Operation} {fields : Fields}
    {registers others : Registers} {memory otherMemory : Memory}
    (hpc : registers.pc = others.pc)
    (hinputs : ∀ source ∈ op.sources fields,
      source.input registers memory = source.input others otherMemory) :
    (Instruction.mk op fields).effect registers memory
      = (Instruction.mk op fields).effect others otherMemory := by
  -- Equal inputs from registers are equal values.
  have hget : ∀ r, .register r ∈ op.sources fields → registers.get r = others.get r := by
    intro r hr
    exact Except.ok.inj (hinputs _ hr)
  cases op with
  | register op =>
    simp only [Instruction.effect]
    cases op with
    | shift op => simp only [RegisterOp.effect, hget fields.rt (.head _)]
    | jumpRegister => simp only [RegisterOp.effect, hget fields.rs (.head _)]
    | syscall =>
      simp only [RegisterOp.effect, hget .v0 (.head _), hget .a0 (.tail _ (.head _))]
    | moveFromHi =>
      have hhi : registers.hi = others.hi := Except.ok.inj (hinputs .hi (.head _))
      simp only [RegisterOp.effect, hhi]
    | moveFromLo =>
      have hlo : registers.lo = others.lo := Except.ok.inj (hinputs .lo (.head _))
      simp only [RegisterOp.effect, hlo]
    | multiply | divide | arithmetic =>
      simp only [RegisterOp.effect, hget fields.rs (.head _), hget fields.rt (.tail _ (.head _))]
  | primary op =>
    simp only [Instruction.effect]
    cases op with
    | branch op =>
      simp only [PrimaryOp.effect, hpc, hget fields.rs (.head _),
        hget fields.rt (.tail _ (.head _))]
    | jump | jumpAndLink => simp only [PrimaryOp.effect, hpc]
    | immediate op => simp only [PrimaryOp.effect, hget fields.rs (.head _)]
    | loadUpper => rfl
    | load op =>
      -- The address is an input of its own, so the load is the one from the sources.
      have hload :
          memory.read (effectiveAddress (registers.get fields.rs) fields.immediate) op.width
            = otherMemory.read (effectiveAddress (others.get fields.rs) fields.immediate)
              op.width :=
        hinputs (.load fields.rs fields.immediate op.width) (.tail _ (.head _))
      simp only [PrimaryOp.effect, op.size_eq_width, hload]
    | store op =>
      simp only [PrimaryOp.effect, hget fields.rs (.head _), hget fields.rt (.tail _ (.head _))]

/-! ### The steps of two machines -/

namespace Machine

/-- Whether two machines are at the same word, record it alike and have the same inputs for
it. -/
structure SameInputs (machine other : Machine) : Prop where
  pc : machine.registers.pc = other.registers.pc
  debugTrace : machine.config.debugTrace = other.config.debugTrace
  fetch : machine.fetch.1 = other.fetch.1
  inputs : ∀ word, machine.fetch.1 = .ok word → ∀ source ∈ sources word,
    source.input machine.registers.toRegisters machine.memory
      = source.input other.registers.toRegisters other.memory

variable {machine other : Machine} {word : Word}

/-- The same inputs give a fetched word the same effect, or the same fault. -/
theorem SameInputs.effectOf (h : machine.SameInputs other)
    (hread : machine.memory.read machine.registers.pc .word = .ok word) (hword : word ≠ 0) :
    machine.advance.effectOf word = other.advance.effectOf word := by
  have hinputs := h.inputs word hread
  unfold Machine.effectOf decode
  cases hop : (Fields.ofWord word).operation? with
  | none => rfl
  | some op =>
    simp only [sources, if_neg hword, hop] at hinputs
    refine Instruction.effect_congr ?_ hinputs
    rw [advance_registers_pc, advance_registers_pc, h.pc]

/-- Both fetches have the same result. -/
theorem SameInputs.read (h : machine.SameInputs other) :
    other.memory.read other.registers.pc .word
      = machine.memory.read machine.registers.pc .word :=
  h.fetch.symm

/-- The steps of machines with the same inputs end in the same way. -/
theorem SameInputs.outcome (h : machine.SameInputs other) : machine.step.1 = other.step.1 := by
  cases hread : machine.memory.read machine.registers.pc .word with
  | error fault =>
    rw [step_of_read_error hread, step_of_read_error (h.read.trans hread)]
    rfl
  | ok word =>
    rw [step_of_read hread, step_of_read (h.read.trans hread)]
    by_cases hword : word = 0
    · rw [if_pos hword, if_pos hword]
    rw [if_neg hword, if_neg hword, execute, execute, effectOf_trace, effectOf_trace,
      h.effectOf hread hword]
    cases other.advance.effectOf word <;> rfl

/-- They have the same effect. -/
theorem SameInputs.change (h : machine.SameInputs other) : machine.change = other.change := by
  unfold Machine.change
  rw [h.read]
  cases hread : machine.memory.read machine.registers.pc .word with
  | error fault => rfl
  | ok word =>
    by_cases hword : word = 0
    · simp only [if_pos hword]
    · simp only [if_neg hword, h.effectOf hread hword]

/-- They write the same values to the same locations. -/
theorem SameInputs.writes (h : machine.SameInputs other) : machine.writes = other.writes := by
  funext location
  unfold Machine.writes
  rw [h.change, h.pc]

/-- They add the same records. -/
theorem SameInputs.stepRecords (h : machine.SameInputs other) :
    machine.stepRecords = other.stepRecords := by
  unfold Machine.stepRecords traceRecords ownRecords
  rw [h.read, h.debugTrace]
  cases hread : machine.memory.read machine.registers.pc .word with
  | error fault => rfl
  | ok word =>
    by_cases hword : word = 0
    · simp only [if_pos hword]
    · simp only [if_neg hword, executionRecords, h.effectOf hread hword]

end Machine

/-- Machines with the same inputs take the same step, whatever else they hold: it ends in the
same way, goes to the same address, and writes the same values and records. Every other
location of each machine is as it was, and a written one is the program counter or a
destination of the word. -/
theorem step_reads_inputs {machine other : Machine} (h : machine.SameInputs other) :
    machine.step.1 = other.step.1
      ∧ machine.step.2.registers.pc = other.step.2.registers.pc
      ∧ ∃ writes records,
        machine.Updated writes records machine.step.2
          ∧ other.Updated writes records other.step.2
          ∧ ∀ location value, writes location = some value →
            machine.MayWrite location ∧ other.MayWrite location := by
  -- The update of the other machine is the one of this machine.
  have hother := other.updated_step
  rw [← h.writes, ← h.stepRecords] at hother
  refine ⟨h.outcome, ?_, machine.writes, machine.stepRecords, machine.updated_step, hother, ?_⟩
  · -- Every step writes the program counter.
    have hpc := machine.updated_step.written (.register .pc) _ rfl
    exact Except.ok.inj (hpc.trans (hother.written (.register .pc) _ rfl).symm)
  · intro location value hwrites
    refine ⟨Machine.mayWrite_of_writes hwrites, ?_⟩
    rw [h.writes] at hwrites
    exact Machine.mayWrite_of_writes hwrites

/-- A store below the stack pointer, on machines with other data, records and settings. -/
theorem step_reads_inputs_store :
    let machine := ((Machine.initial {}).loadProgram [0xA3A1FFFF]).1
    let other := { machine with
      registers.hi := 7
      memory := machine.memory.set ⟨.data, 0⟩ .word 5
      console := machine.console.print .normal "record"
      config.entryPoint := 0 }
    machine.SameInputs other
      ∧ machine.step.1 = other.step.1
      ∧ ∃ writes records,
        machine.Updated writes records machine.step.2
          ∧ other.Updated writes records other.step.2 := by
  intro machine other
  have hread : machine.fetch.1 = .ok 0xA3A1FFFF := by decide +kernel
  have hother : other.fetch.1 = .ok 0xA3A1FFFF := by decide +kernel
  have hsources : sources 0xA3A1FFFF = [.register .sp, .register 1] := by decide
  have hinputs : machine.SameInputs other := by
    refine ⟨rfl, rfl, hread.trans hother.symm, ?_⟩
    intro word hword source hsource
    rw [← Except.ok.inj (hread.symm.trans hword), hsources] at hsource
    simp only [List.mem_cons, List.not_mem_nil, or_false] at hsource
    rcases hsource with rfl | rfl <;> rfl
  obtain ⟨houtcome, -, writes, records, hupdated, hupdated', -⟩ := step_reads_inputs hinputs
  exact ⟨hinputs, houtcome, writes, records, hupdated, hupdated'⟩

end MiniMips
