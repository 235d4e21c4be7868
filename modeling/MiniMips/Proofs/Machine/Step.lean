import MiniMips.Machine.Step
import MiniMips.Proofs.Memory.Access

/-!
# `MiniMips.Proofs.Machine.Step`: a step as fetch, trace and effect

Each part of a step changes one part of the machine: the fetch moves the program counter,
the trace writes to the console, and the rest is one effect. The theorems:

* `step_of_read` and `step_of_read_error`: the step of a machine whose fetch succeeds or fails.
* `execute_of_effectOf`: the execution of a word with an effect.
* `effectOf_of_decode`: the effect of a word that holds an instruction.
* `exists_effect_of_effectOf`: the operation behind the effect of a word.
* `step_eq_apply`, `exists_effectOf_of_change`: a step as one effect behind the fetch.
* `read_probe`: the machine `probe` is about to execute a given word.
-/

set_option autoImplicit false

namespace MiniMips

/-! ### The end of an effect -/

/-- A step with an effect has no fault. -/
@[simp] theorem Effect.outcome_ne_faulted (effect : Effect) (fault : Fault) :
    effect.outcome ≠ .faulted fault := by
  cases effect <;> simp [outcome]

/-- A step with an effect has not met a word of zeros. -/
@[simp] theorem Effect.outcome_ne_zeroWord (effect : Effect) :
    effect.outcome ≠ .halted .zeroWord := by
  cases effect <;> simp [outcome]

/-- A step ends the program by the one effect that does. -/
@[simp] theorem Effect.outcome_eq_exit_iff {effect : Effect} :
    effect.outcome = .halted .exit ↔ effect = .exit := by
  cases effect <;> simp [outcome]

namespace Machine

/-! ### The parts of a step -/

/-- The fetch moves the program counter to the next word. -/
@[simp] theorem advance_registers_pc (machine : Machine) :
    machine.advance.registers.pc = machine.registers.pc + 4 := rfl

/-- The fetch leaves the general registers alone. -/
@[simp] theorem advance_get (machine : Machine) (r : Reg) :
    machine.advance.registers.get r = machine.registers.get r := rfl

/-- The fetch leaves memory alone. -/
@[simp] theorem advance_memory (machine : Machine) :
    machine.advance.memory = machine.memory := rfl

/-- The fetch leaves the configuration alone. -/
@[simp] theorem advance_config (machine : Machine) :
    machine.advance.config = machine.config := rfl

/-- A record changes no register. -/
@[simp] theorem print_registers (machine : Machine) (channel : Channel) (text : String) :
    (machine.print channel text).registers = machine.registers := rfl

/-- A record changes no byte of memory. -/
@[simp] theorem print_memory (machine : Machine) (channel : Channel) (text : String) :
    (machine.print channel text).memory = machine.memory := rfl

/-- A record does not change the configuration. -/
@[simp] theorem print_config (machine : Machine) (channel : Channel) (text : String) :
    (machine.print channel text).config = machine.config := rfl

/-- The trace, whether it is a record or nothing, changes no register. -/
@[simp] theorem trace_registers (machine : Machine) (word : Word) :
    (machine.trace word).registers = machine.registers := by
  unfold trace
  split <;> rfl

/-- The trace changes no byte of memory. -/
@[simp] theorem trace_memory (machine : Machine) (word : Word) :
    (machine.trace word).memory = machine.memory := by
  unfold trace
  split <;> rfl

/-- The trace does not change the configuration. -/
@[simp] theorem trace_config (machine : Machine) (word : Word) :
    (machine.trace word).config = machine.config := by
  unfold trace
  split <;> rfl

/-- A step with a fault ends with the fault. -/
@[simp] theorem report_fst (machine : Machine) (fault : Fault) :
    (machine.report fault).1 = .faulted fault := rfl

/-- All that the report of a fault leaves behind is a record. -/
@[simp] theorem report_snd (machine : Machine) (fault : Fault) :
    (machine.report fault).2 = machine.print .error ("[ERROR] " ++ fault.message) := rfl

/-- Words with the same text leave the same record. -/
theorem trace_congr (machine : Machine) {word other : Word}
    (h : disassemble word = disassemble other) : machine.trace word = machine.trace other := by
  rw [trace, trace, h]

/-- The step of a machine whose fetch fails. -/
theorem step_of_read_error {machine : Machine} {fault : Fault}
    (h : machine.memory.read machine.registers.pc .word = .error fault) :
    machine.step = machine.advance.report fault := by
  rw [step, fetch, h]

/-- The step of a machine whose fetch succeeds. -/
theorem step_of_read {machine : Machine} {word : Word}
    (h : machine.memory.read machine.registers.pc .word = .ok word) :
    machine.step = if word = 0 then (.halted .zeroWord, machine.advance.trace word)
      else (machine.advance.trace word).execute word := by
  rw [step, fetch, h]

/-- The execution of a word with an effect carries the effect out. -/
theorem execute_of_effectOf {machine : Machine} {word : Word} {effect : Effect}
    (h : machine.effectOf word = .ok effect) :
    machine.execute word = (effect.outcome, effect.apply machine) := by
  rw [execute, h]

/-- The execution of a word with a fault reports the fault. -/
theorem execute_of_fault {machine : Machine} {word : Word} {fault : Fault}
    (h : machine.effectOf word = .error fault) : machine.execute word = machine.report fault := by
  rw [execute, h]

/-- The effect of a word is that of its instruction. -/
theorem effectOf_of_decode {word : Word} {instruction : Instruction}
    (h : decode word = .ok instruction) (machine : Machine) :
    machine.effectOf word
      = instruction.effect machine.registers.toRegisters machine.memory := by
  rw [effectOf, h]

/-- An effect is that of an operation, so a word without one has none. -/
theorem exists_effect_of_effectOf {machine : Machine} {word : Word} {effect : Effect}
    (h : machine.effectOf word = .ok effect) :
    ∃ op, (Fields.ofWord word).operation? = some op
      ∧ (Instruction.mk op (Fields.ofWord word)).effect machine.registers.toRegisters
        machine.memory = .ok effect := by
  unfold effectOf decode at h
  cases hop : (Fields.ofWord word).operation? with
  | none =>
    rw [hop] at h
    cases h
  | some op =>
    rw [hop] at h
    exact ⟨op, rfl, h⟩

/-- The trace changes nothing that an execution reads. -/
theorem effectOf_trace (machine : Machine) (traced word : Word) :
    (machine.trace traced).effectOf word = machine.effectOf word := by
  rw [effectOf, effectOf, trace_registers, trace_memory]

/-! ### The effect of a step -/

/-- The effect of the next step. A step that fetches no word, the word of zeros or a faulty
word has none. -/
def change (machine : Machine) : Effect :=
  match machine.memory.read machine.registers.pc .word with
  | .ok word =>
    if word = 0 then .nothing
    else
      match machine.advance.effectOf word with
      | .ok effect => effect
      | .error _ => .nothing
  | .error _ => .nothing

/-- The next step carries out its effect behind the fetch. Trace and report are on the
console. -/
theorem step_eq_apply (machine : Machine) :
    machine.step.2.registers = (machine.change.apply machine.advance).registers
      ∧ machine.step.2.memory = (machine.change.apply machine.advance).memory
      ∧ machine.step.2.config = machine.config := by
  -- The cases are those of the step itself: no fetch, a word of zeros, a fault, an effect.
  unfold change
  cases hread : machine.memory.read machine.registers.pc .word with
  | error fault =>
    rw [step_of_read_error hread]
    exact ⟨rfl, rfl, rfl⟩
  | ok word =>
    rw [step_of_read hread]
    by_cases hword : word = 0
    · simp only [if_pos hword]
      exact ⟨trace_registers _ _, trace_memory _ _, trace_config _ _⟩
    simp only [if_neg hword, execute, effectOf_trace]
    cases machine.advance.effectOf word with
    | error fault => exact ⟨trace_registers _ _, trace_memory _ _, trace_config _ _⟩
    | ok effect => cases effect <;> simp [Effect.apply]

/-- The effect of a step is that of the fetched word, if there is one. -/
theorem exists_effectOf_of_change {machine : Machine} (h : machine.change ≠ .nothing) :
    ∃ word, machine.memory.read machine.registers.pc .word = .ok word
      ∧ machine.advance.effectOf word = .ok machine.change := by
  unfold change at h ⊢
  cases hread : machine.memory.read machine.registers.pc .word with
  | error fault =>
    rw [hread] at h
    exact absurd rfl h
  | ok word =>
    refine ⟨word, rfl, ?_⟩
    rw [hread] at h
    by_cases hword : word = 0
    · simp [hword] at h
    simp only [if_neg hword] at h ⊢
    cases heffect : machine.advance.effectOf word with
    | error fault =>
      rw [heffect] at h
      exact absurd rfl h
    | ok effect => rfl

/-! ### A machine for one word -/

/-- A machine with a word at its program counter, one in a register and zeros in the
others. -/
def probe (word : Word) (r : Reg) : Machine where
  registers :=
    { Registers.set ⟨Segment.program.base, 0, 0, .replicate 32 0⟩ r 1 with saved := none }
  memory := Memory.zeros.set ⟨.program, 0⟩ .word word
  console := .empty
  config := {}

/-- The machine is about to execute the word. -/
theorem read_probe (word : Word) (r : Reg) :
    (probe word r).memory.read (probe word r).registers.pc .word = .ok word := by
  have hplace : Place.ofAccess Segment.program.base .word = .ok ⟨.program, 0⟩ := rfl
  exact Memory.read_word_of_write (Memory.write_eq_ok_iff.mpr ⟨_, hplace, rfl⟩)

/-- The chosen register of the machine holds one. -/
theorem get_probe_self (word : Word) (r : Reg) : (probe word r).registers.get r = 1 :=
  Registers.get_set_self _ r 1

/-- All other registers hold zero. -/
theorem get_probe_of_ne (word : Word) {r s : Reg} (h : r ≠ s) :
    (probe word r).registers.get s = 0 := by
  refine (Registers.get_set_of_ne _ 1 h).trans ?_
  simp [Registers.get]

end Machine

end MiniMips
