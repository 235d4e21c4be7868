import MiniMips.Proofs.Machine.Effect
import MiniMips.Proofs.Machine.InPlace

/-!
# `MiniMips.Proofs.Machine.Frame`: what a step leaves alone

A step changes the machine in two places. Before the execution the fetch moves the program
counter and the trace adds a record. The execution then carries out one effect or reports a
fault. The theorems say that nothing else changes.

They are read backwards. A changed part of the machine tells the effect
(`Effect.eq_of_get_ne` and its siblings), and an effect tells the word that it comes from
(`Instruction.origin_of_effect`). So no theorem here looks at all operations.

* `Effect.eq_of_get_ne`, `Effect.eq_of_hiLo_ne`, `Effect.eq_of_pc_ne` and
  `Effect.eq_of_memory_ne`: the effects that change a part of the machine.
* `Instruction.exec_perform_of_error`: a fault comes before the first assignment.
* `step_atomic`: a step with a fault leaves the machine as it was, but for the program
  counter and the console.
* `Machine.footprint_apply`: an effect stays inside the footprint of its word.
* `step_footprint`: so every step stays inside the footprint of its word.
-/

set_option autoImplicit false

namespace MiniMips

/-! ### Records are only added -/

/-- A new record is the last one. -/
theorem Console.toList_print (console : Console) (channel : Channel) (text : String) :
    (console.print channel text).records.toList
      = console.records.toList ++ [⟨channel, text⟩] :=
  Array.toList_push

/-- The records of a step before its execution: the fetched word, if there is one and the
machine is configured to keep it. -/
def Machine.traceRecords (machine : Machine) : List ConsoleRecord :=
  match machine.memory.read machine.registers.pc .word with
  | .ok word =>
    if machine.config.debugTrace then
      [⟨.debug, "[DEBUG] executed: " ++ disassemble word⟩]
    else []
  | .error _ => []

/-- Fetch and trace add the record of the fetched word, if it is kept. -/
theorem Machine.toList_trace {machine : Machine} {word : Word}
    (hread : machine.memory.read machine.registers.pc .word = .ok word) :
    (machine.advance.trace word).console.records.toList
      = machine.console.records.toList ++ machine.traceRecords := by
  rw [traceRecords, hread, trace, advance_config]
  by_cases htrace : machine.config.debugTrace
  · rw [if_pos htrace]
    simp only [htrace, if_true]
    exact Console.toList_print _ _ _
  · rw [if_neg htrace]
    simp only [htrace]
    exact (List.append_nil _).symm

/-! ### The effects that change a part of the machine -/

namespace Effect

variable {effect : Effect} {machine : Machine}

/-- No effect changes the configuration. -/
@[simp] theorem apply_config (effect : Effect) (machine : Machine) :
    (effect.apply machine).config = machine.config := by
  cases effect <;> rfl

/-- No effect changes the saved registers. -/
@[simp] theorem apply_saved (effect : Effect) (machine : Machine) :
    (effect.apply machine).registers.saved = machine.registers.saved := by
  cases effect <;> rfl

/-- Records are only added. -/
theorem records_prefix_apply (effect : Effect) (machine : Machine) :
    machine.console.records.toList <+: (effect.apply machine).console.records.toList := by
  cases effect with
  | print | exit => exact ⟨_, (Console.toList_print _ _ _).symm⟩
  | _ => exact List.prefix_rfl

/-- A general register changes by the effect that writes it, or by a link, which writes `$ra`. -/
theorem eq_of_get_ne {r : Reg}
    (h : (effect.apply machine).registers.get r ≠ machine.registers.get r) :
    (∃ value, effect = .writeRegister r value)
      ∨ ∃ returnAddress target, effect = .link returnAddress target ∧ r = .ra := by
  cases effect with
  | writeRegister s value =>
    by_cases hs : s = r
    · exact .inl ⟨value, by rw [hs]⟩
    · exact absurd (Registers.get_set_of_ne _ value hs) h
  | link returnAddress target =>
    by_cases hr : Reg.ra = r
    · exact .inr ⟨returnAddress, target, rfl, hr.symm⟩
    · exact absurd (Registers.get_set_of_ne machine.registers.toRegisters returnAddress hr) h
  | _ => exact absurd rfl h

/-- HI and LO change by the one effect that writes both. -/
theorem eq_of_hiLo_ne
    (h : (effect.apply machine).registers.hi ≠ machine.registers.hi
      ∨ (effect.apply machine).registers.lo ≠ machine.registers.lo) :
    ∃ hi lo, effect = .writeHiLo hi lo := by
  cases effect with
  | writeHiLo hi lo => exact ⟨hi, lo, rfl⟩
  | _ => exact (h.elim (absurd rfl) (absurd rfl))

/-- The program counter changes by a jump, with a link or without one. -/
theorem eq_of_pc_ne (h : (effect.apply machine).registers.pc ≠ machine.registers.pc) :
    (∃ target, effect = .jump target)
      ∨ ∃ returnAddress target, effect = .link returnAddress target := by
  cases effect with
  | jump target => exact .inl ⟨target, rfl⟩
  | link returnAddress target => exact .inr ⟨returnAddress, target, rfl⟩
  | _ => exact absurd rfl h

/-- Memory changes by a store. -/
theorem eq_of_memory_ne (h : (effect.apply machine).memory ≠ machine.memory) :
    ∃ place size value, effect = .store place size value := by
  cases effect with
  | store place size value => exact ⟨place, size, value, rfl⟩
  | _ => exact absurd rfl h

end Effect

/-! ### A step with a fault -/

/-- A fault in place comes before the first assignment. -/
theorem Instruction.exec_perform_of_error (instruction : Instruction) (word : Word)
    {machine after : Machine} {fault : Fault}
    (h : (instruction.perform word).exec machine = (.error fault, after)) : after = machine := by
  rw [Instruction.exec_perform] at h
  cases heffect : instruction.effect machine.registers.toRegisters machine.memory with
  | ok effect =>
    rw [heffect] at h
    cases h
  | error found =>
    rw [heffect] at h
    cases h
    rfl

/-- Whether a machine is as it was, but for a program counter that has moved by one word and
the records of a step with a fault. -/
structure Machine.OnlyReported (machine : Machine) (fault : Fault) (after : Machine) :
    Prop where
  registers : after.registers = { machine.registers with pc := machine.registers.pc + 4 }
  memory : after.memory = machine.memory
  config : after.config = machine.config
  records : after.console.records.toList =
    machine.console.records.toList ++ machine.traceRecords
      ++ [⟨.error, "[ERROR] " ++ fault.message⟩]

namespace Machine

variable {machine : Machine} {word : Word} {fault : Fault}

/-- A failed fetch moves the program counter and is reported, and that is all. -/
theorem onlyReported_of_read_error
    (hread : machine.memory.read machine.registers.pc .word = .error fault) :
    machine.OnlyReported fault machine.step.2 := by
  rw [step_of_read_error hread]
  refine ⟨rfl, rfl, rfl, ?_⟩
  rw [traceRecords, hread, List.append_nil]
  exact Console.toList_print _ _ _

/-- The only faults after a fetch are those of the effect, which comes before its change. -/
theorem onlyReported_of_read (hread : machine.memory.read machine.registers.pc .word = .ok word)
    (h : machine.step.1 = .faulted fault) : machine.OnlyReported fault machine.step.2 := by
  rw [step_of_read hread] at h ⊢
  by_cases hword : word = 0
  · rw [if_pos hword] at h
    cases h
  rw [if_neg hword] at h ⊢
  cases heffect : (machine.advance.trace word).effectOf word with
  -- An effect never comes out as a fault, so the fault of this step is that of computing it.
  | ok effect =>
    rw [execute_of_effectOf heffect] at h
    exact absurd h (effect.outcome_ne_faulted fault)
  | error found =>
    rw [execute_of_fault heffect] at h ⊢
    cases h
    refine ⟨trace_registers _ word, trace_memory _ word, trace_config _ word, ?_⟩
    rw [← toList_trace hread]
    exact Console.toList_print _ _ _

end Machine

/-- A step with a fault is atomic. It leaves all registers, memory and the configuration as
they were, moves the program counter behind the word and adds its records. In place, too, a
fault comes before the first assignment. -/
theorem step_atomic (machine : Machine) :
    (∀ fault, machine.step.1 = .faulted fault → machine.OnlyReported fault machine.step.2)
      ∧ machine.step = machine.stepInPlace
      ∧ ∀ (instruction : Instruction) (word : Word) (state after : Machine) (fault : Fault),
        (instruction.perform word).exec state = (.error fault, after) → after = state := by
  refine ⟨fun fault h => ?_, machine.stepInPlace_eq_step.symm,
    fun instruction word state after fault h => instruction.exec_perform_of_error word h⟩
  cases hread : machine.memory.read machine.registers.pc .word with
  | ok word => exact Machine.onlyReported_of_read hread h
  | error found =>
    have hstep := Machine.step_of_read_error hread
    rw [hstep] at h
    cases h
    exact Machine.onlyReported_of_read_error hread

/-- A load into its own base register, whose address wraps to the last one. -/
theorem step_atomic_load :
    (Machine.probe 0x8C21FFFE 1).step.1 = .faulted (.unmappedAddress 0xFFFFFFFF)
      ∧ (Machine.probe 0x8C21FFFE 1).OnlyReported (.unmappedAddress 0xFFFFFFFF)
        (Machine.probe 0x8C21FFFE 1).step.2
      ∧ ∃ after, (Instruction.perform ⟨.primary (.load .lw), Fields.ofWord 0x8C21FFFE⟩
            0x8C21FFFE).exec (Machine.probe 0x8C21FFFE 1)
              = (.error (.unmappedAddress 0xFFFFFFFF), after)
          ∧ after = Machine.probe 0x8C21FFFE 1 := by
  have hfault : (Machine.probe 0x8C21FFFE 1).step.1 = .faulted (.unmappedAddress 0xFFFFFFFF) := by
    decide +kernel
  have hperform : (Instruction.perform ⟨.primary (.load .lw), Fields.ofWord 0x8C21FFFE⟩
      0x8C21FFFE).exec (Machine.probe 0x8C21FFFE 1)
        = (.error (.unmappedAddress 0xFFFFFFFF), Machine.probe 0x8C21FFFE 1) := rfl
  obtain ⟨hstep, -, hinplace⟩ := step_atomic (.probe 0x8C21FFFE 1)
  exact ⟨hfault, hstep _ hfault, _, hperform, hinplace _ _ _ _ _ hperform⟩

/-! ### The footprint of a word -/

/-- The general register that a word may write. -/
def destination? (word : Word) : Option Reg :=
  (Fields.ofWord word).operation?.bind (·.destination? (Fields.ofWord word))

/-- Whether a step on a fetched word has changed only what the word may change. -/
structure Machine.Footprint (machine : Machine) (word : Word) (after : Machine) : Prop where
  config : after.config = machine.config
  saved : after.registers.saved = machine.registers.saved
  /-- Bytes change only in the access of a store. -/
  memory : ∀ address : Word,
    after.memory.read address .byte ≠ machine.memory.read address .byte →
      ∃ store : StoreOp, (Fields.ofWord word).operation? = some (.primary (.store store))
        ∧ ∃ i < store.width.bytes, address =
          machine.registers.get (Fields.ofWord word).rs
            + (Fields.ofWord word).immediate.signExtend 32 + BitVec.ofNat 32 i
  /-- HI and LO change only by a product, or by a quotient that exists. -/
  hiLo : after.registers.hi ≠ machine.registers.hi ∨ after.registers.lo ≠ machine.registers.lo →
    (Fields.ofWord word).operation? = some (.register .multiply)
      ∨ (Fields.ofWord word).operation? = some (.register .divide)
        ∧ machine.registers.get (Fields.ofWord word).rt ≠ 0
  general : ∀ r, after.registers.get r ≠ machine.registers.get r → destination? word = some r
  /-- The program counter leaves the next word only by a jump or a taken branch. -/
  pc : after.registers.pc ≠ machine.registers.pc + 4 →
    (Fields.ofWord word).operation? = some (.register .jumpRegister)
      ∨ (Fields.ofWord word).operation? = some (.primary .jump)
      ∨ (Fields.ofWord word).operation? = some (.primary .jumpAndLink)
      ∨ ∃ branch : BranchOp,
        (Fields.ofWord word).operation? = some (.primary (.branch branch))
          ∧ branch.holds (machine.registers.get (Fields.ofWord word).rs)
            (machine.registers.get (Fields.ofWord word).rt)
  records : machine.console.records.toList <+: after.console.records.toList

namespace Machine

variable {machine : Machine} {word : Word}

/-- The origin of an effect that a fetched word asks for. -/
theorem exists_origin_of_effectOf {effect : Effect}
    (h : (machine.advance.trace word).effectOf word = .ok effect) :
    ∃ op, (Fields.ofWord word).operation? = some op
      ∧ Instruction.Origin op (Fields.ofWord word) machine.registers.toRegisters effect := by
  obtain ⟨op, hop, heffect⟩ := exists_effect_of_effectOf h
  rw [trace_registers] at heffect
  refine ⟨op, hop, ?_⟩
  -- An origin looks at general registers, which the fetch does not move.
  have horigin := Instruction.origin_of_effect heffect
  cases effect <;> exact horigin

/-- A step that changes nothing behind the fetch has every footprint. -/
theorem footprint_of_registers_eq {after : Machine}
    (hregisters : after.registers = machine.advance.registers)
    (hmemory : after.memory = machine.memory) (hconfig : after.config = machine.config)
    (hrecords : machine.console.records.toList <+: after.console.records.toList) :
    machine.Footprint word after where
  config := hconfig
  saved := by rw [hregisters]; rfl
  memory address h := absurd (by rw [hmemory]) h
  hiLo h := by
    rw [hregisters] at h
    exact h.elim (absurd rfl) (absurd rfl)
  general r h := by
    rw [hregisters] at h
    exact absurd rfl h
  pc h := by
    rw [hregisters] at h
    exact absurd rfl h
  records := hrecords

/-- An effect stays inside the footprint of its word. -/
theorem footprint_apply {op : Operation} {effect : Effect}
    (hread : machine.memory.read machine.registers.pc .word = .ok word)
    (hop : (Fields.ofWord word).operation? = some op)
    (horigin :
      Instruction.Origin op (Fields.ofWord word) machine.registers.toRegisters effect) :
    machine.Footprint word (effect.apply (machine.advance.trace word)) where
  config := by simp
  saved := by
    rw [Effect.apply_saved, trace_registers]
    rfl
  memory address h := by
    have hmemory : (effect.apply (machine.advance.trace word)).memory
        ≠ (machine.advance.trace word).memory := by
      intro heq
      rw [heq, trace_memory] at h
      exact h rfl
    obtain ⟨place, size, value, rfl⟩ := Effect.eq_of_memory_ne hmemory
    obtain ⟨store, rfl, rfl, hplace⟩ := horigin
    simp only [Effect.apply, trace_memory, advance_memory] at h
    exact ⟨store, hop, Memory.exists_eq_add_of_read_byte_ne hplace h⟩
  hiLo h := by
    have hchanged : (effect.apply (machine.advance.trace word)).registers.hi
          ≠ (machine.advance.trace word).registers.hi
        ∨ (effect.apply (machine.advance.trace word)).registers.lo
          ≠ (machine.advance.trace word).registers.lo := by
      rw [trace_registers]
      exact h
    obtain ⟨hi, lo, rfl⟩ := Effect.eq_of_hiLo_ne hchanged
    rcases horigin with rfl | ⟨rfl, hdivisor⟩
    · exact .inl hop
    · exact .inr ⟨hop, hdivisor⟩
  general r h := by
    -- The fetch moves no general register, so the effect has changed this one.
    have hchanged : (effect.apply (machine.advance.trace word)).registers.get r
        ≠ (machine.advance.trace word).registers.get r := by
      rw [trace_registers]
      exact h
    rcases Effect.eq_of_get_ne hchanged with
      ⟨value, rfl⟩ | ⟨returnAddress, target, rfl, rfl⟩
    · rw [destination?, hop]
      exact horigin
    · cases horigin
      rw [destination?, hop]
      rfl
  pc h := by
    -- The fetch has moved the program counter to the next word, so the rest is a jump.
    have hchanged : (effect.apply (machine.advance.trace word)).registers.pc
        ≠ (machine.advance.trace word).registers.pc := by
      rw [trace_registers]
      exact h
    rcases Effect.eq_of_pc_ne hchanged with ⟨target, rfl⟩ | ⟨returnAddress, target, rfl⟩
    · rcases horigin with rfl | rfl | ⟨branch, rfl, htaken⟩
      · exact .inl hop
      · exact .inr (.inl hop)
      · exact .inr (.inr (.inr ⟨branch, hop, htaken⟩))
    · cases horigin
      exact .inr (.inr (.inl hop))
  records := by
    refine List.IsPrefix.trans ?_ (effect.records_prefix_apply _)
    rw [toList_trace hread]
    exact List.prefix_append _ _

end Machine

/-- Every step stays inside the footprint of its word, whether the word is an instruction or
not. -/
theorem step_footprint {machine : Machine} {word : Word}
    (hread : machine.memory.read machine.registers.pc .word = .ok word) :
    machine.Footprint word machine.step.2 := by
  have hrecords : machine.console.records.toList
      <+: (machine.advance.trace word).console.records.toList := by
    rw [Machine.toList_trace hread]
    exact List.prefix_append _ _
  rw [Machine.step_of_read hread]
  by_cases hword : word = 0
  · -- A word of zeros is fetched and traced, and nothing more.
    rw [if_pos hword]
    exact Machine.footprint_of_registers_eq (by simp) (by simp) (by simp) hrecords
  rw [if_neg hword]
  cases heffect : (machine.advance.trace word).effectOf word with
  | ok effect =>
    rw [Machine.execute_of_effectOf heffect]
    obtain ⟨op, hop, horigin⟩ := Machine.exists_origin_of_effectOf heffect
    exact Machine.footprint_apply hread hop horigin
  | error fault =>
    rw [Machine.execute_of_fault heffect]
    refine Machine.footprint_of_registers_eq (by simp) (by simp) (by simp)
      (hrecords.trans ?_)
    exact ⟨_, (Console.toList_print _ _ _).symm⟩

/-- A branch that is taken, so the program counter leaves the next word. -/
theorem step_footprint_branch :
    (Machine.probe 0x14200001 1).memory.read (Machine.probe 0x14200001 1).registers.pc .word
        = .ok 0x14200001
      ∧ (Machine.probe 0x14200001 1).Footprint 0x14200001 (Machine.probe 0x14200001 1).step.2 :=
  ⟨Machine.read_probe _ _, step_footprint (Machine.read_probe _ _)⟩

end MiniMips
