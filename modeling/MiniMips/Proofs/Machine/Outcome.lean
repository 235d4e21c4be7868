import MiniMips.Proofs.Machine.Effect
import MiniMips.Proofs.Machine.InPlace
import MiniMips.Proofs.Memory.Flat

/-!
# `MiniMips.Proofs.Machine.Outcome`: how a step ends, and why

A step goes on, ends the program or faults. Each end has one cause, which the fetched word
and the machine before the step decide. `Machine.FaultsWith` says which fault a word has, and
`Machine.Classified` puts all ends and their causes side by side. A cause is stated on the
machine before the fetch, so the lemmas on the execution are moved back over fetch and trace
(`Machine.faultsWith_fetched`). The theorems:

* `Fields.operation?_eq_none_iff`: the codes that are not assigned.
* `Machine.effectOf_eq_error_iff`: the faults of a word, `Machine.FaultsWith`.
* `Machine.step_eq_faulted_iff`, `Machine.step_eq_exit_iff` and
  `Machine.step_eq_zeroWord_iff`: the ends of a step.
* `Instruction.exec_perform_error`: a decoded word meets no other fault, even where control
  codes, indices and opcodes can be refused.
* `step_classified`: all ends of a step, and all that can happen in it.
-/

set_option autoImplicit false

namespace MiniMips

/-! ### Words that are no instruction -/

/-- Whether no operation has the codes of a word. -/
def Fields.Unassigned (fields : Fields) : Prop :=
  (∀ opcode : Opcode, opcode.code ≠ fields.opcode.toNat)
    ∨ fields.opcode.toNat = 0 ∧ ∀ op : RegisterOp, op.code ≠ fields.funct.toNat

/-- A number without an opcode is none of the assigned ones. -/
theorem Opcode.ofCode?_eq_none_iff {code : Nat} :
    Opcode.ofCode? code = none ↔ ∀ opcode : Opcode, opcode.code ≠ code := by
  simp [Option.eq_none_iff_forall_ne_some, Opcode.ofCode?_eq_some_iff]

/-- A number without a function is none of the assigned ones. -/
theorem RegisterOp.ofCode?_eq_none_iff {code : Nat} :
    RegisterOp.ofCode? code = none ↔ ∀ op : RegisterOp, op.code ≠ code := by
  simp [Option.eq_none_iff_forall_ne_some, RegisterOp.ofCode?_eq_some_iff]

/-- The words without an operation are those with unassigned codes. -/
theorem Fields.operation?_eq_none_iff {fields : Fields} :
    fields.operation? = none ↔ fields.Unassigned := by
  unfold Fields.operation? Fields.Unassigned
  rw [← Opcode.ofCode?_eq_none_iff, ← RegisterOp.ofCode?_eq_none_iff]
  cases hopcode : Opcode.ofCode? fields.opcode.toNat with
  | none => simp
  | some opcode =>
    have hcode := Opcode.ofCode?_eq_some_iff.mp hopcode
    cases opcode with
    | registerFormat => simp [← hcode, Opcode.code]
    | primary op =>
      -- Only the opcode of the first group is zero.
      have hpos : op.code ≠ 0 := by
        have h : ∀ op ∈ PrimaryOp.all, op.code ≠ 0 := by decide
        exact h op op.mem_all
      simp [← hcode, Opcode.code, hpos]

/-! ### The causes -/

namespace Machine

/-- Whether a word divides by a register that holds zero. -/
def DividesByZero (machine : Machine) (word : Word) : Prop :=
  (Fields.ofWord word).operation? = some (.register .divide)
    ∧ machine.registers.get (Fields.ofWord word).rt = 0

/-- Whether a word loads or stores, and memory refuses its access with a fault. Bytes and
words are accessed at the sum of the base register and the immediate value with its sign. -/
def AccessFails (machine : Machine) (word : Word) (fault : Fault) : Prop :=
  let fields := Fields.ofWord word
  let address := machine.registers.get fields.rs + fields.immediate.signExtend 32
  (∃ load : LoadOp, fields.operation? = some (.primary (.load load))
      ∧ machine.memory.read address load.width = .error fault)
    ∨ ∃ store : StoreOp, fields.operation? = some (.primary (.store store))
      ∧ machine.memory.write address store.width (machine.registers.get fields.rt)
        = .error fault

/-- Whether a word asks for the end of the program. -/
def CallsExit (machine : Machine) (word : Word) : Prop :=
  (Fields.ofWord word).operation? = some (.register .syscall)
    ∧ machine.registers.get .v0 = 10

/-- Whether a fetched word has a fault. -/
def FaultsWith (machine : Machine) (word : Word) (fault : Fault) : Prop :=
  (Fields.ofWord word).Unassigned ∧ fault = .unknownInstruction word
    ∨ machine.DividesByZero word ∧ fault = .divideByZero
    ∨ machine.AccessFails word fault

/-- The faults of a word are those of the cases. -/
theorem effectOf_eq_error_iff {machine : Machine} {word : Word} {fault : Fault} :
    machine.effectOf word = .error fault ↔ machine.FaultsWith word fault := by
  unfold FaultsWith DividesByZero AccessFails effectOf
  rw [← Fields.operation?_eq_none_iff]
  cases hop : (Fields.ofWord word).operation? with
  | none => simp [decode, hop, eq_comm]
  | some op =>
    simp only [decode, hop]
    rw [Instruction.effect_eq_error_iff]
    simp [effectiveAddress, and_assoc]

/-- The words that end the program are the system calls of service ten. -/
theorem effectOf_eq_exit_iff {machine : Machine} {word : Word} :
    machine.effectOf word = .ok .exit ↔ machine.CallsExit word := by
  unfold CallsExit effectOf
  cases hop : (Fields.ofWord word).operation? with
  | none => simp [decode, hop]
  | some op =>
    simp only [decode, hop]
    rw [Instruction.effect_eq_exit_iff]
    simp

/-! ### The ends of a step -/

/-- Fetch and trace change nothing that a cause looks at. -/
theorem faultsWith_fetched {machine : Machine} {word : Word} {fault : Fault} :
    (machine.advance.trace word).FaultsWith word fault ↔ machine.FaultsWith word fault := by
  simp [FaultsWith, DividesByZero, AccessFails]

/-- The number of the service is not changed by fetch and trace either. -/
theorem callsExit_fetched {machine : Machine} {word : Word} :
    (machine.advance.trace word).CallsExit word ↔ machine.CallsExit word := by
  simp [CallsExit]

/-- An execution faults exactly if the word has a fault for its effect. -/
theorem execute_eq_faulted_iff {machine : Machine} {word : Word} {fault : Fault} :
    (machine.execute word).1 = .faulted fault ↔ machine.effectOf word = .error fault := by
  unfold execute
  cases machine.effectOf word <;> simp

/-- An execution ends the program exactly if the effect of its word does. -/
theorem execute_eq_exit_iff {machine : Machine} {word : Word} :
    (machine.execute word).1 = .halted .exit ↔ machine.effectOf word = .ok .exit := by
  unfold execute
  cases machine.effectOf word <;> simp

/-- No execution ends as a word of zeros ends a program. -/
theorem execute_ne_zeroWord (machine : Machine) (word : Word) :
    (machine.execute word).1 ≠ .halted .zeroWord := by
  unfold execute
  cases machine.effectOf word <;> simp

variable {machine : Machine} {word : Word}

/-- The word of zeros is a shift, so its end of the program hides no fault. -/
theorem not_faultsWith_of_eq_zero (h : word = 0) (fault : Fault) :
    ¬machine.FaultsWith word fault := by
  have hop := h ▸ operation?_zero
  simp [FaultsWith, DividesByZero, AccessFails, ← Fields.operation?_eq_none_iff, hop]

/-- The word of zeros is a shift, and no call for the end of the program. -/
theorem not_callsExit_of_eq_zero (h : word = 0) : ¬machine.CallsExit word := by
  have hop := h ▸ operation?_zero
  simp [CallsExit, hop]

/-- A step faults for the causes of its word. The word of zeros has none of them. -/
theorem step_eq_faulted_iff (hread : machine.memory.read machine.registers.pc .word = .ok word)
    {fault : Fault} : machine.step.1 = .faulted fault ↔ machine.FaultsWith word fault := by
  rw [step_of_read hread]
  by_cases hword : word = 0
  · rw [if_pos hword]
    exact iff_of_false (by simp) (not_faultsWith_of_eq_zero hword fault)
  · rw [if_neg hword, ← faultsWith_fetched, ← effectOf_eq_error_iff]
    exact execute_eq_faulted_iff

/-- A step ends the program when its word asks for it. -/
theorem step_eq_exit_iff (hread : machine.memory.read machine.registers.pc .word = .ok word) :
    machine.step.1 = .halted .exit ↔ machine.CallsExit word := by
  rw [step_of_read hread]
  by_cases hword : word = 0
  · rw [if_pos hword]
    exact iff_of_false (by simp) (not_callsExit_of_eq_zero hword)
  · rw [if_neg hword, ← callsExit_fetched, ← effectOf_eq_exit_iff]
    exact execute_eq_exit_iff

/-- A step ends the program at a word of zeros. -/
theorem step_eq_zeroWord_iff
    (hread : machine.memory.read machine.registers.pc .word = .ok word) :
    machine.step.1 = .halted .zeroWord ↔ word = 0 := by
  rw [step_of_read hread]
  by_cases hword : word = 0
  · simp [hword]
  · rw [if_neg hword]
    exact iff_of_false (execute_ne_zeroWord _ word) hword

/-- A step goes on if nothing ends it. -/
theorem step_eq_running_iff
    (hread : machine.memory.read machine.registers.pc .word = .ok word) :
    machine.step.1 = .running ↔
      word ≠ 0 ∧ (∀ fault, ¬machine.FaultsWith word fault) ∧ ¬machine.CallsExit word := by
  rw [Ne, ← step_eq_zeroWord_iff hread, ← step_eq_exit_iff hread]
  simp only [← step_eq_faulted_iff hread]
  cases machine.step.1 with
  | running => simp
  | halted reason => cases reason <;> simp
  | faulted fault => simp

/-! ### All ends of a step -/

variable {fault : Fault}

/-- An access is refused with a fault of memory. -/
theorem AccessFails.kind (h : machine.AccessFails word fault) : fault.kind = .memory := by
  rcases h with ⟨load, -, hread⟩ | ⟨store, -, hwrite⟩
  · exact Memory.kind_of_read_eq_error hread
  · exact Memory.kind_of_write_eq_error hwrite

/-- The fault of an unknown instruction has one cause, codes without an operation. -/
theorem faultsWith_unknownInstruction_iff :
    machine.FaultsWith word (.unknownInstruction word) ↔ (Fields.ofWord word).Unassigned := by
  refine ⟨fun h => ?_, fun h => .inl ⟨h, rfl⟩⟩
  -- The other causes come with other faults.
  rcases h with ⟨h, -⟩ | ⟨-, h⟩ | h
  · exact h
  · cases h
  · cases h.kind

/-- The fault of a division has one cause, a divisor of zero. -/
theorem faultsWith_divideByZero_iff :
    machine.FaultsWith word .divideByZero ↔ machine.DividesByZero word := by
  refine ⟨fun h => ?_, fun h => .inr (.inl ⟨h, rfl⟩)⟩
  rcases h with ⟨-, h⟩ | ⟨h, -⟩ | h
  · cases h
  · exact h
  · cases h.kind

/-- A fault of memory has one cause, a refused access. -/
theorem faultsWith_iff_of_kind (hkind : fault.kind = .memory) :
    machine.FaultsWith word fault ↔ machine.AccessFails word fault := by
  refine ⟨fun h => ?_, fun h => .inr (.inr h)⟩
  rcases h with ⟨-, rfl⟩ | ⟨-, rfl⟩ | h
  · cases hkind
  · cases hkind
  · exact h

/-- A word without a cause has no fault. -/
theorem forall_not_faultsWith_iff :
    (∀ fault, ¬machine.FaultsWith word fault) ↔
      ¬(Fields.ofWord word).Unassigned ∧ ¬machine.DividesByZero word
        ∧ ∀ fault, ¬machine.AccessFails word fault := by
  constructor
  · intro h
    exact ⟨mt faultsWith_unknownInstruction_iff.mpr (h _),
      mt faultsWith_divideByZero_iff.mpr (h _), fun fault => mt (.inr ∘ .inr) (h fault)⟩
  · rintro ⟨hassigned, hdivisor, haccess⟩ fault (⟨h, -⟩ | ⟨h, -⟩ | h)
    · exact hassigned h
    · exact hdivisor h
    · exact haccess fault h

end Machine

/-- A fault that an instruction meets in place. Control codes, indices and opcodes can be
refused there, and none of them ever is. -/
theorem Instruction.exec_perform_error (instruction : Instruction) (word : Word)
    (machine : Machine) {fault : Fault}
    (h : ((instruction.perform word).exec machine).1 = .error fault) :
    fault = .divideByZero ∨ fault.kind = .memory := by
  rw [Instruction.exec_perform] at h
  cases heffect : instruction.effect machine.registers.toRegisters machine.memory with
  | ok effect =>
    rw [heffect] at h
    cases h
  | error found =>
    rw [heffect] at h
    cases h
    rcases Instruction.effect_eq_error_iff.mp heffect with
      ⟨-, -, hfault⟩ | ⟨load, -, hread⟩ | ⟨store, -, hwrite⟩
    · exact .inl hfault
    · exact .inr (Memory.kind_of_read_eq_error hread)
    · exact .inr (Memory.kind_of_write_eq_error hwrite)

/-- How a step that has fetched a word ends. Each end has one cause. -/
structure Machine.Classified (machine : Machine) (word : Word) (outcome : StepOutcome) :
    Prop where
  zeroWord : outcome = .halted .zeroWord ↔ word = 0
  unknownInstruction :
    outcome = .faulted (.unknownInstruction word) ↔ (Fields.ofWord word).Unassigned
  divideByZero : outcome = .faulted .divideByZero ↔ machine.DividesByZero word
  access : ∀ fault : Fault, fault.kind = .memory →
    (outcome = .faulted fault ↔ machine.AccessFails word fault)
  exit : outcome = .halted .exit ↔ machine.CallsExit word
  running : outcome = .running ↔
    word ≠ 0 ∧ ¬(Fields.ofWord word).Unassigned ∧ ¬machine.DividesByZero word
      ∧ (∀ fault, ¬machine.AccessFails word fault) ∧ ¬machine.CallsExit word
  /-- There are no other faults. -/
  faulted : ∀ fault, outcome = .faulted fault →
    fault = .unknownInstruction word ∨ fault = .divideByZero ∨ fault.kind = .memory

/-- The end of every step over a fetched word is classified by the word. -/
theorem Machine.classified_step {machine : Machine} {word : Word}
    (hread : machine.memory.read machine.registers.pc .word = .ok word) :
    machine.Classified word machine.step.1 where
  zeroWord := step_eq_zeroWord_iff hread
  unknownInstruction := (step_eq_faulted_iff hread).trans faultsWith_unknownInstruction_iff
  divideByZero := (step_eq_faulted_iff hread).trans faultsWith_divideByZero_iff
  access fault hkind := (step_eq_faulted_iff hread).trans (faultsWith_iff_of_kind hkind)
  exit := step_eq_exit_iff hread
  running := by
    rw [step_eq_running_iff hread, forall_not_faultsWith_iff, and_assoc, and_assoc]
  faulted fault h := by
    rcases (step_eq_faulted_iff hread).mp h with ⟨-, h⟩ | ⟨-, h⟩ | h
    · exact .inl h
    · exact .inr (.inl h)
    · exact .inr (.inr h.kind)

/-- Every step ends in one of the known ways. A step that fetches no word has the fault of
the fetch, and the ends of all others are classified by their word. The step is also the one
in place, where an instruction meets no refused control code, index or opcode. -/
theorem step_classified (machine : Machine) :
    (∀ fault, machine.memory.read machine.registers.pc .word = .error fault →
        machine.step.1 = .faulted fault)
      ∧ (∀ word, machine.memory.read machine.registers.pc .word = .ok word →
        machine.Classified word machine.step.1)
      ∧ machine.step = machine.stepInPlace
      ∧ ∀ (instruction : Instruction) (word : Word) (state : Machine) (fault : Fault),
        ((instruction.perform word).exec state).1 = .error fault →
          fault = .divideByZero ∨ fault.kind = .memory := by
  refine ⟨?_, fun word hread => Machine.classified_step hread,
    machine.stepInPlace_eq_step.symm,
    fun instruction word state fault h => instruction.exec_perform_error word state h⟩
  intro fault hread
  rw [Machine.step_of_read_error hread]
  rfl

/-- A fetch outside of memory, a load whose address wraps to the last one, and a division by
zero, which is met in place too. -/
theorem step_classified_faults :
    (Machine.initial { entryPoint := 0 }).step.1 = .faulted (.unmappedAddress 0)
      ∧ (Machine.probe 0x8C28FFFE 1).step.1 = .faulted (.unmappedAddress 0xFFFFFFFF)
      ∧ (Machine.probe 0x0000001A 1).step.1 = .faulted .divideByZero
      ∧ ∃ fault, ((Instruction.perform ⟨.register .divide, Fields.ofWord 0x0000001A⟩
            0x0000001A).exec (Machine.probe 0x0000001A 1)).1 = .error fault
          ∧ (fault = .divideByZero ∨ fault.kind = .memory) := by
  have hload := (step_classified _).2.1 _ (Machine.read_probe 0x8C28FFFE 1)
  have haccess : (Machine.probe 0x8C28FFFE 1).AccessFails 0x8C28FFFE
      (.unmappedAddress 0xFFFFFFFF) :=
    .inl ⟨.lw, by decide, Memory.read_eq_error_iff.mpr (.inl ⟨by decide, rfl⟩)⟩
  have hdivide := (step_classified _).2.1 _ (Machine.read_probe 0x0000001A 1)
  have hzero : (Machine.probe 0x0000001A 1).registers.get 0 = 0 :=
    Machine.get_probe_of_ne _ (by decide)
  have hperform : ((Instruction.perform ⟨.register .divide, Fields.ofWord 0x0000001A⟩
      0x0000001A).exec (Machine.probe 0x0000001A 1)).1 = .error .divideByZero := by
    rw [Instruction.exec_perform, Instruction.effect_eq_error_iff.mpr (.inl ⟨rfl, hzero, rfl⟩)]
    rfl
  exact ⟨(step_classified _).1 _ rfl, (hload.access _ rfl).mpr haccess,
    hdivide.divideByZero.mpr ⟨by decide, hzero⟩,
    _, hperform, (step_classified (.probe 0x0000001A 1)).2.2.2 _ _ _ _ hperform⟩

end MiniMips
