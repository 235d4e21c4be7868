import MiniMips.Proofs.Alu
import MiniMips.Proofs.Machine.Step

/-!
# `MiniMips.Proofs.Machine.InPlace`: a step, one assignment at a time

`Machine.step` comes to one effect and carries it out, so no fault can come in the middle of
a change. The textbook way is to work on the machine in place: to send every computation
through the control codes of the arithmetic unit, to number the registers, to assign one
part of the machine after the other, and to stop where one of these is refused. What was
assigned before the fault stays assigned. This module defines that way and proves that the
two agree,

    machine.stepInPlace = machine.step

so that a fault always comes before the first assignment of an instruction.

* `alu_control`, `RegisterFile.read_toNat`, `RegisterFile.write_toNat`: the arithmetic unit
  and the register file refuse nothing that an instruction asks of them.
* `RegisterOp.exec_perform`, `Opcode.exec_perform`, `Instruction.exec_perform`: an operation
  in place is its effect, carried out.
* `stepInPlace_eq_step`: both ways agree.
-/

set_option autoImplicit false

namespace MiniMips

open Text

/-! ### Computations on a machine -/

/-- A computation on a machine that comes to a result or stops with a fault. A fault takes
nothing back. -/
abbrev Engine (α : Type) := ExceptT Fault (StateM Machine) α

namespace Engine

variable {α β : Type}

/-- The result of a computation and the machine that it leaves. -/
def exec (engine : Engine α) (machine : Machine) : Except Fault α × Machine :=
  (ExceptT.run engine).run machine

/-- A result that may be a fault. -/
def attempt (result : Except Fault α) : Engine α :=
  ExceptT.mk (pure result)

/-- The value of the register with an index. -/
def readRegister (index : Nat) : Engine Word := do
  attempt ((← get).registers.read index)

/-- Assigns the register with an index. -/
def writeRegister (index : Nat) (value : Word) : Engine Unit := do
  let registers ← attempt ((← get).registers.write index value)
  modify ({ · with registers := registers })

/-- Assigns HI. -/
def setHi (value : Word) : Engine Unit :=
  modify fun machine => { machine with registers.hi := value }

/-- Assigns LO. -/
def setLo (value : Word) : Engine Unit :=
  modify fun machine => { machine with registers.lo := value }

/-- Assigns the program counter. -/
def setPc (value : Word) : Engine Unit :=
  modify fun machine => { machine with registers.pc := value }

/-- The word of an access to memory. -/
def load (address : Word) (size : AccessSize) : Engine Word := do
  attempt ((← get).memory.read address size)

/-- Assigns the bytes of an access to memory. -/
def store (address : Word) (size : AccessSize) (value : Word) : Engine Unit := do
  let memory ← attempt ((← get).memory.write address size value)
  modify ({ · with memory := memory })

/-- Adds a record to the console. -/
def print (channel : Channel) (text : String) : Engine Unit :=
  modify (·.print channel text)

/-- The result of the operation that a control code of the arithmetic unit selects. -/
def compute (x y : Word) (code : Nat) : Engine Word :=
  attempt (alu x y code)

end Engine

/-! ### Instructions in place -/

open Engine

/-- A system call in place. -/
def Service.perform : Engine StepOutcome := do
  let number ← readRegister Reg.v0.toNat
  let argument ← readRegister Reg.a0.toNat
  match Service.ofNumber? number.toNat with
  | some .printInteger =>
    print .normal (decimal argument.toNat)
    return .running
  | some .printCharacter =>
    print .normal (String.singleton (characterOf argument))
    return .running
  | some .exit =>
    print .normal "program exited"
    return .halted .exit
  | none =>
    print .debug ("[DEBUG] ignored syscall service " ++ decimal number.toNat)
    return .running

/-- An operation with opcode zero in place. -/
def RegisterOp.perform (op : RegisterOp) (word : Word) (fields : Fields) :
    Engine StepOutcome := do
  let rs ← readRegister fields.rs.toNat
  let rt ← readRegister fields.rt.toNat
  let rd := fields.rd.toNat
  match op with
  | shift _ =>
    let some unit := op.aluOp? | throw (.unknownInstruction word)
    writeRegister rd (← compute rt (fields.shamt.setWidth 32) unit.control)
  | jumpRegister => setPc rs
  | syscall => return (← Service.perform)
  | moveFromHi => writeRegister rd (← get).registers.hi
  | moveFromLo => writeRegister rd (← get).registers.lo
  | multiply =>
    let product := rs.toNat * rt.toNat
    setHi (BitVec.ofNat 32 (product / 0x100000000))
    setLo (BitVec.ofNat 32 product)
  | divide =>
    if rt = 0 then
      throw .divideByZero
    setLo (rs / rt)
    setHi (rs % rt)
  | arithmetic _ =>
    let some unit := op.aluOp? | throw (.unknownInstruction word)
    writeRegister rd (← compute rs rt unit.control)
  return .running

/-- A computation on a register and an immediate value, through control codes. -/
def ImmediateOp.perform (op : ImmediateOp) (rs : Word) (fields : Fields) : Engine Word :=
  match op with
  | addi | addiu => compute rs fields.signedImmediate AluOp.add.control
  | slti | sltiu =>
    if fields.immediate.msb then pure 0
    else compute rs fields.unsignedImmediate AluOp.setLessThan.control
  | andi => compute rs fields.unsignedImmediate AluOp.and.control
  | ori => compute rs fields.unsignedImmediate AluOp.or.control
  | xori => compute rs fields.unsignedImmediate AluOp.xor.control

/-- The operation of an opcode in place. The opcode of the first group has none. -/
def Opcode.perform (opcode : Opcode) (word : Word) (fields : Fields) :
    Engine StepOutcome := do
  let pc := (← get).registers.pc
  let rs ← readRegister fields.rs.toNat
  let rt ← readRegister fields.rt.toNat
  let address := effectiveAddress rs fields.immediate
  match opcode with
  | registerFormat => throw (.unknownInstruction word)
  | primary (.branch op) =>
    if op.holds rs rt then
      setPc (branchTarget pc fields.immediate)
  | primary .jump => setPc (jumpTarget pc fields.target)
  | primary .jumpAndLink =>
    writeRegister Reg.ra.toNat pc
    setPc (jumpTarget pc fields.target)
  | primary (.immediate op) => writeRegister fields.rt.toNat (← op.perform rs fields)
  | primary .loadUpper => writeRegister fields.rt.toNat (fields.unsignedImmediate <<< 16)
  | primary (.load op) => writeRegister fields.rt.toNat (← load address op.size)
  | primary (.store op) => store address op.size rt
  return .running

/-- An instruction in place. -/
def Instruction.perform (instruction : Instruction) (word : Word) : Engine StepOutcome :=
  match instruction.operation with
  | .register op => op.perform word instruction.fields
  | .primary op => (Opcode.primary op).perform word instruction.fields

/-- The fetch in place. The program counter moves before the word is read. -/
def Engine.fetch : Engine Word := do
  let pc := (← get).registers.pc
  setPc (pc + 4)
  load pc .word

/-- The trace in place. -/
def Engine.trace (word : Word) : Engine Unit := do
  if (← get).config.debugTrace then
    print .debug ("[DEBUG] executed: " ++ disassemble word)

/-- Fetch, trace and execution in place. -/
def Engine.step : Engine StepOutcome := do
  let word ← fetch
  trace word
  if word = 0 then
    return .halted .zeroWord
  let instruction ← attempt (decode word)
  instruction.perform word

/-- The end of a step. A fault is recorded on the machine that is left. -/
def Machine.endStep : Except Fault StepOutcome × Machine → StepOutcome × Machine
  | (.ok outcome, machine) => (outcome, machine)
  | (.error fault, machine) => machine.report fault

/-- A step in place. -/
def Machine.stepInPlace (machine : Machine) : StepOutcome × Machine :=
  Machine.endStep (Engine.step.exec machine)

/-! ### What an instruction asks for is never refused -/

/-- The index of a register is never refused for reading. -/
theorem RegisterFile.read_toNat (file : RegisterFile) (r : Reg) :
    file.read r.toNat = .ok (file.get r) := by
  rw [RegisterFile.read, if_pos r.toNat_lt, BitVec.ofNat_toNat, BitVec.setWidth_eq]

/-- The index of a register is never refused for writing. -/
theorem RegisterFile.write_toNat (file : RegisterFile) (r : Reg) (value : Word) :
    file.write r.toNat value = .ok { file with toRegisters := file.set r value } := by
  rw [RegisterFile.write, if_pos r.toNat_lt, BitVec.ofNat_toNat, BitVec.setWidth_eq]

/-! ### Computations from a machine -/

namespace Engine

variable {α β : Type}

/-- A value leaves the machine as it is. -/
@[simp] theorem exec_pure (a : α) (machine : Machine) :
    (pure a : Engine α).exec machine = (.ok a, machine) := rfl

/-- A fault leaves the machine as it is. -/
@[simp] theorem exec_throw (fault : Fault) (machine : Machine) :
    (throw fault : Engine α).exec machine = (.error fault, machine) := rfl

/-- What comes next starts where the first part has ended, and does not start behind a fault. -/
@[simp] theorem exec_bind (engine : Engine α) (next : α → Engine β) (machine : Machine) :
    (engine >>= next).exec machine =
      match engine.exec machine with
      | (.ok a, after) => (next a).exec after
      | (.error fault, after) => (.error fault, after) := by
  show (ExceptT.run (engine >>= next)).run machine = _
  rw [ExceptT.run_bind]
  unfold exec
  simp only [StateT.run_bind]
  cases (ExceptT.run engine).run machine with
  | mk result after => cases result <;> rfl

/-- A function of the value leaves the machine to the computation of the value. -/
@[simp] theorem exec_map (f : α → β) (engine : Engine α) (machine : Machine) :
    (f <$> engine).exec machine =
      match engine.exec machine with
      | (.ok a, after) => (.ok (f a), after)
      | (.error fault, after) => (.error fault, after) := by
  rw [← bind_pure_comp, exec_bind]
  rfl

/-- The machine can be looked at. -/
@[simp] theorem exec_get (machine : Machine) :
    (get : Engine Machine).exec machine = (.ok machine, machine) := rfl

/-- A result that can be a fault does not change the machine. -/
@[simp] theorem exec_attempt (result : Except Fault α) (machine : Machine) :
    (attempt result).exec machine = (result, machine) := rfl

/-- A register is read through its index, which exists. -/
@[simp] theorem exec_readRegister (r : Reg) (machine : Machine) :
    (readRegister r.toNat).exec machine = (.ok (machine.registers.get r), machine) := by
  simp [readRegister, RegisterFile.read_toNat]

/-- Writing a register through its index is the effect that writes the register. -/
@[simp] theorem exec_writeRegister (r : Reg) (value : Word) (machine : Machine) :
    (writeRegister r.toNat value).exec machine
      = (.ok (), (Effect.writeRegister r value).apply machine) := by
  simp [writeRegister, RegisterFile.write_toNat]
  rfl

/-- Setting the program counter is the effect of a jump. -/
@[simp] theorem exec_setPc (value : Word) (machine : Machine) :
    (setPc value).exec machine = (.ok (), (Effect.jump value).apply machine) := rfl

/-- HI is set without LO. -/
@[simp] theorem exec_setHi (value : Word) (machine : Machine) :
    (setHi value).exec machine = (.ok (), { machine with registers.hi := value }) := rfl

/-- LO is set without HI, so the effect that writes both is made of two assignments. -/
@[simp] theorem exec_setLo (value : Word) (machine : Machine) :
    (setLo value).exec machine = (.ok (), { machine with registers.lo := value }) := rfl

/-- A record is printed as the machine prints it. -/
@[simp] theorem exec_print (channel : Channel) (text : String) (machine : Machine) :
    (print channel text).exec machine = (.ok (), machine.print channel text) := rfl

/-- A load is a read of memory. -/
@[simp] theorem exec_load (address : Word) (size : AccessSize) (machine : Machine) :
    (load address size).exec machine = (machine.memory.read address size, machine) := by
  simp [load]

/-- The arithmetic unit knows the control codes of its operations, so it computes. -/
@[simp] theorem exec_compute (op : AluOp) (x y : Word) (machine : Machine) :
    (compute x y op.control).exec machine = (.ok (op.apply x y), machine) := by
  simp [compute, alu_control]

/-- A store is the effect of a store, and refused where its access is. -/
@[simp] theorem exec_store (address : Word) (size : AccessSize) (value : Word)
    (machine : Machine) :
    (store address size value).exec machine =
      match Place.ofAccess address size with
      | .ok place => (.ok (), (Effect.store place size value).apply machine)
      | .error fault => (.error fault, machine) := by
  simp only [store, exec_bind, exec_get, exec_attempt, Memory.write]
  cases Place.ofAccess address size <;> rfl

end Engine

/-! ### Both ways agree -/

/-- An effect carried out, or a fault that leaves the machine as it is. -/
def Machine.carryOut (machine : Machine) : Except Fault Effect → Except Fault StepOutcome × Machine
  | .ok effect => (.ok effect.outcome, effect.apply machine)
  | .error fault => (.error fault, machine)

/-- A system call in place is its effect, carried out. -/
theorem Service.exec_perform (machine : Machine) :
    Service.perform.exec machine =
      machine.carryOut
        (.ok (systemCall (machine.registers.get .v0) (machine.registers.get .a0))) := by
  simp only [Service.perform, exec_bind, exec_readRegister, Machine.carryOut, systemCall]
  cases Service.ofNumber? (machine.registers.get .v0).toNat with
  | none => rfl
  | some service => cases service <;> rfl

/-- An operation with opcode zero in place is its effect, carried out. -/
theorem RegisterOp.exec_perform (op : RegisterOp) (word : Word) (fields : Fields)
    (machine : Machine) :
    (op.perform word fields).exec machine =
      machine.carryOut (op.effect fields machine.registers.toRegisters) := by
  cases op with
  | syscall => simp [perform, effect, Service.exec_perform]
  | divide =>
    by_cases hzero : machine.registers.get fields.rt = 0#32
    · simp [perform, effect, Machine.carryOut, hzero]
    · simp [perform, effect, Machine.carryOut, Effect.outcome, Effect.apply, hzero]
  | _ => simp [perform, aluOp?, effect, Machine.carryOut, Effect.outcome, Effect.apply]

/-- A computation on an immediate value in place. -/
@[simp] theorem ImmediateOp.exec_perform (op : ImmediateOp) (rs : Word) (fields : Fields)
    (machine : Machine) :
    (op.perform rs fields).exec machine = (.ok (op.apply rs fields.immediate), machine) := by
  cases op with
  | slti | sltiu =>
    by_cases hneg : fields.immediate.msb
    · simp [perform, apply, setLessThanImmediate, hneg]
    · simp [perform, apply, setLessThanImmediate, hneg, Fields.unsignedImmediate]
  | _ => simp [perform, apply, Fields.signedImmediate, Fields.unsignedImmediate]

/-- Any other operation in place is its effect, carried out. -/
theorem Opcode.exec_perform (op : PrimaryOp) (word : Word) (fields : Fields)
    (machine : Machine) :
    ((Opcode.primary op).perform word fields).exec machine =
      machine.carryOut (op.effect fields machine.registers.toRegisters machine.memory) := by
  cases op with
  | branch op =>
    by_cases htaken :
        op.holds (machine.registers.get fields.rs) (machine.registers.get fields.rt)
    · simp [perform, PrimaryOp.effect, Machine.carryOut, Effect.outcome, htaken]
    · simp [perform, PrimaryOp.effect, Machine.carryOut, Effect.outcome, Effect.apply, htaken]
  | load op =>
    -- The read comes before the assignment, so its fault finds the machine as it was.
    cases hread : machine.memory.read
        (effectiveAddress (machine.registers.get fields.rs) fields.immediate) op.size <;>
      simp [perform, PrimaryOp.effect, Machine.carryOut, Effect.outcome, hread]
  | store op =>
    cases hplace : Place.ofAccess
        (effectiveAddress (machine.registers.get fields.rs) fields.immediate) op.size <;>
      simp [perform, PrimaryOp.effect, Machine.carryOut, Effect.outcome, hplace]
  | _ =>
    simp [perform, PrimaryOp.effect, Machine.carryOut, Effect.outcome, Effect.apply,
      Fields.unsignedImmediate]

/-- An instruction in place is its effect, carried out. -/
theorem Instruction.exec_perform (instruction : Instruction) (word : Word)
    (machine : Machine) :
    (instruction.perform word).exec machine =
      machine.carryOut
        (instruction.effect machine.registers.toRegisters machine.memory) := by
  obtain ⟨op, fields⟩ := instruction
  cases op with
  | register op => exact op.exec_perform word fields machine
  | primary op => exact Opcode.exec_perform op word fields machine

/-- The fetch in place is the fetch. -/
theorem Engine.exec_fetch (machine : Machine) : Engine.fetch.exec machine = machine.fetch := by
  simp only [Engine.fetch, exec_bind, exec_get, exec_setPc, exec_load]
  rfl

/-- The trace in place is the trace. -/
theorem Engine.exec_trace (word : Word) (machine : Machine) :
    (Engine.trace word).exec machine = (.ok (), machine.trace word) := by
  by_cases htrace : machine.config.debugTrace <;>
    simp [Engine.trace, Machine.trace, htrace]

/-- Carrying out the effect of a word and reporting its fault is the execution of the word. -/
theorem Machine.endStep_carryOut (machine : Machine) (word : Word) :
    endStep (machine.carryOut (machine.effectOf word)) = machine.execute word := by
  unfold execute
  cases machine.effectOf word <;> rfl

/-- A step in place and a step by effects are the same. -/
theorem Machine.stepInPlace_eq_step (machine : Machine) :
    machine.stepInPlace = machine.step := by
  unfold stepInPlace step
  rw [Engine.step, exec_bind, exec_fetch]
  cases hread : machine.memory.read machine.registers.pc .word with
  | error fault =>
    simp only [fetch, hread]
    rfl
  | ok word =>
    simp only [fetch, hread, exec_bind, exec_trace]
    by_cases hword : word = 0
    · rw [if_pos hword, if_pos hword]
      rfl
    · rw [if_neg hword, if_neg hword, exec_bind, exec_attempt, ← endStep_carryOut, effectOf]
      -- A word that is not decoded stops before anything is performed.
      cases decode word with
      | error fault => rfl
      | ok instruction =>
        exact congrArg endStep (instruction.exec_perform word _)

end MiniMips
