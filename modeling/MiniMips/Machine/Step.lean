import MiniMips.Disassembly
import MiniMips.Machine.Basic
import MiniMips.Machine.Effect

/-!
# `MiniMips.Machine.Step`: the execution of one instruction

A step fetches the word at the program counter, moves the program counter behind it and
executes the word. A word of zeros ends the program. A fault is recorded on the console
and changes nothing else, so that the machine can go on behind the faulty word.

- `Machine.fetch`: the word at the program counter.
- `Effect.apply`: the change of an instruction, carried out.
- `Machine.execute`: the instruction in a word.
- `Machine.step`: all of it.
-/

set_option autoImplicit false

namespace MiniMips

/-- Why a program has ended. -/
inductive HaltReason where
  /-- The fetched word was zero. -/
  | zeroWord
  /-- The program asked for the end. -/
  | exit
deriving DecidableEq, Repr

/-- How a step ended. -/
inductive StepOutcome where
  | running
  | halted (reason : HaltReason)
  | faulted (fault : Fault)
deriving DecidableEq, Repr

/-- Whether the program has ended. -/
def StepOutcome.isHalted : StepOutcome → Bool
  | halted _ => true
  | _ => false

namespace Effect

/-- The machine after an effect. -/
def apply (effect : Effect) (machine : Machine) : Machine :=
  match effect with
  | nothing => machine
  | writeRegister r value =>
    { machine with registers.toRegisters := machine.registers.set r value }
  | writeHiLo hi lo => { machine with registers.hi := hi, registers.lo := lo }
  | jump target => { machine with registers.pc := target }
  | link returnAddress target =>
    { machine with
      registers.toRegisters := { machine.registers.set .ra returnAddress with pc := target } }
  | store place size value => { machine with memory := machine.memory.set place size value }
  | print channel text => machine.print channel text
  | exit => machine.print .normal "program exited"

/-- How a step with this effect ends. -/
def outcome : Effect → StepOutcome
  | exit => .halted .exit
  | _ => .running

end Effect

namespace Machine

/-- The machine with the program counter behind the word that it points at. -/
def advance (machine : Machine) : Machine :=
  { machine with registers.pc := machine.registers.pc + 4 }

/-- The word at the program counter, and the machine with the program counter behind it.
The program counter moves even when no word can be read. -/
def fetch (machine : Machine) : Except Fault Word × Machine :=
  (machine.memory.read machine.registers.pc .word, machine.advance)

/-- The machine with a record of the executed word, if it is configured to keep one. -/
def trace (machine : Machine) (word : Word) : Machine :=
  if machine.config.debugTrace then
    machine.print .debug ("[DEBUG] executed: " ++ disassemble word)
  else
    machine

/-- The end of a step with a fault, which is recorded. -/
def report (machine : Machine) (fault : Fault) : StepOutcome × Machine :=
  (.faulted fault, machine.print .error ("[ERROR] " ++ fault.message))

/-- The effect of a word in a machine that has fetched it. -/
def effectOf (machine : Machine) (word : Word) : Except Fault Effect :=
  match decode word with
  | .ok instruction => instruction.effect machine.registers.toRegisters machine.memory
  | .error fault => .error fault

/-- Executes the instruction in a fetched word. -/
def execute (machine : Machine) (word : Word) : StepOutcome × Machine :=
  match machine.effectOf word with
  | .ok effect => (effect.outcome, effect.apply machine)
  | .error fault => machine.report fault

/-- Executes the word at the program counter. -/
def step (machine : Machine) : StepOutcome × Machine :=
  match machine.fetch with
  | (.error fault, fetched) => fetched.report fault
  | (.ok word, fetched) =>
    let traced := fetched.trace word
    if word = 0 then (.halted .zeroWord, traced) else traced.execute word

end Machine

end MiniMips
