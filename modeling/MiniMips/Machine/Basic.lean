import MiniMips.Console
import MiniMips.Memory.Basic
import MiniMips.Registers

/-!
# `MiniMips.Machine.Basic`: the state of a machine

A machine is its registers, its memory, its console and a configuration. Machines are
values: equal parts make equal machines.

- `Machine.initial`: the machine before any program is loaded.
- `Machine.loadProgram` and `Machine.loadWords`: programs and data.
-/

set_option autoImplicit false

namespace MiniMips

/-- The settings of a machine. -/
structure Config where
  /-- Where execution starts. -/
  entryPoint : Word := Segment.program.base
  /-- Whether each executed instruction is recorded on the debug channel. -/
  debugTrace : Bool := true
deriving DecidableEq, Repr

/-- The state of a machine. -/
structure Machine where
  registers : RegisterFile
  memory : Memory
  console : Console
  config : Config
deriving DecidableEq

namespace Machine

/-- The machine of a configuration before anything has happened. -/
def initial (config : Config) : Machine where
  registers := .initial config.entryPoint
  memory := .zeros
  console := .empty
  config := config

/-- The machine with everything but its configuration set back: starting values in the
registers, zeros in memory and nothing on the console. -/
def reset (machine : Machine) : Machine :=
  { machine with
    registers := { machine.registers.reset with pc := machine.config.entryPoint }
    memory := .zeros
    console := .empty }

/-- Writes words at consecutive addresses, as far as they fit. -/
def loadWords (machine : Machine) (address : Word) (words : List Word) :
    Machine × Except Fault Unit :=
  let (memory, result) := machine.memory.loadWords address words
  ({ machine with memory := memory }, result)

/-- Writes words from the start of the program segment, as far as they fit. -/
def loadProgram (machine : Machine) (words : List Word) : Machine × Except Fault Unit :=
  machine.loadWords Segment.program.base words

/-- The machine with one more record on its console. -/
def print (machine : Machine) (channel : Channel) (text : String) : Machine :=
  { machine with console := machine.console.print channel text }

end Machine

end MiniMips
