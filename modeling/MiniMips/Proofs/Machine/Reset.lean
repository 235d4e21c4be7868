import MiniMips.Proofs.Machine.Calls
import MiniMips.Proofs.Registers

/-!
# `MiniMips.Proofs.Machine.Reset`: a reset forgets everything

A reset has to set back every part of the machine, or one program leaks into the next.
`Machine.IsFresh` lists the parts and what each of them holds before anything has happened.
The list is complete, since only one machine of a configuration has them all
(`Machine.isFresh_iff`), and it is what a reset leaves behind any calls. The theorems:

* `Machine.isFresh_iff`: the parts make the machine.
* `Machine.isFresh_reset`: a reset sets all of them back.
* `Machine.reset_eq_reset_iff`: so all that a reset keeps is the configuration.
* `Machine.calls_append_reset`: calls behind a reset do not see those before it.
* `reset_forgets`: all of it, for any history.
-/

set_option autoImplicit false

namespace MiniMips

namespace Machine

/-- A machine of a configuration with zeros everywhere, which has not been set up yet. -/
def blank (config : Config) : Machine where
  registers := { pc := 0, hi := 0, lo := 0, general := .replicate 32 0, saved := none }
  memory := .zeros
  console := .empty
  config := config

/-- A reset sets it up. -/
theorem reset_blank (config : Config) : (blank config).reset = .initial config := rfl

/-- What the parts of a machine hold before anything has happened. -/
structure IsFresh (machine : Machine) (config : Config) : Prop where
  general : ∀ r, machine.registers.get r = if r = .sp then 0x80000000 else 0
  hi : machine.registers.hi = 0
  lo : machine.registers.lo = 0
  pc : machine.registers.pc = config.entryPoint
  saved : machine.registers.saved = none
  size : ∀ segment, ByteStore.size (machine.memory.bank segment) = 0x100000
  byte : ∀ segment, ∀ offset < 0x100000,
    ByteStore.get (machine.memory.bank segment) offset = 0
  console : machine.console.records = #[]
  config : machine.config = config

variable {machine other : Machine} {config : Config}

/-- The machine of a configuration has each of its parts at its start. -/
theorem isFresh_initial (config : Config) : (Machine.initial config).IsFresh config where
  general := RegisterFile.get_initial config.entryPoint
  hi := rfl
  lo := rfl
  pc := rfl
  saved := rfl
  size _ := rfl
  byte segment offset _ := by cases segment <;> exact Bank.get_zeros offset
  console := rfl
  config := rfl

/-- The parts make the machine. -/
theorem IsFresh.eq_initial (h : machine.IsFresh config) : machine = .initial config := by
  have hfresh := isFresh_initial config
  -- A fresh machine is described value by value, and so is the initial one: two machines with
  -- that description have equal registers and equal memory.
  have hvalues :
      machine.registers.toRegisters = (Machine.initial config).registers.toRegisters := by
    refine Registers.ext_get h.pc h.hi h.lo fun r => ?_
    exact (h.general r).trans (hfresh.general r).symm
  have hmemory : machine.memory = (Machine.initial config).memory := by
    refine Memory.ext_get fun segment offset hoffset => ?_
    exact (h.byte segment offset hoffset).trans (hfresh.byte segment offset hoffset).symm
  calc machine
    _ = ⟨⟨machine.registers.toRegisters, machine.registers.saved⟩, machine.memory,
          ⟨machine.console.records⟩, machine.config⟩ := rfl
    _ = .initial config := by
      rw [hvalues, h.saved, hmemory, h.console, h.config]
      rfl

/-- The parts at their start make up the machine of the configuration. -/
theorem isFresh_iff : machine.IsFresh config ↔ machine = .initial config := by
  constructor
  · exact IsFresh.eq_initial
  · rintro rfl
    exact isFresh_initial config

/-- A reset sets every part back. -/
theorem isFresh_reset (machine : Machine) : machine.reset.IsFresh machine.config :=
  isFresh_iff.mpr rfl

/-- All that a reset keeps is the configuration. -/
theorem reset_eq_reset_iff : machine.reset = other.reset ↔ machine.config = other.config := by
  rw [machine.isFresh_reset.eq_initial, other.isFresh_reset.eq_initial]
  constructor
  · intro h
    exact congrArg (·.config) h
  · intro h
    rw [h]

/-! ### Calls behind a reset -/

/-- Calls behind a reset do not see the calls before it, but for the configuration. -/
theorem calls_append_reset {before : List MachineCall} {answers : List Answer}
    (h : machine.calls before = some (answers, other)) (later : List MachineCall) :
    machine.calls (before ++ .reset :: later)
      = ((Machine.initial other.config).calls later).map fun (rest, last) =>
        (answers ++ .done :: rest, last) := by
  have hreset : other.call .reset = some (.done, .initial other.config) := by
    rw [← other.isFresh_reset.eq_initial]
    rfl
  rw [calls_append h, calls_cons hreset, Option.map_map]
  rfl

end Machine

/-- A reset forgets everything but the configuration, which is the one that was set last.
Whatever has been done to a machine, behind the reset each of its parts holds what it held
at the start, so the machine is the one that has just been set up, and all calls behind the
reset have the answers and the machine that they have there. -/
theorem reset_forgets {config : Config} {history : List MachineCall} {answers : List Answer}
    {machine : Machine} (h : (Machine.initial config).calls history = some (answers, machine)) :
    machine.config = history.foldl MachineCall.config config
      ∧ machine.reset.IsFresh machine.config
      ∧ machine.reset = .initial machine.config
      ∧ Machine.initial machine.config = (Machine.blank machine.config).reset
      ∧ (∀ later, machine.reset.calls later = (Machine.initial machine.config).calls later)
      ∧ ∀ later, (Machine.initial config).calls (history ++ .reset :: later)
        = ((Machine.initial machine.config).calls later).map fun (rest, last) =>
          (answers ++ .done :: rest, last) := by
  have hinitial : machine.reset = .initial machine.config := machine.isFresh_reset.eq_initial
  refine ⟨Machine.config_calls h, machine.isFresh_reset, hinitial,
    (Machine.reset_blank machine.config).symm, ?_, Machine.calls_append_reset h⟩
  intro later
  rw [hinitial]

/-- A program is loaded and started, registers are saved, the console is written to, and the
machine is configured to start elsewhere. Behind the reset nothing but zeros is fetched, and
from there. -/
theorem reset_forgets_configured :
    let history : List MachineCall :=
      [.loadProgram [0x2128FFFB, 0x2128FFFB], .step, .save, .print .error "before",
        .configure ⟨0x00400004, false⟩]
    ∃ answers machine, (Machine.initial {}).calls history = some (answers, machine)
      ∧ machine.config = ⟨0x00400004, false⟩
      ∧ machine.reset.IsFresh machine.config
      ∧ machine.reset = .initial ⟨0x00400004, false⟩
      ∧ (Machine.initial {}).calls (history ++ [.reset, .step])
        = some (answers ++ [.done, .stepped (.halted .zeroWord)],
          (Machine.initial ⟨0x00400004, false⟩).step.2) := by
  intro history
  obtain ⟨answers, machine, hcalls, -⟩ :=
    (Machine.initial {}).exists_calls (show .run ∉ history by decide)
  obtain ⟨hconfig, hfresh, hinitial, -, -, hlater⟩ := reset_forgets hcalls
  have hconfig : machine.config = ⟨0x00400004, false⟩ := hconfig
  rw [hconfig] at hinitial hlater
  have hstep : (Machine.initial ⟨0x00400004, false⟩).call .step
      = some (.stepped (.halted .zeroWord), (Machine.initial ⟨0x00400004, false⟩).step.2) := by
    decide +kernel
  refine ⟨answers, machine, hcalls, hconfig, hfresh, hinitial, ?_⟩
  rw [hlater, Machine.calls_cons hstep]
  rfl

end MiniMips
