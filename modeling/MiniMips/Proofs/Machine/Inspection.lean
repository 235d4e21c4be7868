import MiniMips.Proofs.Machine.Records

/-!
# `MiniMips.Proofs.Machine.Inspection`: what is kept for a reader never takes part

The settings of a machine, its console and the saved copy of its registers are there for
whoever looks at it. Machines that agree on everything else, `Machine.SameState`, do the
same for ever: an effect is read from registers and memory alone, and carrying it out keeps
both alike. The consoles drift apart, but only by records on the debug channel. The
theorems:

* `Machine.SameState.step`: one step on both machines.
* `Machine.SameState.ownRecords`, `Machine.filter_traceRecords`: what it adds to the consoles.
* `Machine.SameState.after`, `Machine.SameState.filter_addedRecords`: any number of steps.
* `steps_sameState`: so neither steps nor bounded runs can tell the machines apart.
-/

set_option autoImplicit false

namespace MiniMips

/-- Whether a record is output of the program or the report of a fault. -/
def ConsoleRecord.isReport (record : ConsoleRecord) : Bool :=
  record.channel == .normal || record.channel == .error

namespace Machine

/-- The machines have the same values in all registers and the same memory. Their settings,
their consoles and their saved registers are free. -/
structure SameState (machine other : Machine) : Prop where
  registers : machine.registers.toRegisters = other.registers.toRegisters
  memory : machine.memory = other.memory

namespace SameState

variable {machine other : Machine}

/-! ### One step on both machines -/

/-- Machines in the same state are in the same state at their next word. -/
theorem advance (h : machine.SameState other) : machine.advance.SameState other.advance where
  registers := by
    show { machine.registers.toRegisters with pc := machine.registers.pc + 4 }
      = { other.registers.toRegisters with pc := other.registers.pc + 4 }
    rw [h.registers]
  memory := h.memory

/-- Each machine may trace or not. -/
theorem trace (h : machine.SameState other) (word : Word) :
    (machine.trace word).SameState (other.trace word) where
  registers := by rw [trace_registers, trace_registers, h.registers]
  memory := by rw [trace_memory, trace_memory, h.memory]

/-- A word has the same effect, or the same fault. -/
theorem effectOf (h : machine.SameState other) (word : Word) :
    machine.effectOf word = other.effectOf word := by
  rw [Machine.effectOf, Machine.effectOf, h.registers, h.memory]

/-- Every effect keeps the machines alike. -/
theorem apply (h : machine.SameState other) (effect : Effect) :
    (effect.apply machine).SameState (effect.apply other) := by
  cases effect with
  | nothing | print | exit => exact ⟨h.registers, h.memory⟩
  | writeRegister | writeHiLo | jump | link =>
    exact ⟨by simp only [Effect.apply, h.registers], h.memory⟩
  | store place size value =>
    exact ⟨h.registers, congrArg (Memory.set · place size value) h.memory⟩

/-- They execute a word to the same end, and are in the same state behind it. -/
theorem execute (h : machine.SameState other) (word : Word) :
    (machine.execute word).1 = (other.execute word).1
      ∧ (machine.execute word).2.SameState (other.execute word).2 := by
  cases heffect : other.effectOf word with
  | ok effect =>
    rw [execute_of_effectOf heffect, execute_of_effectOf ((h.effectOf word).trans heffect)]
    exact ⟨rfl, h.apply effect⟩
  | error fault =>
    rw [execute_of_fault heffect, execute_of_fault ((h.effectOf word).trans heffect)]
    exact ⟨rfl, h.registers, h.memory⟩

/-- Both machines fetch alike. -/
theorem read_eq (h : machine.SameState other) :
    machine.memory.read machine.registers.pc .word
      = other.memory.read other.registers.pc .word := by
  rw [h.registers, h.memory]

/-- A step has the same outcome on both machines and keeps them alike. -/
theorem step (h : machine.SameState other) :
    machine.step.1 = other.step.1 ∧ machine.step.2.SameState other.step.2 := by
  -- Both fetch the same word or meet the same fault.
  cases hread : other.memory.read other.registers.pc .word with
  | error fault =>
    rw [step_of_read_error hread, step_of_read_error (h.read_eq.trans hread)]
    exact ⟨rfl, h.advance.registers, h.advance.memory⟩
  | ok word =>
    rw [step_of_read hread, step_of_read (h.read_eq.trans hread)]
    by_cases hword : word = 0
    · rw [if_pos hword, if_pos hword]
      exact ⟨rfl, h.advance.trace word⟩
    · rw [if_neg hword, if_neg hword]
      exact (h.advance.trace word).execute word

/-! ### The records of one step -/

/-- Behind the trace, a step has the same records on both machines. -/
theorem ownRecords (h : machine.SameState other) : machine.ownRecords = other.ownRecords := by
  simp only [Machine.ownRecords, executionRecords, h.read_eq, h.advance.effectOf]

end SameState

/-- A trace is no report. -/
theorem filter_traceRecords (machine : Machine) :
    machine.traceRecords.filter ConsoleRecord.isReport = [] := by
  unfold traceRecords
  cases machine.memory.read machine.registers.pc .word with
  | error fault => rfl
  | ok word =>
    show (if machine.config.debugTrace then _ else []).filter ConsoleRecord.isReport = []
    split <;> rfl

namespace SameState

variable {machine other : Machine}

/-- Their next steps add the same records of output and faults. -/
theorem filter_stepRecords (h : machine.SameState other) :
    machine.stepRecords.filter ConsoleRecord.isReport
      = other.stepRecords.filter ConsoleRecord.isReport := by
  rw [stepRecords, stepRecords, List.filter_append, List.filter_append, filter_traceRecords,
    filter_traceRecords, h.ownRecords]

/-! ### A number of steps -/

/-- Machines in the same state are in the same state after any number of steps. -/
theorem after (h : machine.SameState other) (count : Nat) :
    (machine.after count).SameState (other.after count) := by
  induction count with
  | zero =>
    rw [after_zero, after_zero]
    exact h
  | succ count ih =>
    rw [after_succ, after_succ]
    exact ih.step.2

/-- The last of these steps ends in the same way on both. -/
theorem lastOutcome (h : machine.SameState other) (count : Nat) :
    machine.lastOutcome count = other.lastOutcome count := by
  cases count with
  | zero => rfl
  | succ count => exact (h.after count).step.1

/-- All these steps add the same records of output and faults. -/
theorem filter_addedRecords (h : machine.SameState other) (count : Nat) :
    (machine.addedRecords count).filter ConsoleRecord.isReport
      = (other.addedRecords count).filter ConsoleRecord.isReport := by
  induction count with
  | zero => rfl
  | succ count ih =>
    rw [addedRecords_succ, addedRecords_succ, List.filter_append, List.filter_append, ih,
      (h.after count).filter_stepRecords]

/-- The same number of steps ends a bounded run on both machines. -/
theorem endsAfter (h : machine.SameState other) {boundary : Boundary} {budget steps : Nat}
    (hends : machine.EndsAfter boundary budget steps) :
    other.EndsAfter boundary budget steps where
  le := hends.le
  before count hcount := by
    rw [← h.lastOutcome]
    exact hends.before count hcount
  ends hlt := by
    rw [← h.lastOutcome]
    exact hends.ends hlt

/-- Bounded runs of machines in the same state have the same outcome. -/
theorem runBounded (h : machine.SameState other) (budget : Nat) (boundary : Boundary) :
    (machine.runBounded budget boundary).1 = (other.runBounded budget boundary).1 := by
  obtain ⟨steps, hsteps, hrun⟩ := machine.exists_runBounded boundary budget
  rw [hrun, (h.endsAfter hsteps).runBounded]
  show RunOutcome.mk steps (machine.lastOutcome steps)
    = RunOutcome.mk steps (other.lastOutcome steps)
  rw [h.lastOutcome]

end SameState

end Machine

/-- Settings, console and saved registers never influence the execution. Machines that agree
on all registers and on memory have the same outcome in every step and agree again after it.
Of the output of the program and the reports of faults they add the same records in the same
order. Bounded runs end alike on both. -/
theorem steps_sameState {machine other : Machine} (h : machine.SameState other) :
    (∀ count, (machine.after count).step.1 = (other.after count).step.1
        ∧ (machine.after count).SameState (other.after count)
        ∧ ∃ added added' : List ConsoleRecord,
          (machine.after count).console.records.toList
              = machine.console.records.toList ++ added
            ∧ (other.after count).console.records.toList
              = other.console.records.toList ++ added'
            ∧ added.filter ConsoleRecord.isReport = added'.filter ConsoleRecord.isReport)
      ∧ ∀ budget boundary,
        (machine.runBounded budget boundary).1 = (other.runBounded budget boundary).1 := by
  refine ⟨?_, h.runBounded⟩
  intro count
  exact ⟨(h.after count).step.1, h.after count, machine.addedRecords count,
    other.addedRecords count, machine.toList_after count, other.toList_after count,
    h.filter_addedRecords count⟩

/-- A system call that prints a number, traced by one machine and not by the other, which has
a saved copy of its registers and a record on its console. -/
theorem steps_sameState_quiet :
    let machine := Machine.probe 0x0000000C 2
    let other : Machine :=
      { registers := machine.registers.save
        memory := machine.memory
        console := Console.empty.print .error "before"
        config := ⟨0, false⟩ }
    machine.SameState other
      ∧ (machine.after 1).step.1 = (other.after 1).step.1
      ∧ (machine.after 2).SameState (other.after 2)
      ∧ (∃ added added' : List ConsoleRecord,
        (machine.after 2).console.records.toList = machine.console.records.toList ++ added
          ∧ (other.after 2).console.records.toList = other.console.records.toList ++ added'
          ∧ added.filter ConsoleRecord.isReport = added'.filter ConsoleRecord.isReport)
      ∧ (machine.runBounded 5 .fault).1 = (other.runBounded 5 .fault).1 := by
  intro machine other
  have hsame : machine.SameState other := ⟨rfl, rfl⟩
  obtain ⟨hsteps, hruns⟩ := steps_sameState hsame
  exact ⟨hsame, (hsteps 1).1, (hsteps 2).2.1, (hsteps 2).2.2, hruns 5 .fault⟩

end MiniMips
