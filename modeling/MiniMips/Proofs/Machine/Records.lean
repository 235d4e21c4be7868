import MiniMips.Proofs.Machine.Frame
import MiniMips.Proofs.Machine.Run

/-!
# `MiniMips.Proofs.Machine.Records`: the records of a step and of a run

A step adds to the console in two places: the trace of its word, and then what its
execution has to say. `Machine.stepRecords` puts both together. A run adds the records of
its steps, one step after the other. The theorems:

* `Effect.toList_apply`: the records of an effect.
* `Machine.toList_step`: the console after a step.
* `Machine.toList_after`: the console after a number of steps.
-/

set_option autoImplicit false

namespace MiniMips

/-! ### One step -/

/-- The records of an effect. -/
def Effect.records : Effect → List ConsoleRecord
  | .print channel text => [⟨channel, text⟩]
  | .exit => [⟨.normal, "program exited"⟩]
  | _ => []

/-- An effect adds its records behind those of the console. -/
theorem Effect.toList_apply (effect : Effect) (machine : Machine) :
    (effect.apply machine).console.records.toList
      = machine.console.records.toList ++ effect.records := by
  cases effect with
  | print | exit => exact Console.toList_print _ _ _
  | _ => exact (List.append_nil _).symm

/-- The record of a fault. -/
def Fault.record (fault : Fault) : ConsoleRecord :=
  ⟨.error, "[ERROR] " ++ fault.message⟩

namespace Machine

/-- The records of the execution of a word. -/
def executionRecords (machine : Machine) (word : Word) : List ConsoleRecord :=
  match machine.effectOf word with
  | .ok effect => effect.records
  | .error fault => [fault.record]

/-- An execution adds the records of its effect, or that of its fault. -/
theorem toList_execute (machine : Machine) (word : Word) :
    (machine.execute word).2.console.records.toList
      = machine.console.records.toList ++ machine.executionRecords word := by
  unfold execute executionRecords
  cases machine.effectOf word with
  | ok effect => exact effect.toList_apply machine
  | error fault => exact Console.toList_print _ _ _

/-- The records of a step behind its trace. A word of zeros has none. -/
def ownRecords (machine : Machine) : List ConsoleRecord :=
  match machine.memory.read machine.registers.pc .word with
  | .ok word => if word = 0 then [] else machine.advance.executionRecords word
  | .error fault => [fault.record]

/-- All records of a step. -/
def stepRecords (machine : Machine) : List ConsoleRecord :=
  machine.traceRecords ++ machine.ownRecords

/-- A step adds its records to the console. -/
theorem toList_step (machine : Machine) :
    machine.step.2.console.records.toList
      = machine.console.records.toList ++ machine.stepRecords := by
  rw [stepRecords, ownRecords, ← List.append_assoc]
  cases hread : machine.memory.read machine.registers.pc .word with
  | ok word =>
    rw [step_of_read hread, ← toList_trace hread]
    by_cases hword : word = 0
    · simp [hword]
    · -- The execution starts behind the trace, which it does not see.
      simp only [if_neg hword]
      rw [toList_execute, executionRecords, effectOf_trace]
      rfl
  | error fault =>
    rw [step_of_read_error hread, traceRecords, hread, List.append_nil]
    exact Console.toList_print _ _ _

/-! ### A number of steps -/

/-- The records of a number of steps, in their order. -/
def addedRecords (machine : Machine) (count : Nat) : List ConsoleRecord :=
  (List.range count).flatMap fun i => (machine.after i).stepRecords

/-- The last step of many adds its records behind those of the others. -/
theorem addedRecords_succ (machine : Machine) (count : Nat) :
    machine.addedRecords (count + 1)
      = machine.addedRecords count ++ (machine.after count).stepRecords := by
  rw [addedRecords, List.range_succ, List.flatMap_append, List.flatMap_singleton]
  rfl

/-- Steps in a row add their records to the console and drop none. -/
theorem toList_after (machine : Machine) (count : Nat) :
    (machine.after count).console.records.toList
      = machine.console.records.toList ++ machine.addedRecords count := by
  induction count with
  | zero =>
    rw [after_zero]
    exact (List.append_nil _).symm
  | succ count ih =>
    rw [after_succ, toList_step, ih, addedRecords_succ, List.append_assoc]

end Machine

end MiniMips
