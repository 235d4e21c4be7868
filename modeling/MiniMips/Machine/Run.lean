import MiniMips.Machine.Step

/-!
# `MiniMips.Machine.Run`: steps until the program ends

- `Machine.runBounded`: steps up to a given number. A `Boundary` says whether a fault
  ends the run as well.
- `Machine.run`: steps until the program ends. A run that has not ended after the most
  steps that a 64-bit counter can count has no outcome.
-/

set_option autoImplicit false

namespace MiniMips

/-- What ends a bounded run before its steps are used up. -/
inductive Boundary where
  /-- Only the end of the program. -/
  | halted
  /-- The end of the program and any fault. -/
  | fault
deriving DecidableEq, Repr

/-- Whether a run ends after a step with this outcome. -/
def Boundary.stopsAt : Boundary → StepOutcome → Bool
  | _, .running => false
  | _, .halted _ => true
  | boundary, .faulted _ => boundary == fault

/-- How a run ended. -/
structure RunOutcome where
  /-- Number of steps taken. -/
  steps : Nat
  /-- The outcome of the last step, and `running` when there was none. -/
  final : StepOutcome
deriving DecidableEq, Repr

namespace Machine

/-- Continues a bounded run that has come to `sofar`, with `budget` steps left. -/
def continueBounded (boundary : Boundary) :
    (budget : Nat) → (sofar : RunOutcome) → Machine → RunOutcome × Machine
  | 0, sofar, machine => (sofar, machine)
  | budget + 1, sofar, machine =>
    let (outcome, next) := machine.step
    let taken : RunOutcome := ⟨sofar.steps + 1, outcome⟩
    if boundary.stopsAt outcome then (taken, next)
    else continueBounded boundary budget taken next

/-- Takes steps until the boundary, and at most `budget` of them. -/
def runBounded (machine : Machine) (budget : Nat) (boundary : Boundary) :
    RunOutcome × Machine :=
  continueBounded boundary budget ⟨0, .running⟩ machine

/-- The largest number of steps that a run counts. -/
def maxSteps : Nat :=
  0xFFFFFFFFFFFFFFFF

/-- Takes steps until the program ends, where `taken` steps lie behind and `fuel` more
can be counted. -/
def runWith : (fuel taken : Nat) → Machine → Option (RunOutcome × Machine)
  | 0, _, _ => none
  | fuel + 1, taken, machine =>
    let (outcome, next) := machine.step
    if outcome.isHalted then some (⟨taken + 1, outcome⟩, next)
    else runWith fuel (taken + 1) next

/-- Takes steps until the program ends. -/
def run (machine : Machine) : Option (RunOutcome × Machine) :=
  machine.runWith maxSteps 0

end Machine

end MiniMips
