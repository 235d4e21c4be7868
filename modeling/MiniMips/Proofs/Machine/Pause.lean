import MiniMips.Proofs.Machine.Run

/-!
# `MiniMips.Proofs.Machine.Pause`: pausing at faults changes nothing

A caller that wants to look at every fault spends its budget in several bounded runs. Each
stops at the next fault, and the next one goes on from there with what is left of the
budget. `Machine.runPausing` is this loop of a caller. Nothing in it says that it ends, so
it is defined with a limit on the number of its calls, and that the limit is not reached is
a theorem.

A call after which the loop goes on has met a fault. It has taken at least one step, so the
budget falls (`Machine.EndsAfter.pos`), and its fault does not end a run that steps over
faults, so `Machine.runBounded_append` puts the call in front of the rest. The theorems:

* `Machine.EndsAfter.stepOver`: the call that ends the loop is a run that steps over faults.
* `Machine.runBounded_stepOver`: any other call is the first part of one.
* `runPausing_transparent`: the loop ends, and its calls add up to one run that steps over
  faults.
-/

set_option autoImplicit false

namespace MiniMips

namespace Machine

/-- Spends a budget in bounded runs that pause at every fault, until one of them ends the
program or nothing is left. The outcomes of all these runs are kept. There is no result if
`calls` runs are too few. -/
def runPausing : (calls budget : Nat) → Machine → Option (List RunOutcome × Machine)
  | 0, _, _ => none
  | calls + 1, budget, machine =>
    let (outcome, next) := machine.runBounded budget .fault
    let left := budget - outcome.steps
    if outcome.final.isHalted ∨ left = 0 then
      some ([outcome], next)
    else
      (runPausing calls left next).map fun (outcomes, last) => (outcome :: outcomes, last)

variable {machine : Machine} {budget steps : Nat}

/-! ### One call -/

/-- The call that ends the loop. -/
theorem runPausing_of_last (h : machine.EndsAfter .fault budget steps)
    (hlast : (machine.lastOutcome steps).isHalted ∨ budget - steps = 0) (calls : Nat) :
    machine.runPausing (calls + 1) budget
      = some ([(machine.ran steps).1], machine.after steps) := by
  simp only [runPausing, h.runBounded, ran, if_pos hlast]

/-- A call after which the loop goes on. -/
theorem runPausing_of_pause (h : machine.EndsAfter .fault budget steps)
    (hpause : ¬((machine.lastOutcome steps).isHalted ∨ budget - steps = 0)) (calls : Nat) :
    machine.runPausing (calls + 1) budget
      = ((machine.after steps).runPausing calls (budget - steps)).map fun (outcomes, last) =>
          ((machine.ran steps).1 :: outcomes, last) := by
  simp only [runPausing, h.runBounded, ran, if_neg hpause]

/-- No outcome inside a call ends the program. -/
theorem EndsAfter.before_stepOver (h : machine.EndsAfter .fault budget steps) :
    ∀ count < steps, ¬Boundary.halted.Ends (machine.lastOutcome count) := by
  intro count hcount hends
  exact h.before count hcount (Boundary.ends_of_ends_halted hends)

/-- The call that ends the loop is a run that steps over faults. -/
theorem EndsAfter.stepOver (h : machine.EndsAfter .fault budget steps)
    (hlast : (machine.lastOutcome steps).isHalted ∨ budget - steps = 0) :
    machine.EndsAfter .halted budget steps where
  le := h.le
  before := h.before_stepOver
  ends hlt := by
    rcases hlast with hhalted | hspent
    · exact Boundary.ends_halted_iff.mpr hhalted
    · exact absurd hspent (Nat.sub_ne_zero_of_lt hlt)

/-- Any other call is the first part of a run that steps over faults. -/
theorem runBounded_stepOver (h : machine.EndsAfter .fault budget steps)
    (hpause : ¬((machine.lastOutcome steps).isHalted ∨ budget - steps = 0)) :
    machine.runBounded budget .halted =
      let rest := (machine.after steps).runBounded (budget - steps) .halted
      (⟨steps + rest.1.steps, rest.1.final⟩, rest.2) := by
  obtain ⟨hrunning, hleft⟩ := not_or.mp hpause
  have happend := runBounded_append (endsAfter_self h.before_stepOver)
    (mt Boundary.ends_halted_iff.mp hrunning) (Nat.pos_of_ne_zero hleft)
  rw [Nat.add_sub_cancel' h.le] at happend
  exact happend

end Machine

/-! ### The whole loop -/

/-- The outcome of the last run in a list that has taken a step. -/
def RunOutcome.lastFinal? (outcomes : List RunOutcome) : Option StepOutcome :=
  (outcomes.filter (0 < ·.steps)).getLast?.map (·.final)

/-- A run in front of others does not change how the last of them has ended. -/
theorem RunOutcome.lastFinal?_cons {outcomes : List RunOutcome} {final : StepOutcome}
    (h : lastFinal? outcomes = some final) (outcome : RunOutcome) :
    lastFinal? (outcome :: outcomes) = some final := by
  obtain ⟨last, hlast, rfl⟩ := Option.map_eq_some_iff.mp h
  rw [lastFinal?, List.filter_cons]
  split
  · rw [List.getLast?_cons, hlast]
    rfl
  · rw [hlast]
    rfl

/-- Pausing at faults is transparent. The loop ends after no more calls than its budget has
steps, but for the one call that an empty budget takes. It leaves the machine of the single
run that steps over faults, after as many steps, and with the same outcome in its last call
that has taken a step. -/
theorem runPausing_transparent (machine : Machine) (budget : Nat) :
    ∃ outcomes : List RunOutcome,
      outcomes.length ≤ max budget 1
        ∧ (∀ calls ≥ outcomes.length, machine.runPausing calls budget
          = some (outcomes, (machine.runBounded budget .halted).2))
        ∧ (outcomes.map (·.steps)).sum = (machine.runBounded budget .halted).1.steps
        ∧ (0 < budget → RunOutcome.lastFinal? outcomes
          = some (machine.runBounded budget .halted).1.final) := by
  -- Induction on the budget: a call that pauses has taken a step of it.
  induction budget using Nat.strong_induction_on generalizing machine with
  | _ budget ih =>
    obtain ⟨steps, hsteps, -⟩ := machine.exists_runBounded .fault budget
    by_cases hlast : (machine.lastOutcome steps).isHalted ∨ budget - steps = 0
    · -- The first call is the only one.
      rw [(hsteps.stepOver hlast).runBounded]
      refine ⟨[(machine.ran steps).1], Nat.le_max_right budget 1, ?_, Nat.add_zero steps, ?_⟩
      · intro calls hcalls
        obtain ⟨more, rfl⟩ := Nat.exists_eq_add_of_le' hcalls
        exact Machine.runPausing_of_last hsteps hlast more
      · intro hbudget
        simp [RunOutcome.lastFinal?, Machine.ran, hsteps.pos hbudget]
    · -- The first call pauses, and the loop goes on with a smaller budget.
      have hleft : 0 < budget - steps := Nat.pos_of_ne_zero (not_or.mp hlast).2
      have hpos : 0 < steps := hsteps.pos (by omega)
      obtain ⟨outcomes, hlength, hcalls, hsum, hfinal⟩ :=
        ih (budget - steps) (by omega) (machine.after steps)
      rw [Machine.runBounded_stepOver hsteps hlast]
      refine ⟨(machine.ran steps).1 :: outcomes, ?_, ?_, ?_, ?_⟩
      · rw [List.length_cons]
        omega
      · intro calls hmore
        obtain ⟨more, rfl⟩ := Nat.exists_eq_add_of_le' hmore
        show machine.runPausing (more + outcomes.length + 1) budget = _
        rw [Machine.runPausing_of_pause hsteps hlast, hcalls _ (Nat.le_add_left _ more)]
        rfl
      · rw [List.map_cons, List.sum_cons, hsum]
        rfl
      · intro _
        exact RunOutcome.lastFinal?_cons (hfinal hleft) _

/-- A word that is no instruction, before zeros, and a budget of five. The first call pauses
behind the word and the second one ends the program, where the run that steps over faults
ends it too. -/
theorem runPausing_transparent_pause :
    0 < 5
      ∧ ((Machine.probe 0xFC000000 1).runPausing 5 5).map (·.1)
        = some [⟨1, .faulted (.unknownInstruction 0xFC000000)⟩, ⟨1, .halted .zeroWord⟩]
      ∧ ((Machine.probe 0xFC000000 1).runBounded 5 .halted).1.steps = 2
      ∧ ((Machine.probe 0xFC000000 1).runBounded 5 .halted).1.final = .halted .zeroWord := by
  have hpause : ((Machine.probe 0xFC000000 1).runPausing 5 5).map (·.1)
      = some [⟨1, .faulted (.unknownInstruction 0xFC000000)⟩, ⟨1, .halted .zeroWord⟩] := by
    decide +kernel
  obtain ⟨outcomes, hlength, hcalls, hsum, hfinal⟩ :=
    runPausing_transparent (.probe 0xFC000000 1) 5
  -- The two calls are the outcomes of the theorem, so their sum and their end are those of the
  -- single run.
  obtain rfl : outcomes = [⟨1, .faulted (.unknownInstruction 0xFC000000)⟩,
      ⟨1, .halted .zeroWord⟩] := by
    rw [hcalls 5 hlength] at hpause
    exact Option.some.inj hpause
  exact ⟨by decide, hpause, hsum.symm, (Option.some.inj (hfinal (by decide))).symm⟩

end MiniMips
