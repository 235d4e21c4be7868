import Mathlib.Logic.Function.Iterate
import MiniMips.Machine.Run
import MiniMips.Proofs.Machine.Step

/-!
# `MiniMips.Proofs.Machine.Run`: a bounded run is a number of steps

A bounded run carries a count and the last outcome from step to step, and looks after each
step whether to stop. What it does can be said without any of that. It takes some number of
steps: as far as the first outcome that ends it, or else all of its budget
(`Machine.EndsAfter`). The number decides the rest,

    machine.runBounded budget boundary = machine.ran steps

so the laws of bounded runs are laws of these numbers. The theorems:

* `Machine.after_add`, `Machine.lastOutcome_add`: steps in a row can be counted in two parts.
* `Machine.exists_continueBounded`: the loop keeps its count and its last outcome right.
* `Machine.exists_runBounded`, `Machine.EndsAfter.runBounded`: a bounded run takes the one
  number of steps that ends it.
* `Machine.EndsAfter.extend`, `Machine.EndsAfter.append`: that number under a larger budget.
* `runBounded_cut`: so a run can be cut anywhere and continued.
-/

set_option autoImplicit false

namespace MiniMips

/-! ### Outcomes that end a run -/

/-- Whether a run ends after an outcome: the end of the program ends every run, and a fault
ends the runs that are to stop at faults. -/
def Boundary.Ends (boundary : Boundary) (outcome : StepOutcome) : Prop :=
  (∃ reason, outcome = .halted reason) ∨ boundary = .fault ∧ ∃ fault, outcome = .faulted fault

namespace Boundary

variable {boundary : Boundary} {outcome : StepOutcome}

/-- The test of a run for its end, as a condition on the outcome. -/
theorem stopsAt_iff : boundary.stopsAt outcome = true ↔ boundary.Ends outcome := by
  cases boundary <;> cases outcome <;> simp [stopsAt, Ends]

/-- A step that goes on ends no run. -/
@[simp] theorem not_ends_running (boundary : Boundary) : ¬boundary.Ends .running := by
  simp [Ends]

/-- A step that ends the program ends every run. -/
@[simp] theorem ends_halted (boundary : Boundary) (reason : HaltReason) :
    boundary.Ends (.halted reason) :=
  .inl ⟨reason, rfl⟩

/-- Only the end of the program ends a run that steps over faults. -/
theorem ends_halted_iff : Boundary.halted.Ends outcome ↔ outcome.isHalted = true := by
  cases outcome <;> simp [Ends, StepOutcome.isHalted]

/-- Nothing else ends a run that steps over faults. -/
theorem exists_halted_of_ends (h : Boundary.halted.Ends outcome) :
    ∃ reason, outcome = .halted reason := by
  rcases h with hreason | ⟨hboundary, -⟩
  · exact hreason
  · cases hboundary

/-- What ends a run that steps over faults ends every run. -/
theorem ends_of_ends_halted (h : Boundary.halted.Ends outcome) : boundary.Ends outcome := by
  obtain ⟨reason, rfl⟩ := exists_halted_of_ends h
  exact boundary.ends_halted reason

end Boundary

namespace Machine

/-! ### Steps in a row -/

/-- The machine after a number of steps, whatever their outcomes. -/
def after (machine : Machine) (count : Nat) : Machine :=
  (fun machine : Machine => machine.step.2)^[count] machine

/-- The outcome of the last of a number of steps, and `running` when there is none. -/
def lastOutcome (machine : Machine) : (count : Nat) → StepOutcome
  | 0 => .running
  | count + 1 => (machine.after count).step.1

/-- How a run ends that has taken a number of steps. -/
def ran (machine : Machine) (steps : Nat) : RunOutcome × Machine :=
  (⟨steps, machine.lastOutcome steps⟩, machine.after steps)

variable {machine : Machine} {boundary : Boundary} {budget steps : Nat}

/-- No step leaves the machine as it is. -/
@[simp] theorem after_zero (machine : Machine) : machine.after 0 = machine := rfl

/-- One more step is taken at the end of a run. -/
theorem after_succ (machine : Machine) (count : Nat) :
    machine.after (count + 1) = (machine.after count).step.2 :=
  Function.iterate_succ_apply' _ count machine

/-- Before any step the machine counts as running. -/
@[simp] theorem lastOutcome_zero (machine : Machine) : machine.lastOutcome 0 = .running := rfl

/-- The last outcome is that of the last step. -/
theorem lastOutcome_succ (machine : Machine) (count : Nat) :
    machine.lastOutcome (count + 1) = (machine.after count).step.1 := rfl

/-- Steps in a row can be taken in two parts. -/
theorem after_add (machine : Machine) (first second : Nat) :
    machine.after (first + second) = (machine.after first).after second := by
  rw [Nat.add_comm]
  exact Function.iterate_add_apply _ second first machine

/-- The last of the steps belongs to the second part, unless that is empty. -/
theorem lastOutcome_add (machine : Machine) (first : Nat) {second : Nat} (h : 0 < second) :
    machine.lastOutcome (first + second) = (machine.after first).lastOutcome second := by
  cases second with
  | zero => exact absurd h (Nat.lt_irrefl 0)
  | succ second =>
    show (machine.after (first + second)).step.1 = _
    rw [after_add, lastOutcome_succ]

/-- The first step can be taken apart from the others. -/
theorem after_succ' (machine : Machine) (count : Nat) :
    machine.after (count + 1) = machine.step.2.after count := rfl

/-- Without its first step, a run of more than one ends in the same way. -/
theorem lastOutcome_succ' (machine : Machine) {count : Nat} (h : 0 < count) :
    machine.lastOutcome (count + 1) = machine.step.2.lastOutcome count := by
  rw [Nat.add_comm, machine.lastOutcome_add 1 h]
  rfl

/-! ### The number of steps of a bounded run -/

/-- Whether a bounded run ends after a number of steps: no outcome before ends it, and the
last one does, unless the budget is spent. -/
structure EndsAfter (machine : Machine) (boundary : Boundary) (budget steps : Nat) : Prop where
  le : steps ≤ budget
  before : ∀ count < steps, ¬boundary.Ends (machine.lastOutcome count)
  ends : steps < budget → boundary.Ends (machine.lastOutcome steps)

/-- There is only one such number. -/
theorem EndsAfter.unique {other : Nat} (h : machine.EndsAfter boundary budget steps)
    (hother : machine.EndsAfter boundary budget other) : steps = other := by
  rcases Nat.lt_trichotomy steps other with hlt | heq | hgt
  · exact absurd (h.ends (Nat.lt_of_lt_of_le hlt hother.le)) (hother.before steps hlt)
  · exact heq
  · exact absurd (hother.ends (Nat.lt_of_lt_of_le hgt h.le)) (h.before other hgt)

/-- A run that nothing has ended takes its whole budget. -/
theorem endsAfter_self (h : ∀ count < steps, ¬boundary.Ends (machine.lastOutcome count)) :
    machine.EndsAfter boundary steps steps where
  le := Nat.le_refl steps
  before := h
  ends hlt := absurd hlt (Nat.lt_irrefl steps)

/-- One turn of the loop. -/
theorem continueBounded_succ (boundary : Boundary) (budget : Nat) (sofar : RunOutcome)
    (machine : Machine) :
    continueBounded boundary (budget + 1) sofar machine =
      if boundary.stopsAt machine.step.1 then
        (⟨sofar.steps + 1, machine.step.1⟩, machine.step.2)
      else
        continueBounded boundary budget ⟨sofar.steps + 1, machine.step.1⟩ machine.step.2 := rfl

/-- The loop keeps its count and its last outcome right. From a number of steps that have
not ended the run it comes to the number that ends it. -/
theorem exists_continueBounded (machine : Machine) (boundary : Boundary) (budget : Nat) :
    ∀ taken, (∀ count ≤ taken, ¬boundary.Ends (machine.lastOutcome count)) →
      ∃ steps, machine.EndsAfter boundary (taken + budget) steps
        ∧ continueBounded boundary budget ⟨taken, machine.lastOutcome taken⟩
            (machine.after taken) = machine.ran steps := by
  -- What the budget loses in a turn the taken steps gain, so their sum stays the budget of
  -- the whole run.
  induction budget with
  | zero =>
    intro taken hbefore
    refine ⟨taken, endsAfter_self ?_, rfl⟩
    intro count hcount
    exact hbefore count (Nat.le_of_lt hcount)
  | succ budget ih =>
    intro taken hbefore
    rw [continueBounded_succ, ← lastOutcome_succ, ← after_succ]
    by_cases hstop : boundary.stopsAt (machine.lastOutcome (taken + 1)) = true
    · -- This step is the first that ends the run.
      rw [if_pos hstop]
      refine ⟨taken + 1, ⟨by omega, ?_, ?_⟩, rfl⟩
      · intro count hcount
        exact hbefore count (Nat.le_of_lt_succ hcount)
      · intro _
        exact Boundary.stopsAt_iff.mp hstop
    · rw [if_neg hstop]
      -- It goes on, with one more outcome that has not ended the run.
      have hbefore' : ∀ count ≤ taken + 1, ¬boundary.Ends (machine.lastOutcome count) := by
        intro count hcount
        rcases Nat.lt_or_eq_of_le hcount with hlt | rfl
        · exact hbefore count (Nat.le_of_lt_succ hlt)
        · exact mt Boundary.stopsAt_iff.mpr hstop
      obtain ⟨steps, hsteps, hrun⟩ := ih (taken + 1) hbefore'
      rw [show taken + 1 + budget = taken + (budget + 1) by omega] at hsteps
      exact ⟨steps, hsteps, hrun⟩

/-- A bounded run takes the number of steps that ends it. -/
theorem exists_runBounded (machine : Machine) (boundary : Boundary) (budget : Nat) :
    ∃ steps, machine.EndsAfter boundary budget steps
      ∧ machine.runBounded budget boundary = machine.ran steps := by
  have hbefore : ∀ count ≤ 0, ¬boundary.Ends (machine.lastOutcome count) := by
    intro count hcount
    rw [Nat.le_zero.mp hcount, lastOutcome_zero]
    exact boundary.not_ends_running
  obtain ⟨steps, hsteps, hrun⟩ := machine.exists_continueBounded boundary budget 0 hbefore
  rw [Nat.zero_add] at hsteps
  exact ⟨steps, hsteps, hrun⟩

/-- So the number of steps that ends a run decides it. -/
theorem EndsAfter.runBounded (h : machine.EndsAfter boundary budget steps) :
    machine.runBounded budget boundary = machine.ran steps := by
  obtain ⟨taken, htaken, hrun⟩ := machine.exists_runBounded boundary budget
  rw [hrun, h.unique htaken]

/-! ### Larger budgets -/

/-- A run that has ended takes no more steps under a larger budget. -/
theorem EndsAfter.extend (h : machine.EndsAfter boundary budget steps)
    (hends : boundary.Ends (machine.lastOutcome steps)) (more : Nat) :
    machine.EndsAfter boundary (budget + more) steps where
  le := Nat.le_add_right_of_le h.le
  before := h.before
  ends _ := hends

/-- A run that has not ended has spent its budget. -/
theorem EndsAfter.eq_budget (h : machine.EndsAfter boundary budget steps)
    (hends : ¬boundary.Ends (machine.lastOutcome steps)) : steps = budget :=
  Nat.le_antisymm h.le (Nat.le_of_not_lt (mt h.ends hends))

/-- A run with a budget takes a step. -/
theorem EndsAfter.pos (h : machine.EndsAfter boundary budget steps) (hbudget : 0 < budget) :
    0 < steps := by
  cases steps with
  | zero => exact absurd (h.ends hbudget) boundary.not_ends_running
  | succ steps => exact Nat.succ_pos steps

/-- A run that has not ended is continued by a run from the machine that it leaves. -/
theorem EndsAfter.append {first second : Nat} (h : machine.EndsAfter boundary first first)
    (hends : ¬boundary.Ends (machine.lastOutcome first)) (hsecond : 0 < second)
    (hrest : (machine.after first).EndsAfter boundary second steps) :
    machine.EndsAfter boundary (first + second) (first + steps) where
  le := Nat.add_le_add_left hrest.le first
  before count hcount := by
    by_cases hfirst : count < first
    · exact h.before count hfirst
    · obtain ⟨rest, rfl⟩ := Nat.exists_eq_add_of_le (Nat.le_of_not_lt hfirst)
      rcases Nat.eq_zero_or_pos rest with rfl | hpos
      · -- At the seam the last outcome is still the one of the first part.
        exact hends
      · rw [machine.lastOutcome_add first hpos]
        exact hrest.before rest (Nat.lt_of_add_lt_add_left hcount)
  ends hlt := by
    rw [machine.lastOutcome_add first (hrest.pos hsecond)]
    exact hrest.ends (Nat.lt_of_add_lt_add_left hlt)

/-- The run that such a continuation adds up to. -/
theorem runBounded_append {first second : Nat} (h : machine.EndsAfter boundary first first)
    (hends : ¬boundary.Ends (machine.lastOutcome first)) (hsecond : 0 < second) :
    machine.runBounded (first + second) boundary =
      let rest := (machine.after first).runBounded second boundary
      (⟨first + rest.1.steps, rest.1.final⟩, rest.2) := by
  obtain ⟨steps, hsteps, hrest⟩ := (machine.after first).exists_runBounded boundary second
  rw [(h.append hends hsecond hsteps).runBounded, hrest, ran, after_add,
    machine.lastOutcome_add first (hsteps.pos hsecond)]
  rfl

end Machine

/-- A bounded run can be cut anywhere. The run with the first part of the budget is all of
it, if an outcome has ended it there. Otherwise it has spent its part, and a run with the
rest of the budget, from the machine that it leaves, completes it. In both cases it leaves
the machine after its number of steps, with the outcome of the last one. -/
theorem runBounded_cut (machine : Machine) (boundary : Boundary) (first second : Nat) :
    let run := machine.runBounded first boundary
    let rest := run.2.runBounded second boundary
    (boundary.Ends run.1.final → machine.runBounded (first + second) boundary = run)
      ∧ (¬boundary.Ends run.1.final → run.1.steps = first
        ∧ (0 < second → machine.runBounded (first + second) boundary
          = (⟨first + rest.1.steps, rest.1.final⟩, rest.2)))
      ∧ run.1.steps ≤ first
      ∧ run.2 = machine.after run.1.steps
      ∧ run.1.final = machine.lastOutcome run.1.steps := by
  obtain ⟨steps, hsteps, hrun⟩ := machine.exists_runBounded boundary first
  rw [hrun]
  -- The last outcome of these steps decides whether the rest of the budget is touched.
  refine ⟨?_, ?_, hsteps.le, rfl, rfl⟩
  · intro hends
    exact (hsteps.extend hends second).runBounded
  · intro hends
    have hspent : steps = first := hsteps.eq_budget hends
    rw [hspent] at hsteps hends ⊢
    exact ⟨rfl, fun hsecond => Machine.runBounded_append hsteps hends hsecond⟩

/-- A word that is no instruction, before zeros. The cut behind it is the end of the run that
stops at faults and the middle of the one that steps over them. -/
theorem runBounded_cut_fault :
    let machine := Machine.probe 0xFC000000 1
    let rest := (machine.runBounded 1 .halted).2.runBounded 2 .halted
    Boundary.fault.Ends (machine.runBounded 1 .fault).1.final
      ∧ machine.runBounded (1 + 2) .fault = machine.runBounded 1 .fault
      ∧ ¬Boundary.halted.Ends (machine.runBounded 1 .halted).1.final
      ∧ machine.runBounded (1 + 2) .halted = (⟨1 + rest.1.steps, rest.1.final⟩, rest.2) := by
  intro machine rest
  have hfault : (machine.runBounded 1 .fault).1.final
      = .faulted (.unknownInstruction 0xFC000000) := by
    decide +kernel
  have hends : Boundary.fault.Ends (machine.runBounded 1 .fault).1.final :=
    .inr ⟨rfl, _, hfault⟩
  have hgoes : ¬Boundary.halted.Ends (machine.runBounded 1 .halted).1.final := by
    rw [Boundary.ends_halted_iff]
    decide +kernel
  obtain ⟨hstop, -⟩ := runBounded_cut machine .fault 1 2
  obtain ⟨-, hcontinue, -⟩ := runBounded_cut machine .halted 1 2
  exact ⟨hends, hstop hends, hgoes, (hcontinue hgoes).2 (by decide)⟩

end MiniMips
