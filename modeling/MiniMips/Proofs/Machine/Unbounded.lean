import MiniMips.Proofs.Machine.Run

/-!
# `MiniMips.Proofs.Machine.Unbounded`: the run without a budget

A run without a budget is a loop that only the end of the program leaves. `Machine.Loops`
is this loop: the least relation that is closed under its two kinds of turns, so that a loop
that is never left comes to nothing. `Machine.run` computes it as far as its steps can be
counted, and the theorems tie both to the bounded runs.

The bridge is the number of steps. `Machine.HaltsAfter` says that the program ends with a
given step and not before. The theorems:

* `Machine.runWith_eq_some_iff`: `Machine.run` is the loop, as far as it counts.
* `Machine.loops_iff`: the loop is left after the number of steps that ends the program.
* `Machine.HaltsAfter.runBounded`, `Machine.HaltsAfter.runBounded_of_lt`: bounded runs with
  at least as many steps, and with fewer.
* `run_iff_runBounded`: so the run without a budget agrees with all bounded runs.
-/

set_option autoImplicit false

namespace MiniMips

namespace Machine

/-! ### The loop -/

/-- Steps until one of them ends the program, with `taken` steps before. The loop comes to
an outcome and a machine only if such a step is reached. -/
inductive Loops : (taken : Nat) → Machine → RunOutcome → Machine → Prop
  | leave {taken : Nat} {machine : Machine} (h : machine.step.1.isHalted = true) :
    Loops taken machine ⟨taken + 1, machine.step.1⟩ machine.step.2
  | turn {taken : Nat} {machine : Machine} {outcome : RunOutcome} {last : Machine}
    (h : machine.step.1.isHalted = false) (rest : Loops (taken + 1) machine.step.2 outcome last) :
    Loops taken machine outcome last

variable {taken : Nat} {machine last : Machine} {outcome : RunOutcome}

/-- The loop is left with the first step that ends the program. -/
theorem loops_iff_of_halted (h : machine.step.1.isHalted = true) :
    Loops taken machine outcome last
      ↔ ⟨taken + 1, machine.step.1⟩ = outcome ∧ machine.step.2 = last := by
  constructor
  · intro hloops
    cases hloops with
    | leave _ => exact ⟨rfl, rfl⟩
    | turn hrunning _ => exact absurd h (Bool.eq_false_iff.mp hrunning)
  · rintro ⟨rfl, rfl⟩
    exact .leave h

/-- And goes on with any other. -/
theorem loops_iff_of_not_halted (h : machine.step.1.isHalted = false) :
    Loops taken machine outcome last ↔ Loops (taken + 1) machine.step.2 outcome last := by
  constructor
  · intro hloops
    cases hloops with
    | leave hhalted => exact absurd hhalted (Bool.eq_false_iff.mp h)
    | turn _ rest => exact rest
  · exact .turn h

/-- The loop counts the step that ends it. -/
theorem Loops.lt_steps (h : Loops taken machine outcome last) : taken < outcome.steps := by
  induction h with
  | leave _ => exact Nat.lt_succ_self _
  | turn _ _ ih => exact Nat.lt_of_succ_lt ih

/-- One turn of the loop that counts. -/
theorem runWith_succ (fuel taken : Nat) (machine : Machine) :
    machine.runWith (fuel + 1) taken =
      if machine.step.1.isHalted then some (⟨taken + 1, machine.step.1⟩, machine.step.2)
      else machine.step.2.runWith fuel (taken + 1) := rfl

/-- The loop that counts comes to what the loop comes to, if the steps can be counted. -/
theorem runWith_eq_some_iff {fuel : Nat} :
    machine.runWith fuel taken = some (outcome, last)
      ↔ Loops taken machine outcome last ∧ outcome.steps ≤ taken + fuel := by
  -- Induction on the fuel, for every machine and every count of steps already taken.
  induction fuel generalizing taken machine with
  | zero =>
    refine iff_of_false (by simp [runWith]) ?_
    rintro ⟨hloops, hsteps⟩
    exact absurd hloops.lt_steps (Nat.not_lt.mpr hsteps)
  | succ fuel ih =>
    rw [runWith_succ]
    cases hhalted : machine.step.1.isHalted with
    | true =>
      rw [loops_iff_of_halted hhalted, if_pos rfl, Option.some.injEq, Prod.mk.injEq]
      refine (and_iff_left_of_imp ?_).symm
      rintro ⟨rfl, -⟩
      exact Nat.add_le_add_left (Nat.succ_pos fuel) taken
    | false =>
      rw [loops_iff_of_not_halted hhalted, if_neg Bool.false_ne_true, ih,
        show taken + 1 + fuel = taken + (fuel + 1) by omega]

/-! ### The step that ends the program -/

/-- Whether the program ends with the last of a number of steps, and not before. -/
structure HaltsAfter (machine : Machine) (steps : Nat) : Prop where
  before : ∀ count < steps, ¬Boundary.halted.Ends (machine.lastOutcome count)
  ends : Boundary.halted.Ends (machine.lastOutcome steps)

variable {steps budget : Nat}

/-- It takes a step to halt. -/
theorem HaltsAfter.pos (h : machine.HaltsAfter steps) : 0 < steps := by
  cases steps with
  | zero => exact absurd h.ends Boundary.halted.not_ends_running
  | succ steps => exact Nat.succ_pos steps

/-- A program that ends with the first step ends with no other. -/
theorem haltsAfter_iff_of_halted (h : machine.step.1.isHalted = true) :
    machine.HaltsAfter steps ↔ steps = 1 := by
  have hfirst : Boundary.halted.Ends (machine.lastOutcome 1) := Boundary.ends_halted_iff.mpr h
  constructor
  · intro hhalts
    refine Nat.le_antisymm (Nat.le_of_not_lt ?_) hhalts.pos
    intro hlt
    exact hhalts.before 1 hlt hfirst
  · rintro rfl
    refine ⟨?_, hfirst⟩
    intro count hcount
    rw [Nat.lt_one_iff.mp hcount, lastOutcome_zero]
    exact Boundary.halted.not_ends_running

/-- A step that does not end the program can be left out of the count. -/
theorem haltsAfter_succ_iff (h : machine.step.1.isHalted = false) :
    machine.HaltsAfter (steps + 1) ↔ machine.step.2.HaltsAfter steps := by
  have hends : ∀ count, Boundary.halted.Ends (machine.lastOutcome (count + 1))
      ↔ Boundary.halted.Ends (machine.step.2.lastOutcome count) := by
    intro count
    rcases Nat.eq_zero_or_pos count with rfl | hpos
    · -- The outcome of this very step, and the outcome of no step.
      refine iff_of_false ?_ Boundary.halted.not_ends_running
      exact mt Boundary.ends_halted_iff.mp (Bool.eq_false_iff.mp h)
    · rw [machine.lastOutcome_succ' hpos]
  -- The step counted first does not end the run, so every later end moves by one step.
  constructor
  · intro hhalts
    refine ⟨?_, (hends steps).mp hhalts.ends⟩
    intro count hcount
    exact mt (hends count).mpr (hhalts.before (count + 1) (Nat.succ_lt_succ hcount))
  · intro hhalts
    refine ⟨?_, (hends steps).mpr hhalts.ends⟩
    intro count hcount
    cases count with
    | zero => exact Boundary.halted.not_ends_running
    | succ count =>
      exact mt (hends count).mp (hhalts.before count (Nat.lt_of_succ_lt_succ hcount))

/-- The loop is left after the number of steps that ends the program. -/
theorem loops_iff :
    Loops taken machine outcome last
      ↔ ∃ steps, machine.HaltsAfter steps
        ∧ outcome = ⟨taken + steps, machine.lastOutcome steps⟩ ∧ last = machine.after steps := by
  constructor
  · -- Each turn of the loop adds one step to the number.
    intro hloops
    induction hloops with
    | leave hhalted => exact ⟨1, (haltsAfter_iff_of_halted hhalted).mpr rfl, rfl, rfl⟩
    | @turn taken machine outcome last hrunning rest ih =>
      obtain ⟨steps, hhalts, rfl, rfl⟩ := ih
      refine ⟨steps + 1, (haltsAfter_succ_iff hrunning).mpr hhalts, ?_,
        machine.after_succ' steps⟩
      rw [machine.lastOutcome_succ' hhalts.pos, Nat.add_right_comm, Nat.add_assoc]
  · rintro ⟨steps, hhalts, rfl, rfl⟩
    induction steps generalizing taken machine with
    | zero => exact absurd hhalts.pos (Nat.lt_irrefl 0)
    | succ steps ih =>
      cases hhalted : machine.step.1.isHalted with
      | true =>
        -- The program ends with this step, so the number is one.
        cases (haltsAfter_iff_of_halted hhalted).mp hhalts
        exact .leave hhalted
      | false =>
        have hrest := (haltsAfter_succ_iff hhalted).mp hhalts
        rw [machine.lastOutcome_succ' hrest.pos, machine.after_succ', ← Nat.add_assoc,
          Nat.add_right_comm]
        exact .turn hhalted (ih hrest)

/-! ### Bounded runs of a program that ends -/

/-- A budget that suffices makes no difference. -/
theorem HaltsAfter.runBounded (h : machine.HaltsAfter steps) (hle : steps ≤ budget) :
    machine.runBounded budget .halted = machine.ran steps :=
  EndsAfter.runBounded ⟨hle, h.before, fun _ => h.ends⟩

/-- A smaller one is spent before the program ends. -/
theorem HaltsAfter.runBounded_of_lt (h : machine.HaltsAfter steps) (hlt : budget < steps) :
    machine.runBounded budget .halted = machine.ran budget := by
  refine EndsAfter.runBounded (endsAfter_self ?_)
  intro count hcount
  exact h.before count (Nat.lt_trans hcount hlt)

/-- The step with which a bounded run ends the program is the first that does. -/
theorem haltsAfter_of_runBounded {reason : HaltReason}
    (h : machine.runBounded budget .halted = (⟨steps, .halted reason⟩, last)) :
    machine.HaltsAfter steps ∧ (⟨steps, .halted reason⟩, last) = machine.ran steps := by
  -- The run has taken the number of steps that ends it, and reports that number.
  obtain ⟨taken, htaken, hrun⟩ := machine.exists_runBounded .halted budget
  have hran : (⟨steps, .halted reason⟩, last) = machine.ran taken := h.symm.trans hrun
  have hsteps : steps = taken := congrArg (·.1.steps) hran
  have hfinal : .halted reason = machine.lastOutcome taken := congrArg (·.1.final) hran
  rw [hsteps] at hran ⊢
  refine ⟨⟨htaken.before, ?_⟩, hran⟩
  rw [← hfinal]
  exact Boundary.halted.ends_halted reason

/-- What the run without a budget comes to, by the step that ends the program. -/
theorem loops_zero_iff {final : StepOutcome} :
    Loops 0 machine ⟨steps, final⟩ last
      ↔ machine.HaltsAfter steps ∧ (⟨steps, final⟩, last) = machine.ran steps := by
  rw [loops_iff]
  constructor
  · rintro ⟨taken, hhalts, houtcome, rfl⟩
    rw [Nat.zero_add] at houtcome
    cases houtcome
    exact ⟨hhalts, rfl⟩
  · rintro ⟨hhalts, hran⟩
    cases hran
    exact ⟨steps, hhalts, by rw [Nat.zero_add], rfl⟩

/-- The run without a budget is the loop, if its steps can be counted. -/
theorem run_eq_some_iff {final : StepOutcome} (hsteps : steps < 2 ^ 64) :
    machine.run = some (⟨steps, final⟩, last) ↔ Loops 0 machine ⟨steps, final⟩ last := by
  rw [run, runWith_eq_some_iff]
  refine and_iff_left ?_
  show steps ≤ 0 + maxSteps
  unfold maxSteps
  omega

/-- A program that ends after a number of steps that can be counted is run to its end. -/
theorem HaltsAfter.run (h : machine.HaltsAfter steps) (hsteps : steps < 2 ^ 64) :
    machine.run = some (machine.ran steps) :=
  (run_eq_some_iff hsteps).mpr (loops_zero_iff.mpr ⟨h, rfl⟩)

end Machine

/-- The run without a budget agrees with the bounded runs. It ends the program after a number
of steps that can be counted exactly when all bounded runs with at least as many steps do,
and then those with fewer spend their budget and do not end the program. What it comes to is
what the loop without any limit comes to. -/
theorem run_iff_runBounded (machine last : Machine) (reason : HaltReason) {steps : Nat}
    (hsteps : steps < 2 ^ 64) :
    (machine.run = some (⟨steps, .halted reason⟩, last) ↔
        ∀ budget, steps ≤ budget → budget < 2 ^ 64 →
          machine.runBounded budget .halted = (⟨steps, .halted reason⟩, last))
      ∧ (machine.run = some (⟨steps, .halted reason⟩, last) →
        ∀ budget < steps, (machine.runBounded budget .halted).1.steps = budget
          ∧ ∀ other, (machine.runBounded budget .halted).1.final ≠ .halted other)
      ∧ (machine.run = some (⟨steps, .halted reason⟩, last) ↔
        Machine.Loops 0 machine ⟨steps, .halted reason⟩ last) := by
  have hrun : machine.run = some (⟨steps, .halted reason⟩, last)
      ↔ Machine.Loops 0 machine ⟨steps, .halted reason⟩ last :=
    Machine.run_eq_some_iff hsteps
  refine ⟨?_, ?_, hrun⟩
  · rw [hrun, Machine.loops_zero_iff]
    constructor
    · rintro ⟨hhalts, hran⟩ budget hle -
      rw [hran]
      exact hhalts.runBounded hle
    · -- The smallest of these budgets is enough to see where the program ends.
      intro hbounded
      exact Machine.haltsAfter_of_runBounded (hbounded steps (Nat.le_refl steps) hsteps)
  · intro hrun' budget hlt
    obtain ⟨hhalts, -⟩ := Machine.loops_zero_iff.mp (hrun.mp hrun')
    rw [hhalts.runBounded_of_lt hlt]
    refine ⟨rfl, ?_⟩
    intro other hfinal
    refine hhalts.before budget hlt ?_
    rw [show machine.lastOutcome budget = .halted other from hfinal]
    exact Boundary.halted.ends_halted other

/-- A word that is no instruction, before zeros. The run steps over its fault and ends. -/
theorem run_iff_runBounded_two_steps :
    let machine := Machine.probe 0xFC000000 1
    2 < 2 ^ 64
      ∧ machine.run = some (⟨2, .halted .zeroWord⟩, machine.after 2)
      ∧ (∀ budget, 2 ≤ budget → budget < 2 ^ 64 →
        machine.runBounded budget .halted = (⟨2, .halted .zeroWord⟩, machine.after 2))
      ∧ ∀ budget < 2, (machine.runBounded budget .halted).1.steps = budget
        ∧ ∀ other, (machine.runBounded budget .halted).1.final ≠ .halted other := by
  intro machine
  have hfirst : machine.step.1.isHalted = false := by decide +kernel
  have hsecond : machine.step.2.step.1 = .halted .zeroWord := by decide +kernel
  have hhalts : machine.HaltsAfter (1 + 1) := by
    rw [Machine.haltsAfter_succ_iff hfirst, Machine.haltsAfter_iff_of_halted (by rw [hsecond]; rfl)]
  have hran : (⟨2, .halted .zeroWord⟩, machine.after 2) = machine.ran 2 := by
    rw [← hsecond]
    rfl
  obtain ⟨hbounded, hless, hloops⟩ :=
    run_iff_runBounded machine (machine.after 2) .zeroWord (show 2 < 2 ^ 64 by decide)
  have hrun := hloops.mpr (Machine.loops_zero_iff.mpr ⟨hhalts, hran⟩)
  exact ⟨by decide, hrun, hbounded.mp hrun, hless hrun⟩

end MiniMips
