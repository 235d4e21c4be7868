import MiniMips.Proofs.Machine.Frame
import MiniMips.Proofs.Machine.Unbounded

/-!
# `MiniMips.Proofs.Machine.Calls`: what a host can do to a machine

A host steps and runs the machine, loads programs and data, changes registers and memory,
prints on the console, saves, resets and configures. `MachineCall` lists these calls,
`Machine.call` makes one of them, and `Machine.calls` makes them one after the other. A run
without a budget may not return, and then no later call is made.

Two parts of the machine are out of reach for its program: the saved copy of the registers
and the configuration. `MachineCall.saved` and `MachineCall.config` tell what each call leaves
of them, and the rest is induction. The theorems:

* `Machine.calls_append`: calls can be made in two parts.
* `Machine.exists_calls`: calls return, but for runs without a budget.
* `Machine.kept_call`: what a call does to the two parts.
* `Machine.calls_keep`: invariants of calls.
* `Machine.saved_calls`, `Machine.saved_eq_none_of_calls`, `Machine.config_calls`: what is left
  of them behind many calls.
-/

set_option autoImplicit false

namespace MiniMips

/-! ### Calls and their answers -/

/-- A call of a host. -/
inductive MachineCall where
  | step
  | runBounded (budget : Nat) (boundary : Boundary)
  | run
  /-- Sets a general register, where indices above 31 are refused. -/
  | setRegister (index : Nat) (value : Word)
  | jump (address : Word)
  | setHi (value : Word)
  | setLo (value : Word)
  | save
  /-- Sets back the registers alone. -/
  | resetRegisters
  | write (address : Word) (size : AccessSize) (value : Word)
  | resetMemory
  | load (address : Word) (words : List Word)
  | loadProgram (words : List Word)
  | print (channel : Channel) (text : String)
  | clearConsole
  | configure (config : Config)
  | reset
deriving DecidableEq, Repr

/-- What a host is told. -/
inductive Answer where
  | done
  | refused (fault : Fault)
  | stepped (outcome : StepOutcome)
  | ran (outcome : RunOutcome)
deriving DecidableEq, Repr

/-- The answer for the result of a loading. -/
def Answer.ofResult : Except Fault Unit → Answer
  | .ok () => done
  | .error fault => refused fault

namespace MachineCall

/-- Whether a call sets the registers back. -/
def IsReset (call : MachineCall) : Prop :=
  call = reset ∨ call = resetRegisters

instance (call : MachineCall) : Decidable call.IsReset :=
  inferInstanceAs (Decidable (_ ∨ _))

/-- The saved copy behind a call on registers. -/
def saved (registers : RegisterFile) : MachineCall → Option Registers
  | save => some registers.toRegisters
  | resetRegisters | reset => none
  | _ => registers.saved

/-- The configuration behind a call. -/
def config (before : Config) : MachineCall → Config
  | configure config => config
  | _ => before

variable {registers : RegisterFile} {call : MachineCall}

/-- A reset drops the saved registers. -/
theorem saved_of_isReset (h : call.IsReset) : call.saved registers = none := by
  rcases h with rfl | rfl <;> rfl

/-- All other calls but `save` keep the copy. -/
theorem saved_of_ne (hsave : call ≠ save) (hreset : ¬call.IsReset) :
    call.saved registers = registers.saved := by
  cases call with
  | save => exact absurd rfl hsave
  | reset => exact absurd (.inl rfl) hreset
  | resetRegisters => exact absurd (.inr rfl) hreset
  | _ => rfl

end MachineCall

namespace Machine

/-- The answer to a call and the machine behind it, if the call returns. -/
def call (machine : Machine) : MachineCall → Option (Answer × Machine)
  | .step => some (.stepped machine.step.1, machine.step.2)
  | .runBounded budget boundary =>
    let (outcome, last) := machine.runBounded budget boundary
    some (.ran outcome, last)
  | .run => machine.run.map fun (outcome, last) => (.ran outcome, last)
  | .setRegister index value =>
    match machine.registers.write index value with
    | .ok registers => some (.done, { machine with registers := registers })
    | .error fault => some (.refused fault, machine)
  | .jump address => some (.done, { machine with registers.pc := address })
  | .setHi value => some (.done, { machine with registers.hi := value })
  | .setLo value => some (.done, { machine with registers.lo := value })
  | .save => some (.done, { machine with registers := machine.registers.save })
  | .resetRegisters => some (.done, { machine with registers := machine.registers.reset })
  | .write address size value =>
    match machine.memory.write address size value with
    | .ok memory => some (.done, { machine with memory := memory })
    | .error fault => some (.refused fault, machine)
  | .resetMemory => some (.done, { machine with memory := .zeros })
  | .load address words =>
    let (loaded, result) := machine.loadWords address words
    some (.ofResult result, loaded)
  | .loadProgram words =>
    let (loaded, result) := machine.loadProgram words
    some (.ofResult result, loaded)
  | .print channel text => some (.done, machine.print channel text)
  | .clearConsole => some (.done, { machine with console := .empty })
  | .configure config => some (.done, { machine with config := config })
  | .reset => some (.done, machine.reset)

/-- The answers to calls and the machine behind them, if all of them return. -/
def calls (machine : Machine) : List MachineCall → Option (List Answer × Machine)
  | [] => some ([], machine)
  | call :: rest =>
    match machine.call call with
    | none => none
    | some (answer, next) =>
      (next.calls rest).map fun (answers, last) => (answer :: answers, last)

variable {machine next after : Machine} {call : MachineCall} {calls : List MachineCall}
  {answer : Answer} {answers : List Answer}

/-- A sequence of calls is its first call and then the rest, on the machine that the first
leaves. -/
theorem calls_cons (h : machine.call call = some (answer, next)) (calls : List MachineCall) :
    machine.calls (call :: calls)
      = (next.calls calls).map fun (answers, last) => (answer :: answers, last) := by
  rw [Machine.calls, h]

/-- The first of several calls that all return. -/
theorem exists_of_calls_cons (h : machine.calls (call :: calls) = some (answers, after)) :
    ∃ answer next rest, machine.call call = some (answer, next)
      ∧ next.calls calls = some (rest, after) ∧ answers = answer :: rest := by
  cases hcall : machine.call call with
  | none =>
    rw [Machine.calls, hcall] at h
    cases h
  | some result =>
    obtain ⟨answer, next⟩ := result
    rw [calls_cons hcall, Option.map_eq_some_iff] at h
    obtain ⟨⟨rest, last⟩, hrest, heq⟩ := h
    cases heq
    exact ⟨answer, next, rest, rfl, hrest, rfl⟩

/-- Calls can be made in two parts. -/
theorem calls_append (h : machine.calls calls = some (answers, after))
    (more : List MachineCall) :
    machine.calls (calls ++ more)
      = (after.calls more).map fun (rest, last) => (answers ++ rest, last) := by
  induction calls generalizing machine answers with
  | nil =>
    cases h
    exact Option.map_id'.symm
  | cons call calls ih =>
    obtain ⟨answer, next, rest, hcall, hrest, rfl⟩ := exists_of_calls_cons h
    rw [List.cons_append, calls_cons hcall, ih hrest, Option.map_map]
    rfl

/-! ### Calls return -/

/-- Every call but `run` has an answer. Only `run` can go on forever. -/
theorem exists_call (machine : Machine) (h : call ≠ .run) :
    ∃ answer next, machine.call call = some (answer, next) := by
  cases call with
  | run => exact absurd rfl h
  | setRegister index value =>
    rw [Machine.call]
    cases machine.registers.write index value with
    | ok registers => exact ⟨_, _, rfl⟩
    | error fault => exact ⟨_, _, rfl⟩
  | write address size value =>
    rw [Machine.call]
    cases machine.memory.write address size value with
    | ok memory => exact ⟨_, _, rfl⟩
    | error fault => exact ⟨_, _, rfl⟩
  | _ => exact ⟨_, _, rfl⟩

/-- Calls return, but for runs without a budget. There is one answer for each. -/
theorem exists_calls (machine : Machine) (h : .run ∉ calls) :
    ∃ answers after, machine.calls calls = some (answers, after)
      ∧ answers.length = calls.length := by
  induction calls generalizing machine with
  | nil => exact ⟨[], machine, rfl, rfl⟩
  | cons call calls ih =>
    have hcall : call ≠ .run := fun heq => h (heq ▸ List.mem_cons_self)
    obtain ⟨answer, next, hnext⟩ := machine.exists_call hcall
    obtain ⟨answers, after, hrest, hlength⟩ := ih next (mt (List.mem_cons_of_mem call) h)
    refine ⟨answer :: answers, after, ?_, congrArg (· + 1) hlength⟩
    rw [calls_cons hnext, hrest]
    rfl

/-! ### Steps and runs -/

/-- A step keeps the saved copy and the configuration. -/
theorem kept_step (machine : Machine) :
    machine.step.2.registers.saved = machine.registers.saved
      ∧ machine.step.2.config = machine.config := by
  obtain ⟨hregisters, -, hconfig⟩ := machine.step_eq_apply
  rw [hregisters, Effect.apply_saved]
  exact ⟨rfl, hconfig⟩

/-- Steps change neither the saved registers nor the configuration. -/
theorem kept_after (machine : Machine) (count : Nat) :
    (machine.after count).registers.saved = machine.registers.saved
      ∧ (machine.after count).config = machine.config := by
  induction count with
  | zero => exact ⟨rfl, rfl⟩
  | succ count ih =>
    obtain ⟨hsaved, hconfig⟩ := (machine.after count).kept_step
    rw [after_succ, hsaved, hconfig]
    exact ih

/-- A run without a budget that returns has taken a number of steps. -/
theorem exists_after_of_run {outcome : RunOutcome} (h : machine.run = some (outcome, after)) :
    ∃ steps, after = machine.after steps := by
  obtain ⟨hloops, -⟩ := runWith_eq_some_iff.mp h
  obtain ⟨steps, -, -, hafter⟩ := loops_iff.mp hloops
  exact ⟨steps, hafter⟩

end Machine

/-- Setting a register keeps the saved copy. -/
theorem RegisterFile.saved_of_write {file written : RegisterFile} {index : Nat} {value : Word}
    (h : file.write index value = .ok written) : written.saved = file.saved := by
  unfold RegisterFile.write at h
  split at h <;> cases h
  rfl

namespace Machine

variable {machine next after : Machine} {call : MachineCall} {calls : List MachineCall}
  {answer : Answer} {answers : List Answer}

/-! ### Calls -/

/-- What a call does to the saved copy and to the configuration. -/
theorem kept_call (h : machine.call call = some (answer, next)) :
    next.registers.saved = call.saved machine.registers
      ∧ next.config = call.config machine.config := by
  cases call with
  | step =>
    cases h
    exact machine.kept_step
  | runBounded budget boundary =>
    -- Both ways of running are some number of steps, which keep the copy and the
    -- configuration.
    obtain ⟨steps, -, hrun⟩ := machine.exists_runBounded boundary budget
    rw [Machine.call, hrun] at h
    cases h
    exact machine.kept_after steps
  | run =>
    obtain ⟨⟨outcome, last⟩, hrun, heq⟩ := Option.map_eq_some_iff.mp h
    cases heq
    obtain ⟨steps, rfl⟩ := exists_after_of_run hrun
    exact machine.kept_after steps
  | setRegister index value =>
    -- A refused index leaves the machine as it is.
    rw [Machine.call] at h
    cases hwrite : machine.registers.write index value with
    | ok written =>
      rw [hwrite] at h
      cases h
      exact ⟨RegisterFile.saved_of_write hwrite, rfl⟩
    | error fault =>
      rw [hwrite] at h
      cases h
      exact ⟨rfl, rfl⟩
  | write address size value =>
    rw [Machine.call] at h
    cases hwrite : machine.memory.write address size value with
    | ok written | error fault =>
      rw [hwrite] at h
      cases h
      exact ⟨rfl, rfl⟩
  | _ =>
    cases h
    exact ⟨rfl, rfl⟩

/-- What each of several calls keeps, all of them keep. -/
theorem calls_keep (kept : Machine → Prop)
    (hkeep : ∀ call ∈ calls, ∀ machine answer next,
      machine.call call = some (answer, next) → kept machine → kept next)
    (h : machine.calls calls = some (answers, after)) (hstart : kept machine) : kept after := by
  induction calls generalizing machine answers with
  | nil =>
    cases h
    exact hstart
  | cons call calls ih =>
    obtain ⟨answer, next, rest, hcall, hrest, -⟩ := exists_of_calls_cons h
    obtain ⟨hfirst, hothers⟩ := List.forall_mem_cons.mp hkeep
    exact ih hothers hrest (hfirst machine answer next hcall hstart)

/-- Calls that neither save nor reset keep the saved copy. -/
theorem saved_calls (h : machine.calls calls = some (answers, after)) (hsave : .save ∉ calls)
    (hreset : ∀ call ∈ calls, ¬call.IsReset) :
    after.registers.saved = machine.registers.saved := by
  refine calls_keep (fun other => other.registers.saved = machine.registers.saved) ?_ h rfl
  intro call hmem other answer next hcall hkept
  rw [(kept_call hcall).1, MachineCall.saved_of_ne (ne_of_mem_of_not_mem hmem hsave)
    (hreset call hmem), hkept]

/-- Where there is no copy, only a call that saves makes one. -/
theorem saved_eq_none_of_calls (h : machine.calls calls = some (answers, after))
    (hsave : .save ∉ calls) (hnone : machine.registers.saved = none) :
    after.registers.saved = none := by
  refine calls_keep (fun other => other.registers.saved = none) ?_ h hnone
  intro call hmem other answer next hcall hkept
  rw [(kept_call hcall).1]
  by_cases hreset : call.IsReset
  · exact MachineCall.saved_of_isReset hreset
  · rw [MachineCall.saved_of_ne (ne_of_mem_of_not_mem hmem hsave) hreset, hkept]

/-- The configuration is the one that was set last. -/
theorem config_calls (h : machine.calls calls = some (answers, after)) :
    after.config = calls.foldl MachineCall.config machine.config := by
  induction calls generalizing machine answers with
  | nil =>
    cases h
    rfl
  | cons call calls ih =>
    obtain ⟨answer, next, rest, hcall, hrest, -⟩ := exists_of_calls_cons h
    rw [ih hrest, (kept_call hcall).2]
    rfl

end Machine

end MiniMips
