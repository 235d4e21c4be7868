import MiniMips.Proofs.Machine.Records

/-!
# `MiniMips.Proofs.Machine.Accounting`: every record of a run is accounted for

`Machine.stepRecords` collects the records of a step from the places that write them: the
trace, the effect of the instruction, and the report of a fault. `Machine.account` says what
a reader of the console expects instead. It asks how the step has ended and which word it has
fetched, and for a system call it looks at two registers. It knows nothing of effects.

The two agree on every machine,

    machine.stepRecords = machine.account

so the console after a run is the account of its steps, one after the other. The theorems:

* `records_systemCall`: a system call leaves the one record that its number asks for.
* `Instruction.records_of_effect`: and no other instruction leaves any.
* `Machine.stepRecords_eq_account`: the account of a step.
* `Machine.countP_isError_account`: it has an error record exactly if the step has a fault.
* `console_accounted`: the account of a run.
-/

set_option autoImplicit false

namespace MiniMips

open Text

/-! ### What a step is expected to record -/

/-- The character with a code. Codes without a character, so the surrogates, give U+FFFD. -/
def characterWithCode (code : Nat) : Char :=
  if code.isValidChar then Char.ofNat code else '\uFFFD'

/-- The record of a system call for a service number and an argument. -/
def systemCallRecord (number argument : Nat) : ConsoleRecord :=
  if number = 1 then
    ⟨.normal, decimal argument⟩
  else if number = 10 then
    ⟨.normal, "program exited"⟩
  else if number = 11 then
    ⟨.normal, String.singleton (characterWithCode (argument % 2 ^ 16))⟩
  else
    ⟨.debug, "[DEBUG] ignored syscall service " ++ decimal number⟩

/-- The records of a step, told from its outcome, the fetched word and the registers of a
system call. The trace comes first, also for the word of zeros. -/
def Machine.account (machine : Machine) : List ConsoleRecord :=
  machine.traceRecords ++
    match machine.step.1, machine.memory.read machine.registers.pc .word with
    | .faulted fault, _ => [⟨.error, "[ERROR] " ++ fault.message⟩]
    | _, .ok word =>
      if (Fields.ofWord word).operation? = some (.register .syscall) then
        [systemCallRecord (machine.registers.get .v0).toNat (machine.registers.get .a0).toNat]
      else []
    | _, .error _ => []

/-- Whether a record reports a fault. -/
def ConsoleRecord.isError (record : ConsoleRecord) : Bool :=
  record.channel == .error

/-- Whether a step had a fault. -/
def StepOutcome.isFaulted : StepOutcome → Bool
  | faulted _ => true
  | _ => false

/-! ### System calls -/

/-- Of the codes with sixteen bits only the surrogates are no characters. -/
theorem characterOf_eq (value : Word) :
    characterOf value = characterWithCode (value.toNat % 2 ^ 16) := by
  have hlt : value.toNat % 2 ^ 16 < 2 ^ 16 := Nat.mod_lt _ (by decide)
  show (if 0xD800 ≤ value.toNat % 2 ^ 16 ∧ value.toNat % 2 ^ 16 ≤ 0xDFFF then '\uFFFD'
    else Char.ofNat (value.toNat % 2 ^ 16)) = _
  unfold characterWithCode Nat.isValidChar
  by_cases hsurrogate : 0xD800 ≤ value.toNat % 2 ^ 16 ∧ value.toNat % 2 ^ 16 ≤ 0xDFFF
  · rw [if_pos hsurrogate, if_neg (by omega)]
  · rw [if_neg hsurrogate, if_pos (by omega)]

/-- A system call leaves the one record that its number asks for. -/
theorem records_systemCall (number argument : Word) :
    (systemCall number argument).records
      = [systemCallRecord number.toNat argument.toNat] := by
  unfold systemCall systemCallRecord
  rw [characterOf_eq]
  generalize number.toNat = number
  cases hservice : Service.ofNumber? number with
  | none =>
    -- No service has this number, so it is none of the three.
    have hother : ∀ service : Service, number ≠ service.number := by
      intro service hnumber
      rw [Service.ofNumber?_eq_some_iff.mpr hnumber.symm] at hservice
      cases hservice
    rw [if_neg (show number ≠ 1 from hother .printInteger),
      if_neg (show number ≠ 10 from hother .exit),
      if_neg (show number ≠ 11 from hother .printCharacter)]
    rfl
  | some service =>
    obtain rfl := Service.ofNumber?_eq_some_iff.mp hservice
    cases service <;> rfl

/-- An effect leaves a record exactly if a system call asks for it. -/
theorem Instruction.records_of_effect {op : Operation} {fields : Fields}
    {registers : Registers} {memory : Memory} {effect : Effect}
    (h : (Instruction.mk op fields).effect registers memory = .ok effect) :
    effect.records =
      if op = .register .syscall then
        [systemCallRecord (registers.get .v0).toNat (registers.get .a0).toNat]
      else [] := by
  cases op with
  | register op =>
    cases op with
    | syscall =>
      cases h
      rw [if_pos rfl]
      exact records_systemCall _ _
    | divide =>
      simp only [Instruction.effect, RegisterOp.effect] at h
      split at h
      · cases h
      · cases h
        rfl
    | _ => cases h; rfl
  | primary op =>
    cases op with
    | branch op =>
      -- A branch jumps or does nothing, and is silent both ways.
      simp only [Instruction.effect, PrimaryOp.effect] at h
      split at h <;> cases h <;> rfl
    | load op | store op =>
      simp only [Instruction.effect, PrimaryOp.effect] at h
      split at h
      · cases h
        rfl
      · cases h
    | _ => cases h; rfl

/-! ### One step -/

namespace Machine

/-- The records of a word with an effect. -/
theorem records_of_effectOf {machine : Machine} {word : Word} {effect : Effect}
    (h : machine.effectOf word = .ok effect) :
    effect.records =
      if (Fields.ofWord word).operation? = some (.register .syscall) then
        [systemCallRecord (machine.registers.get .v0).toNat
          (machine.registers.get .a0).toNat]
      else [] := by
  obtain ⟨op, hop, heffect⟩ := exists_effect_of_effectOf h
  rw [hop, Instruction.records_of_effect heffect]
  simp only [Option.some.injEq]

/-- The records of a step are those of its account. -/
theorem stepRecords_eq_account (machine : Machine) :
    machine.stepRecords = machine.account := by
  unfold stepRecords ownRecords account
  cases hread : machine.memory.read machine.registers.pc .word with
  | error fault =>
    rw [step_of_read_error hread]
    rfl
  | ok word =>
    rw [step_of_read hread]
    by_cases hword : word = 0
    · -- The word of zeros is a shift, so no system call hides behind the halt.
      have hshift : (Fields.ofWord word).operation? ≠ some (.register .syscall) := by
        rw [hword, operation?_zero]
        simp
      simp only [if_pos hword, if_neg hshift]
    · simp only [if_neg hword]
      -- The execution comes to the same effect or fault with and without the trace.
      have htrace := effectOf_trace machine.advance word word
      rw [executionRecords]
      cases heffect : machine.advance.effectOf word with
      | error fault =>
        rw [execute_of_fault (htrace.trans heffect)]
        rfl
      | ok effect =>
        rw [execute_of_effectOf (htrace.trans heffect)]
        show machine.traceRecords ++ effect.records = _
        rw [records_of_effectOf heffect]
        -- No effect ends in a fault, so the account asks for the operation of the word.
        cases effect <;> rfl

/-! ### Errors -/

/-- No trace is an error. -/
theorem countP_isError_traceRecords (machine : Machine) :
    machine.traceRecords.countP ConsoleRecord.isError = 0 := by
  unfold traceRecords
  cases machine.memory.read machine.registers.pc .word with
  | error fault => rfl
  | ok word =>
    show (if machine.config.debugTrace then _ else []).countP ConsoleRecord.isError = 0
    split <;> rfl

/-- The record of a system call is no error, not even that of an ignored one. -/
theorem isError_systemCallRecord (number argument : Nat) :
    (systemCallRecord number argument).isError = false := by
  unfold systemCallRecord
  repeat' split
  all_goals rfl

/-- A step leaves one error record if it has a fault, and none otherwise. -/
theorem countP_isError_account (machine : Machine) :
    machine.account.countP ConsoleRecord.isError
      = if machine.step.1.isFaulted then 1 else 0 := by
  unfold account
  rw [List.countP_append, countP_isError_traceRecords, Nat.zero_add]
  cases machine.step.1 with
  -- A fault accounts for its one record by definition. Every other outcome may have come from
  -- a system call, whose record is not an error, or from a word read as none.
  | faulted fault => rfl
  | running | halted =>
    cases machine.memory.read machine.registers.pc .word with
    | error fault => rfl
    | ok word =>
      show (if (Fields.ofWord word).operation? = some (.register .syscall) then _
        else []).countP ConsoleRecord.isError = 0
      split
      · rw [List.countP_singleton, isError_systemCallRecord]
        rfl
      · rfl

/-! ### A number of steps -/

/-- A run adds the accounts of its steps. -/
theorem addedRecords_eq (machine : Machine) (count : Nat) :
    machine.addedRecords count
      = (List.range count).flatMap fun i => (machine.after i).account := by
  unfold addedRecords
  simp only [stepRecords_eq_account]

/-- A run adds one error record for each of its faults. -/
theorem countP_isError_addedRecords (machine : Machine) (count : Nat) :
    (machine.addedRecords count).countP ConsoleRecord.isError
      = (List.range count).countP fun i => (machine.after i).step.1.isFaulted := by
  induction count with
  | zero => rfl
  | succ count ih =>
    rw [addedRecords_succ, List.countP_append, ih, stepRecords_eq_account,
      countP_isError_account, List.range_succ, List.countP_append, List.countP_singleton]

end Machine

/-- Every record of a run is accounted for. After any number of steps the console holds what
it held before, and then the account of each step in the order of the steps. No record is
dropped, doubled or out of its place. There are as many new error records as steps with a
fault. -/
theorem console_accounted (machine : Machine) (count : Nat) :
    (machine.after count).console.records.toList
        = machine.console.records.toList
          ++ (List.range count).flatMap (fun i => (machine.after i).account)
      ∧ (machine.after count).console.records.toList.countP ConsoleRecord.isError
        = machine.console.records.toList.countP ConsoleRecord.isError
          + (List.range count).countP fun i => (machine.after i).step.1.isFaulted := by
  constructor
  · rw [machine.toList_after, machine.addedRecords_eq]
  · rw [machine.toList_after, List.countP_append, machine.countP_isError_addedRecords]

/-- A system call that prints, and then the end of the program. -/
example : (List.range 2).flatMap (fun i => ((Machine.probe 0x0000000C 2).after i).account)
    = [⟨.debug, "[DEBUG] executed: syscall"⟩, ⟨.normal, "0"⟩,
      ⟨.debug, "[DEBUG] executed: sll $zero $zero 0"⟩] := by
  decide +kernel

end MiniMips
