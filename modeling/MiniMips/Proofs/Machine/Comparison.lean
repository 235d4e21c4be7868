import MiniMips.Proofs.Machine.Calls
import MiniMips.Proofs.Registers

/-!
# `MiniMips.Proofs.Machine.Comparison`: what has changed since the registers were saved

The saved copy is hidden from the program and from most calls of a host, so the comparison
with it is exact over any activity: the copy still holds the values of the time of the save,
and the comparison is the one of these values with the present ones. Where no copy has been
made, or a reset has dropped it, all registers count as changed. The theorems:

* `Machine.comparison_of_save`: the comparison behind a save.
* `Machine.comparison_of_reset`, `Machine.comparison_of_initial`: and without one.
* `comparison_exact`: all of it, for calls that always return.
-/

set_option autoImplicit false

namespace MiniMips

/-- Whether the comparison reports all registers. -/
structure RegisterFile.AllChanged (file : RegisterFile) : Prop where
  reports : file.Reports fun _ => True
  listed : file.changedNames = RegisterName.displayed

/-- Without a saved copy every register counts as changed, in each of the three answers. -/
theorem RegisterFile.allChanged_of_not_saved {file : RegisterFile} (h : file.saved = none) :
    file.AllChanged where
  reports := reports_of_not_saved h
  listed := changedNames_of_not_saved h

namespace Machine

variable {machine after : Machine} {activity : List MachineCall} {answers : List Answer}

/-- Behind a save, and as long as there is neither a reset nor another save, the comparison is
the one with the values at the save. -/
theorem comparison_of_save (h : machine.calls (.save :: activity) = some (answers, after))
    (hsave : .save ∉ activity) (hreset : ∀ call ∈ activity, ¬call.IsReset) :
    after.registers.saved = some machine.registers.toRegisters
      ∧ after.registers.Reports fun name =>
        after.registers.value name ≠ machine.registers.value name := by
  obtain ⟨answer, next, rest, hcall, hrest, -⟩ := exists_of_calls_cons h
  have hsaved : after.registers.saved = some machine.registers.toRegisters := by
    rw [saved_calls hrest hsave hreset, (kept_call hcall).1]
    rfl
  exact ⟨hsaved, RegisterFile.reports_of_saved hsaved⟩

/-- Behind a reset, and as long as there is no save, all registers count as changed. -/
theorem comparison_of_reset {call : MachineCall} (hreset : call.IsReset)
    (h : machine.calls (call :: activity) = some (answers, after))
    (hsave : .save ∉ activity) : after.registers.AllChanged := by
  obtain ⟨answer, next, rest, hcall, hrest, -⟩ := exists_of_calls_cons h
  refine RegisterFile.allChanged_of_not_saved (saved_eq_none_of_calls hrest hsave ?_)
  rw [(kept_call hcall).1, MachineCall.saved_of_isReset hreset]

/-- And so they do from the start. -/
theorem comparison_of_initial {config : Config}
    (h : (Machine.initial config).calls activity = some (answers, after))
    (hsave : .save ∉ activity) : after.registers.AllChanged :=
  RegisterFile.allChanged_of_not_saved (saved_eq_none_of_calls h hsave rfl)

end Machine

/-- The comparison with the saved registers is exact over any activity. Behind a save, with
neither a reset nor another save since, the copy has the values at the save, and the registers
that are reported are those that differ from it now. Behind a reset, and before any save, all
of them are. Activity without an unbounded run comes to its end, with an answer for each
call. -/
theorem comparison_exact (machine : Machine) (activity : List MachineCall) :
    (.run ∉ activity → ∃ answers after,
        machine.calls (.save :: activity) = some (answers, after)
          ∧ answers.length = activity.length + 1)
      ∧ (∀ answers after, machine.calls (.save :: activity) = some (answers, after) →
        .save ∉ activity → (∀ call ∈ activity, ¬call.IsReset) →
          after.registers.saved = some machine.registers.toRegisters
            ∧ after.registers.Reports fun name =>
              after.registers.value name ≠ machine.registers.value name)
      ∧ (∀ call answers after, call.IsReset →
        machine.calls (call :: activity) = some (answers, after) →
          .save ∉ activity → after.registers.AllChanged)
      ∧ ∀ config answers after,
        (Machine.initial config).calls activity = some (answers, after) →
          .save ∉ activity → after.registers.AllChanged := by
  refine ⟨?_, ?_, ?_, ?_⟩
  · intro hrun
    refine machine.exists_calls ?_
    rintro (_ | ⟨_, hmem⟩)
    exact hrun hmem
  · intro answers after h hsave hreset
    exact Machine.comparison_of_save h hsave hreset
  · intro call answers after hreset h hsave
    exact Machine.comparison_of_reset hreset h hsave
  · intro config answers after h hsave
    exact Machine.comparison_of_initial h hsave

/-- A refused index, an addition to `$t0` and an assignment to HI. -/
theorem comparison_exact_addi :
    let machine := Machine.probe 0x2128FFFB 9
    let activity : List MachineCall := [.setRegister 32 7, .step, .setHi 3]
    (∃ answers after, machine.calls (.save :: activity) = some (answers, after)
        ∧ after.registers.saved = some machine.registers.toRegisters
        ∧ (after.registers.Reports fun name =>
          after.registers.value name ≠ machine.registers.value name)
        ∧ after.registers.changedNames = ["PC", "HI", "$t0"])
      ∧ (∃ answers after, machine.calls (.resetRegisters :: activity) = some (answers, after)
        ∧ after.registers.AllChanged)
      ∧ ∃ answers after, (Machine.initial {}).calls activity = some (answers, after)
        ∧ after.registers.AllChanged := by
  intro machine activity
  have hrun : .run ∉ activity := by decide
  have hsave : .save ∉ activity := by decide
  have hreset : ∀ call ∈ activity, ¬call.IsReset := by decide
  obtain ⟨hreturns, hsaved, hdropped, hinitial⟩ := comparison_exact machine activity
  refine ⟨?_, ?_, ?_⟩
  · obtain ⟨answers, after, hcalls, -⟩ := hreturns hrun
    have hnames : ((machine.calls (.save :: activity)).map fun result =>
        result.2.registers.changedNames) = some ["PC", "HI", "$t0"] := by
      decide +kernel
    rw [hcalls] at hnames
    obtain ⟨hcopy, hreports⟩ := hsaved answers after hcalls hsave hreset
    exact ⟨answers, after, hcalls, hcopy, hreports, Option.some.inj hnames⟩
  · obtain ⟨answers, after, hcalls, -⟩ :=
      machine.exists_calls (show .run ∉ .resetRegisters :: activity by decide)
    exact ⟨answers, after, hcalls, hdropped _ answers after (.inr rfl) hcalls hsave⟩
  · obtain ⟨answers, after, hcalls, -⟩ := (Machine.initial {}).exists_calls hrun
    exact ⟨answers, after, hcalls, hinitial {} answers after hcalls hsave⟩

end MiniMips
