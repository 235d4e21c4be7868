import MiniMips.Proofs.Machine.Outcome
import MiniMips.Proofs.Machine.Unbounded
import MiniMips.Proofs.Memory.Load

/-!
# `MiniMips.Proofs.Machine.Forward`: programs that only go forwards

A program without jumps and stores, whose branches count forwards, never comes back to a word
that it has executed, and does not change the words that it has still to execute. So it runs
out of words and ends at the zeros behind them, if it does not end before.

The run is followed by the number of the word that is executed next (`Machine.At`). Each step
raises the number, whether the word is executed or faulty. A branch can raise it by more than
one, but not past the end of the segment: behind 229376 words there is room for the widest
branch. The theorems:

* `Instruction.forward_of_effect`: the effects of an operation that goes forwards.
* `Machine.exists_goneOn_step`: a step goes to the next word, or skips some words there.
* `Machine.At.step`: so it raises the number of the word.
* `Machine.At.exists_haltsAfter`: the program ends when no words are left, or before.
* `Machine.At.after_of_isStraight`: without branches and system calls not before.
* `forward_run_halts`: the runs of a loaded program.
-/

set_option autoImplicit false

namespace MiniMips

/-! ### Words that go forwards -/

/-- Whether an operation moves the program counter only forwards and leaves memory alone. A
branch does so if it counts forwards. -/
def Operation.isForward (op : Operation) (immediate : BitVec 16) : Bool :=
  match op with
  | .register .jumpRegister | .primary .jump | .primary .jumpAndLink | .primary (.store _) => false
  | .primary (.branch _) => decide (0 ≤ immediate.toInt)
  | _ => true

/-- Whether an operation always goes on with the next word: it does not branch, and it makes
no system call, which could end the program. -/
def Operation.isStraight : Operation → Bool
  | .register .syscall | .primary (.branch _) => false
  | _ => true

/-- Whether a word only goes forwards. Words that are no instruction do. -/
def isForward (word : Word) : Bool :=
  (Fields.ofWord word).operation?.all (·.isForward (Fields.ofWord word).immediate)

/-- Whether a word is neither a branch nor a system call. -/
def isStraight (word : Word) : Bool :=
  (Fields.ofWord word).operation?.all Operation.isStraight

/-! ### The effects of such words -/

/-- Whether an effect leaves the program counter and memory alone. -/
def Effect.isLocal : Effect → Bool
  | jump _ | link _ _ | store _ _ _ => false
  | _ => true

/-- A local effect leaves the program counter alone. -/
theorem Effect.apply_pc_of_isLocal {effect : Effect} (h : effect.isLocal) (machine : Machine) :
    (effect.apply machine).registers.pc = machine.registers.pc := by
  cases effect with
  | jump | link | store => cases h
  | _ => rfl

/-- A local effect leaves memory alone. -/
theorem Effect.apply_memory_of_isLocal {effect : Effect} (h : effect.isLocal)
    (machine : Machine) : (effect.apply machine).memory = machine.memory := by
  cases effect with
  | jump | link | store => cases h
  | _ => rfl

/-- An operation that goes forwards is local, or is a branch to its target. -/
theorem Instruction.forward_of_effect {op : Operation} {fields : Fields}
    {registers : Registers} {memory : Memory} {effect : Effect}
    (h : (Instruction.mk op fields).effect registers memory = .ok effect)
    (hforward : op.isForward fields.immediate) :
    effect.isLocal ∨ op.isStraight = false ∧ 0 ≤ fields.immediate.toInt
      ∧ effect = .jump (branchTarget registers.pc fields.immediate) := by
  have horigin := Instruction.origin_of_effect h
  cases effect with
  | jump target =>
    -- Jumps are no forward words, so the only transfer left is the taken branch.
    rcases horigin with rfl | rfl | ⟨branch, rfl, htaken⟩
    · cases hforward
    · cases hforward
    · refine .inr ⟨rfl, of_decide_eq_true hforward, ?_⟩
      simp only [Instruction.effect, PrimaryOp.effect, if_pos htaken] at h
      cases h
      rfl
  | link =>
    cases horigin
    cases hforward
  | store =>
    obtain ⟨store, rfl, -, -⟩ := horigin
    cases hforward
  | _ => exact .inl rfl

/-- A branch that counts forwards skips some words. -/
theorem exists_branchTarget_of_nonneg (pc : Word) {immediate : BitVec 16}
    (h : 0 ≤ immediate.toInt) :
    ∃ skipped < 2 ^ 15,
      branchTarget pc immediate = pc + BitVec.ofNat 32 (4 * skipped) := by
  -- Without a sign both extensions to a word are the same.
  have hmsb : immediate.msb = false := by
    rw [BitVec.msb_eq_toInt]
    exact decide_eq_false (Int.not_lt.mpr h)
  have hlt : 2 * immediate.toNat < 2 ^ 16 := BitVec.msb_eq_false_iff_two_mul_lt.mp hmsb
  have hshift : immediate.setWidth 32 <<< 2 = BitVec.ofNat 32 (4 * immediate.toNat) := by
    refine BitVec.eq_of_toNat_eq ?_
    rw [BitVec.toNat_shiftLeft, BitVec.toNat_setWidth, BitVec.toNat_ofNat, Nat.shiftLeft_eq]
    omega
  refine ⟨immediate.toNat, by omega, ?_⟩
  rw [branchTarget, BitVec.signExtend_eq_setWidth_of_msb_false hmsb, hshift]

/-! ### One step -/

namespace Machine

/-- Whether a machine has gone on to the next word, or skipped some words there, and has kept
its memory. -/
structure GoneOn (machine : Machine) (skipped : Nat) (after : Machine) : Prop where
  memory : after.memory = machine.memory
  pc : after.registers.pc = machine.registers.pc + 4 + BitVec.ofNat 32 (4 * skipped)

variable {machine after : Machine} {word : Word} {words : List Word} {i : Nat}

/-- A machine at the next word has gone on, over nothing. -/
theorem goneOn_of_next (hmemory : after.memory = machine.memory)
    (hpc : after.registers.pc = machine.registers.pc + 4) : machine.GoneOn 0 after where
  memory := hmemory
  pc := hpc.trans (BitVec.add_zero _).symm

/-- The execution of an operation that goes forwards. -/
theorem goneOn_apply {op : Operation} {effect : Effect}
    (heffect : (Instruction.mk op (Fields.ofWord word)).effect
      machine.advance.registers.toRegisters machine.advance.memory = .ok effect)
    (hforward : op.isForward (Fields.ofWord word).immediate) :
    ∃ skipped < 2 ^ 15, (op.isStraight → skipped = 0)
      ∧ machine.GoneOn skipped (effect.apply machine.advance) := by
  rcases Instruction.forward_of_effect heffect hforward with
    hlocal | ⟨hbranch, hnonneg, rfl⟩
  · refine ⟨0, by decide, fun _ => rfl, goneOn_of_next ?_ ?_⟩
    · rw [Effect.apply_memory_of_isLocal hlocal, advance_memory]
    · rw [Effect.apply_pc_of_isLocal hlocal, advance_registers_pc]
  · obtain ⟨skipped, hskipped, htarget⟩ :=
      exists_branchTarget_of_nonneg machine.advance.registers.pc hnonneg
    refine ⟨skipped, hskipped, ?_, rfl, htarget⟩
    intro hstraight
    rw [hbranch] at hstraight
    cases hstraight

/-- A step on a word that goes forwards. The words of zeros and the faulty words go on like
all others. -/
theorem exists_goneOn_step
    (hread : machine.memory.read machine.registers.pc .word = .ok word)
    (hforward : isForward word) :
    ∃ skipped < 2 ^ 15, (isStraight word → skipped = 0)
      ∧ machine.GoneOn skipped machine.step.2 := by
  obtain ⟨hregisters, hmemory, -⟩ := machine.step_eq_apply
  -- A step without a change is a fault or a word of zeros: it goes to the next word.
  by_cases hchange : machine.change = .nothing
  · rw [hchange] at hregisters hmemory
    refine ⟨0, by decide, fun _ => rfl, goneOn_of_next hmemory ?_⟩
    rw [hregisters]
    rfl
  · obtain ⟨fetched, hfetched, heffect⟩ := exists_effectOf_of_change hchange
    obtain rfl : word = fetched := Except.ok.inj (hread.symm.trans hfetched)
    obtain ⟨op, hop, hinstruction⟩ := exists_effect_of_effectOf heffect
    rw [isForward, hop] at hforward
    rw [isStraight, hop]
    obtain ⟨skipped, hskipped, hstraight, hgone⟩ := goneOn_apply hinstruction hforward
    refine ⟨skipped, hskipped, hstraight, ?_, ?_⟩
    · rw [hmemory, hgone.memory]
    · rw [hregisters, hgone.pc]

/-! ### Words by their numbers -/

/-- The word with a number in a program, and zero behind its last one. -/
def programWord (words : List Word) (i : Nat) : Word :=
  words[i]?.getD 0

/-- Whether a machine is about to execute the word with a number. The 262144 words of the
program segment are those of the program and zeros behind them. -/
structure At (machine : Machine) (words : List Word) (i : Nat) : Prop where
  pc : machine.registers.pc = Segment.program.wordAddress i
  memory : ∀ k < 262144,
    machine.memory.read (Segment.program.wordAddress k) .word = .ok (programWord words k)

/-- Behind the words of a program there are zeros. -/
theorem programWord_of_length_le (h : words.length ≤ i) : programWord words i = 0 := by
  rw [programWord, List.getElem?_eq_none h]
  rfl

/-- What holds of all words of a program and of zero holds of the words behind it, too. -/
theorem forall_programWord {p : Word → Bool} (hwords : ∀ word ∈ words, p word) (hzero : p 0)
    (i : Nat) : p (programWord words i) := by
  unfold programWord
  cases hword : words[i]? with
  | none => exact hzero
  | some word => exact hwords word (List.mem_of_getElem? hword)

/-- The word that is fetched. -/
theorem At.read_pc (h : machine.At words i) (hi : i < 262144) :
    machine.memory.read machine.registers.pc .word = .ok (programWord words i) := by
  rw [h.pc]
  exact h.memory i hi

/-- A step raises the number of the word. -/
theorem At.step (h : machine.At words i) (hforward : ∀ word ∈ words, isForward word)
    (hi : i < 262144) :
    ∃ skipped < 2 ^ 15, (isStraight (programWord words i) → skipped = 0)
      ∧ machine.step.2.At words (i + 1 + skipped) := by
  obtain ⟨skipped, hskipped, hstraight, hgone⟩ :=
    exists_goneOn_step (h.read_pc hi) (forall_programWord hforward (by decide) i)
  refine ⟨skipped, hskipped, hstraight, ?_, ?_⟩
  · rw [hgone.pc, h.pc, Segment.wordAddress_add, Segment.wordAddress_add]
    rfl
  · rw [hgone.memory]
    exact h.memory

/-- Behind the program a step ends it. -/
theorem At.step_eq_zeroWord (h : machine.At words i) (hi : i < 262144)
    (hend : words.length ≤ i) : machine.step.1 = .halted .zeroWord :=
  (step_eq_zeroWord_iff (h.read_pc hi)).mpr (programWord_of_length_le hend)

/-! ### The run -/

/-- The program ends when no words are left, or before. -/
theorem At.exists_haltsAfter (hforward : ∀ word ∈ words, isForward word)
    (hlength : words.length ≤ 229376) (left : Nat) (h : machine.At words i)
    (hi : i < words.length + 2 ^ 15) (hleft : words.length ≤ i + left) :
    ∃ steps ≤ left + 1, machine.HaltsAfter steps := by
  -- A branch from the last word skips less than `2 ^ 15` words, so the number of the word
  -- stays below the bound and the bound in the segment.
  induction left generalizing machine i with
  | zero =>
    have hhalted : machine.step.1.isHalted = true := by
      rw [h.step_eq_zeroWord (by omega) hleft]
      rfl
    exact ⟨1, Nat.le_refl 1, (haltsAfter_iff_of_halted hhalted).mpr rfl⟩
  | succ left ih =>
    cases hhalted : machine.step.1.isHalted with
    | true => exact ⟨1, Nat.le_add_left 1 _, (haltsAfter_iff_of_halted hhalted).mpr rfl⟩
    | false =>
      -- The program goes on, so there is a word at this number.
      have hword : i < words.length := by
        refine Nat.lt_of_not_le ?_
        intro hend
        rw [h.step_eq_zeroWord (by omega) hend] at hhalted
        cases hhalted
      obtain ⟨skipped, hskipped, -, hnext⟩ := h.step hforward (by omega)
      obtain ⟨steps, hsteps, hhalts⟩ := ih hnext (by omega) (by omega)
      exact ⟨steps + 1, Nat.succ_le_succ hsteps, (haltsAfter_succ_iff hhalted).mpr hhalts⟩

/-- A word that is neither zero nor a system call does not end the program. -/
theorem isHalted_step_of_isStraight
    (hread : machine.memory.read machine.registers.pc .word = .ok word)
    (hword : word ≠ 0 ∧ isStraight word) : machine.step.1.isHalted = false := by
  obtain ⟨hne, hstraight⟩ := hword
  cases houtcome : machine.step.1 with
  | running | faulted => rfl
  | halted reason =>
    cases reason with
    | zeroWord => exact absurd ((step_eq_zeroWord_iff hread).mp houtcome) hne
    | exit =>
      -- Only a system call asks for the end.
      have hcall := (step_eq_exit_iff hread).mp houtcome
      rw [isStraight, hcall.1] at hstraight
      cases hstraight

/-- Without zeros, branches and system calls every word is executed. -/
theorem At.after_of_isStraight (hforward : ∀ word ∈ words, isForward word)
    (hstraight : ∀ word ∈ words, word ≠ 0 ∧ isStraight word) (hlength : words.length < 262144)
    (left : Nat) (h : machine.At words i) (hleft : i + left = words.length) :
    machine.HaltsAfter (left + 1) ∧ machine.lastOutcome (left + 1) = .halted .zeroWord
      ∧ (machine.after (left + 1)).At words (words.length + 1) := by
  -- No word skips another one, so the number of the word and the rest add up to the length.
  induction left generalizing machine i with
  | zero =>
    obtain rfl : i = words.length := hleft
    have houtcome : machine.step.1 = .halted .zeroWord :=
      h.step_eq_zeroWord hlength (Nat.le_refl _)
    have hhalted : machine.step.1.isHalted = true := by
      rw [houtcome]
      rfl
    obtain ⟨skipped, -, hnone, hnext⟩ := h.step hforward hlength
    -- The word of zeros is a shift, and goes on to the next word although it ends the program.
    rw [programWord_of_length_le (Nat.le_refl _)] at hnone
    rw [hnone (by decide)] at hnext
    exact ⟨(haltsAfter_iff_of_halted hhalted).mpr rfl, houtcome, hnext⟩
  | succ left ih =>
    have hword : programWord words i ≠ 0 ∧ isStraight (programWord words i) := by
      rw [programWord, List.getElem?_eq_getElem (by omega)]
      exact hstraight _ (List.getElem_mem _)
    have hrunning := isHalted_step_of_isStraight (h.read_pc (by omega)) hword
    obtain ⟨skipped, -, hnone, hnext⟩ := h.step hforward (by omega)
    rw [hnone hword.2] at hnext
    obtain ⟨hhalts, hlast, hafter⟩ := ih hnext (by omega)
    refine ⟨(haltsAfter_succ_iff hrunning).mpr hhalts, ?_, ?_⟩
    · rw [machine.lastOutcome_succ' (Nat.succ_pos left)]
      exact hlast
    · rw [machine.after_succ']
      exact hafter

/-- A loaded program starts with its first word. -/
theorem exists_loadProgram_at (words : List Word) (config : Config)
    (hentry : config.entryPoint = Segment.program.base) (hlength : words.length ≤ 262144) :
    ∃ loaded, (initial config).loadProgram words = (loaded, .ok ()) ∧ loaded.At words 0 := by
  obtain ⟨memory, hload, hloaded⟩ := (initial config).exists_loadProgram hlength
  refine ⟨_, hload, hentry.trans (BitVec.add_zero _).symm, ?_⟩
  intro k hk
  by_cases hlt : k < words.length
  · rw [programWord, List.getElem?_eq_getElem hlt]
    exact hloaded.read_wordAddress (Segment.four_mul_le_size hlength) hlt
  · -- No word has been written there, so memory is as it was at the start.
    have houtside : Place.Outside ⟨.program, 0⟩ (4 * words.length) ⟨.program, 4 * k⟩ .word := by
      refine .inr (.inr ?_)
      show 0 + 4 * words.length ≤ 4 * k
      omega
    have hzero := (hloaded.get_outside _ _ houtside).trans (Memory.get_zeros _ _)
    rw [programWord_of_length_le (Nat.le_of_not_lt hlt), ← hzero]
    exact memory.read_wordAddress .program (Segment.four_mul_le_size hk)

end Machine

/-- A program that only goes forwards ends, whatever faults it has on the way. Loaded into a
machine that starts at its first word, it ends after at most one step more than it has words,
and the run without a budget comes to the same. If no word is zero, a branch or a system call,
then all words are executed, and the zeros behind them. -/
theorem forward_run_halts (words : List Word) (debugTrace : Bool)
    (hlength : words.length ≤ 229376) (hforward : ∀ word ∈ words, isForward word) :
    ∃ loaded result,
      (Machine.initial { entryPoint := 0x00400000, debugTrace := debugTrace }).loadProgram words
          = (loaded, .ok ())
        ∧ loaded.runBounded (words.length + 1) .halted = result
        ∧ loaded.run = some result
        ∧ (∃ reason, result.1.final = .halted reason)
        ∧ result.1.steps ≤ words.length + 1
        ∧ ((∀ word ∈ words, word ≠ 0 ∧ isStraight word) →
          result.1 = ⟨words.length + 1, .halted .zeroWord⟩
            ∧ result.2.registers.pc.toNat = 0x00400000 + 4 * (words.length + 1)) := by
  obtain ⟨loaded, hload, hat⟩ := Machine.exists_loadProgram_at words
    { entryPoint := 0x00400000, debugTrace := debugTrace } rfl (by omega)
  obtain ⟨steps, hsteps, hhalts⟩ :=
    hat.exists_haltsAfter hforward hlength words.length (by omega) (by omega)
  have hrun := hhalts.runBounded hsteps
  refine ⟨loaded, loaded.ran steps, hload, hrun, hhalts.run (by omega), ?_, hsteps, ?_⟩
  · exact Boundary.exists_halted_of_ends hhalts.ends
  · intro hstraight
    obtain ⟨hlast, houtcome, hafter⟩ :=
      hat.after_of_isStraight hforward hstraight (by omega) words.length (Nat.zero_add _)
    -- The program ends after one number of steps only.
    rw [← hrun, hlast.runBounded (Nat.le_refl _), Machine.ran, houtcome]
    refine ⟨rfl, ?_⟩
    rw [hafter.pc]
    exact Segment.program.toNat_wordAddress (Segment.four_mul_le_size (by omega))

/-- A program that divides by zero, loads from nowhere and holds a word that is no
instruction, and one that branches over its last word. -/
theorem forward_run_halts_faults :
    (∃ loaded result,
      (Machine.initial { entryPoint := 0x00400000, debugTrace := true }).loadProgram
          [0x0000001A, 0x8C080000, 0xFC000000] = (loaded, .ok ())
        ∧ loaded.run = some result ∧ result.1 = ⟨4, .halted .zeroWord⟩
        ∧ result.2.registers.pc.toNat = 0x00400000 + 4 * 4)
      ∧ ∃ loaded result,
        (Machine.initial { entryPoint := 0x00400000, debugTrace := false }).loadProgram
            [0x10000001, 0x0000000C] = (loaded, .ok ())
          ∧ loaded.run = some result ∧ (∃ reason, result.1.final = .halted reason)
          ∧ result.1.steps ≤ 3 := by
  have hforward : [0x0000001A, 0x8C080000, 0xFC000000].all isForward := by decide +kernel
  have hstraight : ∀ word ∈ [0x0000001A, 0x8C080000, 0xFC000000], word ≠ 0 ∧ isStraight word := by
    simp only [List.forall_mem_cons, List.not_mem_nil, false_imp_iff, implies_true]
    decide +kernel
  have hbranch : [0x10000001, 0x0000000C].all isForward := by decide +kernel
  obtain ⟨loaded, result, hload, -, hrun, -, -, hall⟩ :=
    forward_run_halts _ true (by decide) (List.all_eq_true.mp hforward)
  obtain ⟨houtcome, hpc⟩ := hall hstraight
  obtain ⟨branched, last, hload', -, hrun', hends, hsteps, -⟩ :=
    forward_run_halts _ false (by decide) (List.all_eq_true.mp hbranch)
  exact ⟨⟨loaded, result, hload, hrun, houtcome, hpc⟩,
    branched, last, hload', hrun', hends, hsteps⟩

end MiniMips
