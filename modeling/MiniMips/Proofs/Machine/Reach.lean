import MiniMips.Proofs.Machine.Alignment

/-!
# `MiniMips.Proofs.Machine.Reach`: where jumps and branches can lead

Whoever resolves labels needs to know which addresses a jump or a branch can name, and by
which field. The answer is about numbers (`range_jumpTarget`, `range_branchTarget`). What is
added here is the way from a word at an address to the program counter behind its execution,
`Machine.landing`. The fetch has moved the program counter by four when a jump adds four more,
so its region is that of the address eight bytes behind the jump. The theorems:

* `operation?_eq_some_iff_jumpWord`, `operation?_eq_some_iff_branchWord`: the words of jumps
  and branches.
* `Machine.step_pc_of_read`: a step over a fetched word lands where the word does.
* `Machine.landing_jumpWord`, `Machine.landing_branchWord`: where jumps and branches land.
* `Machine.jumpReach`, `Machine.branchReach`: all the places where they can land.
* `transfers_reach`: all of it, for a machine at any address.
-/

set_option autoImplicit false

namespace MiniMips

/-! ### The words of jumps and branches -/

/-- The word of a jump to a target. -/
def jumpWord (op : PrimaryOp) (target : BitVec 26) : Word :=
  (Layout.target (BitVec.ofNat 6 op.code) target).word

/-- The word of a branch on two registers. -/
def branchWord (op : BranchOp) (rs rt : Reg) (offset : BitVec 16) : Word :=
  (Layout.immediate (BitVec.ofNat 6 (PrimaryOp.branch op).code) rs rt offset).word

/-- The words with the operation of a jump are its words to all targets. -/
theorem operation?_eq_some_iff_jumpWord {op : PrimaryOp} {word : Word} :
    (Fields.ofWord word).operation? = some (.primary op)
      ↔ word = jumpWord op (Fields.ofWord word).target := by
  rw [Fields.operation?_eq_primary_iff, jumpWord, ← Layout.holds_iff]
  exact (and_iff_left rfl).symm

/-- The words with the operation of a branch are its words on all registers by all offsets. -/
theorem operation?_eq_some_iff_branchWord {op : BranchOp} {word : Word} :
    (Fields.ofWord word).operation? = some (.primary (.branch op))
      ↔ word = branchWord op (Fields.ofWord word).rs (Fields.ofWord word).rt
        (Fields.ofWord word).immediate := by
  rw [Fields.operation?_eq_primary_iff, branchWord, ← Layout.holds_iff]
  exact (and_iff_left ⟨rfl, rfl, rfl⟩).symm

namespace Machine

variable {machine : Machine} {word : Word}

/-! ### Where a word lands -/

/-- The program counter behind a word that the machine fetches at its program counter and
executes. -/
def landing (machine : Machine) (word : Word) : Word :=
  ((machine.advance.trace word).execute word).2.registers.pc

/-- A step over a fetched word lands where the word does. -/
theorem step_pc_of_read (hread : machine.memory.read machine.registers.pc .word = .ok word)
    (hword : word ≠ 0) : machine.step.2.registers.pc = machine.landing word := by
  rw [step_of_read hread, if_neg hword, landing]

/-- An effect lands at its target if it has one, and else at the next word. -/
theorem landing_of_effectOf {effect : Effect}
    (h : machine.advance.effectOf word = .ok effect) :
    machine.landing word = effect.target?.getD (machine.registers.pc + 4) := by
  rw [← machine.advance.effectOf_trace word] at h
  rw [landing, execute_of_effectOf h, Effect.apply_pc, trace_registers]
  rfl

/-- The word of a jump lands at the target of the jump. -/
theorem landing_jumpWord {op : PrimaryOp} (hop : op = .jump ∨ op = .jumpAndLink)
    (machine : Machine) (target : BitVec 26) :
    machine.landing (jumpWord op target) = jumpTarget (machine.registers.pc + 4) target := by
  obtain ⟨hopcode, htarget⟩ := Layout.holds_word (.target (BitVec.ofNat 6 op.code) target)
  have hdecode := decode_of_operation? (Fields.operation?_eq_primary_iff.mpr hopcode)
  have heffect := effectOf_of_decode hdecode machine.advance
  rcases hop with rfl | rfl
  · exact (landing_of_effectOf heffect).trans (congrArg (jumpTarget _) htarget)
  · exact (landing_of_effectOf heffect).trans (congrArg (jumpTarget _) htarget)

/-- The word of a branch that is taken lands at the target of the branch. -/
theorem landing_branchWord {op : BranchOp} {rs rt : Reg}
    (hholds : op.holds (machine.registers.get rs) (machine.registers.get rt))
    (offset : BitVec 16) :
    machine.landing (branchWord op rs rt offset)
      = branchTarget (machine.registers.pc + 4) offset := by
  obtain ⟨hopcode, hrs, hrt, hoffset⟩ := Layout.holds_word
    (.immediate (BitVec.ofNat 6 (PrimaryOp.branch op).code) rs rt offset)
  have hdecode := decode_of_operation? (Fields.operation?_eq_primary_iff.mpr hopcode)
  have heffect := effectOf_of_decode hdecode machine.advance
  simp only [Instruction.effect, PrimaryOp.effect, advance_get, hrs, hrt, hoffset,
    if_pos hholds] at heffect
  exact landing_of_effectOf heffect

/-! ### All the places where jumps and branches can land -/

/-- What a jump at the program counter can name: the words of the region of the address eight
bytes behind it, each by one target. -/
structure JumpReach (machine : Machine) (op : PrimaryOp) : Prop where
  range : Set.range (fun target => machine.landing (jumpWord op target))
    = {address | 4 ∣ address.toNat
      ∧ address.toNat / 2 ^ 28 = (machine.registers.pc.toNat + 8) % 2 ^ 32 / 2 ^ 28}
  injective : Function.Injective fun target => machine.landing (jumpWord op target)

/-- What a branch at the program counter can name: the addresses up to `2 ^ 15` words from the
next one, each by the offset that is the residue of its distance. -/
structure BranchReach (machine : Machine) (op : BranchOp) (rs rt : Reg) : Prop where
  range : Set.range (fun offset => machine.landing (branchWord op rs rt offset))
    = {address | ∃ k : Int, -32768 ≤ k ∧ k ≤ 32767
      ∧ (address.toNat : Int) = (machine.registers.pc.toNat + 4 + 4 * k) % 2 ^ 32}
  origin : ∀ k : Int, -32768 ≤ k → k ≤ 32767 → ∀ offset : BitVec 16,
    ((machine.landing (branchWord op rs rt offset)).toNat : Int)
        = (machine.registers.pc.toNat + 4 + 4 * k) % 2 ^ 32
      ↔ (offset.toNat : Int) = k % 2 ^ 16

/-- A jump can name the words of one region, each by one target. -/
theorem jumpReach {op : PrimaryOp} (hop : op = .jump ∨ op = .jumpAndLink) (machine : Machine) :
    machine.JumpReach op := by
  have hlanding : (fun target => machine.landing (jumpWord op target))
      = jumpTarget (machine.registers.pc + 4) := by
    funext target
    exact landing_jumpWord hop machine target
  -- Both additions wrap, so they wrap as one.
  have hpc : (machine.registers.pc + 4 + 4).toNat
      = (machine.registers.pc.toNat + 8) % 2 ^ 32 := by
    rw [BitVec.add_assoc, BitVec.toNat_add]
    rfl
  constructor
  · rw [hlanding, range_jumpTarget, hpc]
  · rw [hlanding]
    exact jumpTarget_injective _

/-- A branch that is taken can name the addresses up to `2 ^ 15` words from the next one, each
by one offset. -/
theorem branchReach {op : BranchOp} {rs rt : Reg}
    (hholds : op.holds (machine.registers.get rs) (machine.registers.get rt)) :
    machine.BranchReach op rs rt := by
  have hlanding : (fun offset => machine.landing (branchWord op rs rt offset))
      = branchTarget (machine.registers.pc + 4) := by
    funext offset
    exact landing_branchWord hholds offset
  -- The range is stated around the address of the branch, the target is computed from the word
  -- after it.
  have hpc : ∀ k : Int, ((machine.registers.pc + 4#32).toNat + 4 * k) % 2 ^ 32
      = (machine.registers.pc.toNat + 4 + 4 * k) % 2 ^ 32 := by
    intro k
    rw [BitVec.toNat_add, BitVec.toNat_ofNat]
    omega
  constructor
  · rw [hlanding, range_branchTarget]
    simp only [← hpc]
    rfl
  · intro k hlow hhigh offset
    rw [landing_branchWord hholds, ← hpc]
    exact toNat_branchTarget_eq_iff _ offset hlow hhigh

end Machine

/-- The reach of jumps and branches, for a machine at any address. A jump can name the words
of one region, a branch the addresses up to `2 ^ 15` words from the next one, and each of them
in one way. Where the word lies in memory, the step goes there. -/
theorem transfers_reach (machine : Machine) :
    machine.JumpReach .jump ∧ machine.JumpReach .jumpAndLink
      ∧ (∀ (op : BranchOp) (rs rt : Reg),
        op.holds (machine.registers.get rs) (machine.registers.get rt) →
          machine.BranchReach op rs rt)
      ∧ ∀ word, machine.memory.read machine.registers.pc .word = .ok word → word ≠ 0 →
        machine.step.2.registers.pc = machine.landing word := by
  refine ⟨Machine.jumpReach (.inl rfl) machine, Machine.jumpReach (.inr rfl) machine, ?_, ?_⟩
  · intro op rs rt hholds
    exact Machine.branchReach hholds
  · intro word hread hword
    exact Machine.step_pc_of_read hread hword

/-- Behind the last two words of the address space the region of a jump is the first one, and
a branch by one word leads to the address zero. In memory a jump leads where its word does. -/
theorem transfers_reach_wraps :
    let machine := Machine.initial ⟨0xFFFFFFF8, true⟩
    let probe := Machine.probe (jumpWord .jump 0x3FFFFFF) 1
    machine.JumpReach .jump
      ∧ machine.landing (jumpWord .jump 0x3FFFFFF) = 0x0FFFFFFC
      ∧ machine.JumpReach .jumpAndLink
      ∧ machine.BranchReach .beq 0 0
      ∧ machine.landing (branchWord .beq 0 0 1) = 0
      ∧ probe.step.2.registers.pc = probe.landing (jumpWord .jump 0x3FFFFFF) := by
  intro machine probe
  obtain ⟨hjump, hlink, hbranch, -⟩ := transfers_reach machine
  obtain ⟨-, -, -, hstep⟩ := transfers_reach probe
  have hholds : BranchOp.beq.holds (machine.registers.get 0) (machine.registers.get 0) :=
    beq_self_eq_true _
  have hregion : machine.landing (jumpWord .jump 0x3FFFFFF) = 0x0FFFFFFC := by
    rw [Machine.landing_jumpWord (.inl rfl) machine]
    decide
  have hzero : machine.landing (branchWord .beq 0 0 1) = 0 := by
    rw [Machine.landing_branchWord hholds]
    decide
  exact ⟨hjump, hregion, hlink, hbranch .beq 0 0 hholds, hzero,
    hstep _ (Machine.read_probe _ 1) (by decide)⟩

end MiniMips
