import MiniMips.Proofs.Assembly.RoundTrip
import MiniMips.Proofs.Machine.Step

/-!
# `MiniMips.Proofs.Machine.Reassembly`: running a word that was listed and assembled again

The text of a word leaves fields out, and assembling it clears them. Most operations do
not read these fields, so the machine does the same on both words. There are two
exceptions: the cleared word may be zero, which ends the program, and `bltz` compares with
the register that its text leaves out. The theorems:

* `Machine.AgreeOutside.execute`: machines that differ in one word stay so under equal
  effects.
* `Instruction.effect_eq_of_holds`: the fields that an effect depends on.
* `canonical_eq_zero_iff`: the words that turn into the end of the program.
* `step_replaceWord_canonical`: outside the exceptions a step stays the same.
* `step_of_isIdleShift` and `exists_step_pc_ne`: and in both exceptions it does not.
* `reassembled_step`: all of it.
-/

set_option autoImplicit false

namespace MiniMips

/-! ### Machines that differ in one word -/

/-- The machines are equal but for the word at an address. -/
structure Machine.AgreeOutside (address : Word) (machine other : Machine) : Prop where
  registers : machine.registers = other.registers
  memory : machine.memory.AgreeOutside address other.memory
  console : machine.console = other.console
  config : machine.config = other.config

namespace Machine

variable {address : Word} {machine other : Machine}

/-- A machine agrees with itself. -/
theorem AgreeOutside.refl (address : Word) (machine : Machine) :
    AgreeOutside address machine machine :=
  ⟨rfl, .refl address machine.memory, rfl, rfl⟩

/-- The fetch keeps the agreement. -/
theorem AgreeOutside.advance (h : AgreeOutside address machine other) :
    AgreeOutside address machine.advance other.advance :=
  ⟨by rw [Machine.advance, Machine.advance, h.registers], h.memory, h.console, h.config⟩

/-- A record on both consoles keeps the agreement. -/
theorem AgreeOutside.print (h : AgreeOutside address machine other) (channel : Channel)
    (text : String) :
    AgreeOutside address (machine.print channel text) (other.print channel text) :=
  ⟨h.registers, h.memory, by rw [Machine.print, Machine.print, h.console], h.config⟩

/-- The trace of a word on both machines keeps the agreement. -/
theorem AgreeOutside.trace (h : AgreeOutside address machine other) (word : Word) :
    AgreeOutside address (machine.trace word) (other.trace word) := by
  unfold Machine.trace
  rw [h.config]
  split
  · exact h.print .debug _
  · exact h

/-- Every effect keeps the machines alike. -/
theorem AgreeOutside.apply (h : AgreeOutside address machine other) (effect : Effect) :
    AgreeOutside address (effect.apply machine) (effect.apply other) := by
  cases effect with
  | nothing => exact h
  | writeRegister | writeHiLo | jump | link =>
    exact ⟨by simp only [Effect.apply, h.registers], h.memory, h.console, h.config⟩
  | store place size value =>
    exact ⟨h.registers, h.memory.set place size value, h.console, h.config⟩
  | print channel text => exact h.print channel text
  | exit => exact h.print .normal _

/-- Words with the same effect are executed alike. -/
theorem AgreeOutside.execute (h : AgreeOutside address machine other) {word word' : Word}
    (heffect : machine.effectOf word = other.effectOf word') :
    (machine.execute word).1 = (other.execute word').1
      ∧ AgreeOutside address (machine.execute word).2 (other.execute word').2 := by
  cases he : other.effectOf word' with
  | ok effect =>
    rw [execute_of_effectOf he, execute_of_effectOf (heffect.trans he)]
    exact ⟨rfl, h.apply effect⟩
  | error fault =>
    rw [execute_of_fault he, execute_of_fault (heffect.trans he)]
    exact ⟨rfl, h.print .error _⟩

/-! ### Replacing the word at the program counter -/

/-- The machine with another word at its program counter, if that is mapped. -/
def replaceWord (machine : Machine) (word : Word) : Machine :=
  match machine.memory.write machine.registers.pc .word word with
  | .ok memory => { machine with memory := memory }
  | .error _ => machine

/-- The replacement of a word is a write at the program counter. -/
theorem replaceWord_of_write {memory : Memory} {word : Word}
    (h : machine.memory.write machine.registers.pc .word word = .ok memory) :
    machine.replaceWord word = { machine with memory := memory } := by
  rw [replaceWord, h]

/-- The replacement of a word leaves the registers alone. -/
@[simp] theorem replaceWord_registers (machine : Machine) (word : Word) :
    (machine.replaceWord word).registers = machine.registers := by
  unfold replaceWord
  split <;> rfl

/-- The new word is fetched in place of the old one. -/
theorem read_replaceWord {old : Word}
    (h : machine.memory.read machine.registers.pc .word = .ok old) (word : Word) :
    (machine.replaceWord word).memory.read (machine.replaceWord word).registers.pc .word
      = .ok word := by
  obtain ⟨memory, hwrite⟩ := Memory.exists_write_of_read h word
  rw [replaceWord_of_write hwrite]
  exact Memory.read_word_of_write hwrite

/-- Only the word at the program counter is new. -/
theorem agreeOutside_replaceWord (machine : Machine) (word : Word) :
    AgreeOutside machine.registers.pc machine (machine.replaceWord word) := by
  cases hwrite : machine.memory.write machine.registers.pc .word word with
  | ok memory =>
    rw [replaceWord_of_write hwrite]
    exact ⟨rfl, Memory.agreeOutside_write hwrite, rfl, rfl⟩
  | error fault =>
    rw [replaceWord, hwrite]
    exact .refl _ machine

/-- Replacing a word by itself changes nothing. -/
theorem replaceWord_self {word : Word}
    (h : machine.memory.read machine.registers.pc .word = .ok word) :
    machine.replaceWord word = machine := by
  rw [replaceWord_of_write (Memory.write_of_read h)]

end Machine

/-! ### What an unprinted field can change -/

/-- A shift that differs from the zero word only in the field that its text leaves out. -/
def IsIdleShift (word : Word) : Prop :=
  word ≠ 0 ∧ (Fields.ofWord word).operation? = some (.register (.shift .sll))
    ∧ (Fields.ofWord word).rd = 0 ∧ (Fields.ofWord word).rt = 0
    ∧ (Fields.ofWord word).shamt = 0

instance (word : Word) : Decidable (IsIdleShift word) :=
  inferInstanceAs (Decidable (word ≠ 0
    ∧ (Fields.ofWord word).operation? = some (.register (.shift .sll))
    ∧ (Fields.ofWord word).rd = 0 ∧ (Fields.ofWord word).rt = 0
    ∧ (Fields.ofWord word).shamt = 0))

/-- A branch that compares with a register which its text does not name, and that leads
elsewhere when it is taken. -/
def IsMaskedBranch (word : Word) : Prop :=
  (Fields.ofWord word).operation? = some (.primary (.branch .bltz))
    ∧ (Fields.ofWord word).rt ≠ 0 ∧ (Fields.ofWord word).immediate ≠ 0

instance (word : Word) : Decidable (IsMaskedBranch word) :=
  inferInstanceAs (Decidable ((Fields.ofWord word).operation? = some (.primary (.branch .bltz))
    ∧ (Fields.ofWord word).rt ≠ 0 ∧ (Fields.ofWord word).immediate ≠ 0))

/-- The word of zeros is canonical. -/
theorem canonical_zero : canonical 0 = 0 := by
  decide

/-- A word whose unprinted fields are all that is not zero. -/
theorem canonical_eq_zero_iff {word : Word} :
    canonical word = 0 ↔ word = 0 ∨ IsIdleShift word := by
  constructor
  · intro h
    by_cases hword : word = 0
    · exact .inl hword
    cases hop : (Fields.ofWord word).operation? with
    | none =>
      rw [canonical_of_operation?_eq_none hop] at h
      exact absurd h hword
    | some op =>
      -- The canonical word keeps the operation, and zero is an `sll`.
      have hzero := operation?_canonical hop
      have hholds := holds_canonical hop
      rw [h] at hzero hholds
      rw [operation?_zero] at hzero
      cases hzero
      obtain ⟨-, -, hrt, hrd, hshamt, -⟩ := hholds
      refine .inr ⟨hword, hop, hrd.symm, hrt.symm, ?_⟩
      rw [BitVec.ofNat_toNat, BitVec.setWidth_eq] at hshamt
      exact hshamt.symm
  · rintro (rfl | ⟨-, hop, hrd, hrt, hshamt⟩)
    · exact canonical_zero
    · refine (holds_canonical hop).unique ?_
      show (Command.shift .sll (Fields.ofWord word).rd (Fields.ofWord word).rt
        (Fields.ofWord word).shamt.toNat).layout.Holds (Fields.ofWord 0)
      rw [hrd, hrt, hshamt]
      exact ⟨rfl, rfl, rfl, rfl, rfl, rfl⟩

/-- Operations that do not load read only the fields of their command, apart from the
register that the text of `bltz` leaves out. -/
theorem Instruction.effect_eq_of_holds {op : Operation} {fields fields' : Fields}
    (h : (Instruction.mk op fields).command.layout.Holds fields')
    (hload : ∀ load, op ≠ .primary (.load load))
    (hbranch : op = .primary (.branch .bltz) → fields.rt = 0) (registers : Registers)
    (memory other : Memory) :
    (Instruction.mk op fields).effect registers memory
      = (Instruction.mk op fields').effect registers other := by
  rcases op with (_ | _ | _ | _ | _ | _ | _ | _) | ((_ | _ | _) | _ | _ | _ | _ | _ | _) <;>
    simp_all [Instruction.command, Command.layout, Command.registerLayout,
      Command.immediateLayout, Command.targetLayout, Layout.Holds, Instruction.effect,
      RegisterOp.effect, PrimaryOp.effect]

/-! ### Steps on the canonical word -/

/-- The effect of `bltz`. -/
theorem effectOf_branchBelow {word : Word}
    (h : (Fields.ofWord word).operation? = some (.primary (.branch .bltz))) (machine : Machine) :
    machine.effectOf word =
      .ok (if machine.registers.get (Fields.ofWord word).rs
            < machine.registers.get (Fields.ofWord word).rt
        then .jump (branchTarget machine.registers.pc (Fields.ofWord word).immediate)
        else .nothing) := by
  rw [Machine.effectOf_of_decode (decode_of_operation? h)]
  simp [Instruction.effect, PrimaryOp.effect, BranchOp.holds]

/-- A branch without an offset goes to the next word. -/
theorem branchTarget_zero (pc : Word) : branchTarget pc 0 = pc := by
  simp [branchTarget]

/-- The canonical word of a `bltz` has its offset. -/
theorem immediate_canonical_of_branchBelow {word : Word}
    (h : (Fields.ofWord word).operation? = some (.primary (.branch .bltz))) :
    (Fields.ofWord (canonical word)).immediate = (Fields.ofWord word).immediate := by
  obtain ⟨-, -, -, himmediate⟩ := holds_canonical h
  rw [himmediate, BitVec.ofInt_toInt]

/-- A branch to the next instruction changes nothing, taken or not. -/
theorem execute_branchBelow_of_immediate {word : Word}
    (h : (Fields.ofWord word).operation? = some (.primary (.branch .bltz)))
    (himmediate : (Fields.ofWord word).immediate = 0) (machine : Machine) :
    machine.execute word = (.running, machine) := by
  rw [Machine.execute_of_effectOf (effectOf_branchBelow h machine), himmediate, branchTarget_zero]
  split <;> rfl

/-- Outside the two exceptions the canonical word does what the word does. -/
theorem step_replaceWord_canonical {machine : Machine} {word : Word} {instruction : Instruction}
    (hdecode : decode word = .ok instruction) (hshift : ¬IsIdleShift word)
    (hbranch : ¬IsMaskedBranch word)
    (hread : machine.memory.read machine.registers.pc .word = .ok word) :
    machine.step.1 = (machine.replaceWord (canonical word)).step.1
      ∧ Machine.AgreeOutside machine.registers.pc machine.step.2
        (machine.replaceWord (canonical word)).step.2 := by
  obtain ⟨hfields, hop⟩ := decode_eq_ok_iff.mp hdecode
  -- A canonical word is replaced by itself. That covers all loads and stores, the only
  -- operations that could see the replaced word.
  by_cases hsame : canonical word = word
  · rw [hsame, Machine.replaceWord_self hread]
    exact ⟨rfl, .refl _ _⟩
  have hword : word ≠ 0 := by
    rintro rfl
    exact hsame canonical_zero
  have hcanonical : canonical word ≠ 0 := by
    rw [Ne, canonical_eq_zero_iff]
    rintro (h | h)
    · exact hword h
    · exact hshift h
  have hagree := ((machine.agreeOutside_replaceWord (canonical word)).advance).trace word
  rw [Machine.step_of_read hread, Machine.step_of_read (Machine.read_replaceWord hread _),
    if_neg hword, if_neg hcanonical, Machine.trace_congr _ (disassemble_canonical word)]
  -- A branch to the next instruction may be taken on one side only, to the same effect.
  by_cases hskip : instruction.operation = .primary (.branch .bltz)
      ∧ (Fields.ofWord word).immediate = 0
  · obtain ⟨hbltz, himmediate⟩ := hskip
    rw [hbltz] at hop
    have himmediate' := immediate_canonical_of_branchBelow hop
    rw [himmediate] at himmediate'
    rw [execute_branchBelow_of_immediate hop himmediate,
      execute_branchBelow_of_immediate (operation?_canonical hop) himmediate']
    exact ⟨rfl, hagree⟩
  · refine hagree.execute ?_
    rw [Machine.effectOf_of_decode (decode_of_operation? hop),
      Machine.effectOf_of_decode (decode_of_operation? (operation?_canonical hop)),
      hagree.registers]
    refine Instruction.effect_eq_of_holds (holds_canonical hop) ?_ ?_ _ _ _
    · intro load hload
      rw [hload] at hop
      exact hsame (canonical_of_unprinted_eq_zero hop rfl)
    · intro hbltz
      by_cases hrt : (Fields.ofWord word).rt = 0
      · exact hrt
      · exact absurd ⟨hbltz ▸ hop, hrt, fun himmediate => hskip ⟨hbltz, himmediate⟩⟩ hbranch

/-- An idle shift is executed, and the end of the program comes in its place. -/
theorem step_of_isIdleShift {machine : Machine} {word : Word} (h : IsIdleShift word)
    (hread : machine.memory.read machine.registers.pc .word = .ok word) :
    (machine.replaceWord (canonical word)).step.1 = .halted .zeroWord
      ∧ machine.step.1 = .running := by
  have hzero : canonical word = 0 := canonical_eq_zero_iff.mpr (.inr h)
  obtain ⟨hword, hop, -⟩ := h
  rw [hzero, Machine.step_of_read hread, Machine.step_of_read (Machine.read_replaceWord hread 0),
    if_pos rfl, if_neg hword]
  refine ⟨rfl, ?_⟩
  rw [Machine.execute,
    Machine.effectOf_of_decode (decode_of_operation? hop)]
  rfl

/-! ### A machine that sees the register left out of `bltz` -/

/-- A branch that leads elsewhere changes the program counter. -/
theorem branchTarget_ne {offset : BitVec 16} (h : offset ≠ 0) (pc : Word) :
    branchTarget pc offset ≠ pc := by
  intro heq
  have hshift : offset.signExtend 32 <<< 2 = 0 := by simpa [branchTarget] using heq
  refine h (BitVec.eq_of_getElem_eq fun i hi => ?_)
  have hbit := congrArg (·.getLsbD (i + 2)) hshift
  simpa [BitVec.getElem_signExtend, hi, show i + 2 < 32 by omega] using hbit

/-- Where `bltz` leads. -/
theorem step_pc_branchBelow {machine : Machine} {word : Word}
    (hop : (Fields.ofWord word).operation? = some (.primary (.branch .bltz)))
    (hread : machine.memory.read machine.registers.pc .word = .ok word) :
    machine.step.2.registers.pc =
      if machine.registers.get (Fields.ofWord word).rs
          < machine.registers.get (Fields.ofWord word).rt
      then branchTarget (machine.registers.pc + 4) (Fields.ofWord word).immediate
      else machine.registers.pc + 4 := by
  have hword : word ≠ 0 := by
    rintro rfl
    cases hop
  rw [Machine.step_of_read hread, if_neg hword,
    Machine.execute_of_effectOf (effectOf_branchBelow hop _)]
  simp only [Machine.trace_registers, Machine.advance_get, Machine.advance_registers_pc]
  split <;> simp [Effect.apply]

/-- The text of a masked branch leads elsewhere on some machine. -/
theorem exists_step_pc_ne {word : Word} (h : IsMaskedBranch word) :
    ∃ machine : Machine, machine.memory.read machine.registers.pc .word = .ok word
      ∧ machine.step.2.registers.pc
        ≠ (machine.replaceWord (canonical word)).step.2.registers.pc := by
  obtain ⟨hop, hrt, himmediate⟩ := h
  obtain ⟨-, hrs', hrt', -⟩ := holds_canonical hop
  have himmediate' := immediate_canonical_of_branchBelow hop
  -- Taken with one in the register of `rt`, unless `rs` is the same register. Then one in
  -- the first register takes the branch whose `rt` is cleared.
  by_cases hsame : (Fields.ofWord word).rs = (Fields.ofWord word).rt
  · refine ⟨.probe word 0, Machine.read_probe word 0, ?_⟩
    have hzero : (Machine.probe word 0).registers.get (Fields.ofWord word).rt = 0 :=
      Machine.get_probe_of_ne word (Ne.symm hrt)
    rw [step_pc_branchBelow hop (Machine.read_probe word 0),
      step_pc_branchBelow (operation?_canonical hop)
        (Machine.read_replaceWord (Machine.read_probe word 0) _),
      Machine.replaceWord_registers, hrs', hrt', himmediate', hsame, hzero,
      Machine.get_probe_self, if_neg (by decide), if_pos (by decide)]
    exact (branchTarget_ne himmediate _).symm
  · refine ⟨.probe word (Fields.ofWord word).rt, Machine.read_probe word _, ?_⟩
    have hzero := Machine.get_probe_of_ne word (Ne.symm hsame)
    have hfirst := Machine.get_probe_of_ne word hrt
    rw [step_pc_branchBelow hop (Machine.read_probe word _),
      step_pc_branchBelow (operation?_canonical hop)
        (Machine.read_replaceWord (Machine.read_probe word _) _),
      Machine.replaceWord_registers, hrs', hrt', himmediate', hzero, hfirst,
      Machine.get_probe_self, if_pos (by decide), if_neg (by decide)]
    exact branchTarget_ne himmediate _

/-- Which words a pass through the disassembler and the assembler keeps alike. An idle
shift becomes the end of the program and a masked branch may lead elsewhere. On every
machine the step of any other word stays the same, but for the word itself. -/
theorem reassembled_step {word : Word} {instruction : Instruction}
    (hdecode : decode word = .ok instruction) :
    ∃ word', encode (disassemble word) = .ok word'
      ∧ (¬IsIdleShift word → ¬IsMaskedBranch word → ∀ machine : Machine,
        machine.memory.read machine.registers.pc .word = .ok word →
          machine.step.1 = (machine.replaceWord word').step.1
            ∧ Machine.AgreeOutside machine.registers.pc machine.step.2
              (machine.replaceWord word').step.2)
      ∧ (IsIdleShift word → ∀ machine : Machine,
        machine.memory.read machine.registers.pc .word = .ok word →
          (machine.replaceWord word').step.1 = .halted .zeroWord
            ∧ machine.step.1 = .running)
      ∧ (IsMaskedBranch word → ∃ machine : Machine,
        machine.memory.read machine.registers.pc .word = .ok word
          ∧ machine.step.2.registers.pc ≠ (machine.replaceWord word').step.2.registers.pc) := by
  refine ⟨canonical word, encode_disassemble_of_decode hdecode, ?_, ?_, exists_step_pc_ne⟩
  · exact fun hshift hbranch machine hread =>
      step_replaceWord_canonical hdecode hshift hbranch hread
  · exact fun hshift machine hread => step_of_isIdleShift hshift hread

/-- A jump with a field that its text leaves out, an idle shift and a masked branch. -/
theorem reassembled_step_three_words :
    (∃ word', encode (disassemble 0x03FF0008) = .ok word'
      ∧ (Machine.probe 0x03FF0008 31).step.1
          = ((Machine.probe 0x03FF0008 31).replaceWord word').step.1
      ∧ Machine.AgreeOutside (Machine.probe 0x03FF0008 31).registers.pc
        (Machine.probe 0x03FF0008 31).step.2
        ((Machine.probe 0x03FF0008 31).replaceWord word').step.2)
    ∧ (∃ word', encode (disassemble 0x00200000) = .ok word'
      ∧ ((Machine.probe 0x00200000 1).replaceWord word').step.1 = .halted .zeroWord
      ∧ (Machine.probe 0x00200000 1).step.1 = .running)
    ∧ ∃ word', encode (disassemble 0x04810001) = .ok word'
      ∧ ∃ machine : Machine, machine.memory.read machine.registers.pc .word = .ok 0x04810001
        ∧ machine.step.2.registers.pc ≠ (machine.replaceWord word').step.2.registers.pc := by
  have hjump : (Fields.ofWord 0x03FF0008).operation? = some (.register .jumpRegister) := by decide
  have hshift : (Fields.ofWord 0x00200000).operation? = some (.register (.shift .sll)) := by
    decide
  have hbranch : (Fields.ofWord 0x04810001).operation? = some (.primary (.branch .bltz)) := by
    decide
  refine ⟨?_, ?_, ?_⟩
  · obtain ⟨word', hword', hsame, -⟩ := reassembled_step (decode_of_operation? hjump)
    exact ⟨word', hword', hsame (by decide) (by decide) _ (Machine.read_probe _ _)⟩
  · obtain ⟨word', hword', -, hidle, -⟩ := reassembled_step (decode_of_operation? hshift)
    exact ⟨word', hword', hidle (by decide) _ (Machine.read_probe _ _)⟩
  · obtain ⟨word', hword', -, -, hmasked⟩ := reassembled_step (decode_of_operation? hbranch)
    exact ⟨word', hword', hmasked (by decide)⟩

end MiniMips
