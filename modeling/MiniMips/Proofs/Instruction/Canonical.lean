import MiniMips.Disassembly
import MiniMips.Proofs.Assembly.Grammar

/-!
# `MiniMips.Proofs.Instruction.Canonical`: words without unprinted fields

The text of an instruction names some fields of its word and leaves the others out. A word
is canonical when the fields that are left out hold zeros. `canonical` clears them, and
`Instruction.command` is the command that the text of an instruction writes. The theorems:

* `holds_canonical`: the canonical word has the fields of the command.
* `Command.operation?_of_holds`: the fields of a command select its operation.
* `decode_canonical`: so the canonical word holds the same operation.
* `disassemble_canonical`: and it has the same text.
-/

set_option autoImplicit false

namespace MiniMips

open Text

/-! ### Clearing fields -/

/-- The bits of `rs`. -/
def rsMask : Word :=
  fieldBits 21 (BitVec.allOnes 5)

/-- The bits of `rt`. -/
def rtMask : Word :=
  fieldBits 16 (BitVec.allOnes 5)

/-- The bits of `rd`. -/
def rdMask : Word :=
  fieldBits 11 (BitVec.allOnes 5)

/-- The bits of the shift amount. -/
def shamtMask : Word :=
  fieldBits 6 (BitVec.allOnes 5)

/-- The bits of the fields that the text of an operation leaves out. -/
def Operation.unprinted : Operation → Word
  | register (.shift _) => rsMask
  | register .jumpRegister => rtMask ||| rdMask ||| shamtMask
  | register .syscall => rsMask ||| rtMask ||| rdMask ||| shamtMask
  | register .moveFromHi => rsMask ||| rtMask ||| shamtMask
  | register .moveFromLo => rsMask ||| rtMask ||| shamtMask
  | register .multiply => shamtMask
  | register .divide => shamtMask
  | register (.arithmetic _) => shamtMask
  | primary (.branch .bltz) => rtMask
  | primary .loadUpper => rsMask
  | primary _ => 0

/-- The word with the unprinted fields of its operation cleared. A word without an
operation stays as it is. -/
def canonical (word : Word) : Word :=
  match (Fields.ofWord word).operation? with
  | some op => word &&& ~~~op.unprinted
  | none => word

/-- A word with an operation loses the fields that the operation leaves out. -/
theorem canonical_of_operation? {word : Word} {op : Operation}
    (h : (Fields.ofWord word).operation? = some op) :
    canonical word = word &&& ~~~op.unprinted := by
  rw [canonical, h]

/-- A word without one loses nothing. -/
theorem canonical_of_operation?_eq_none {word : Word}
    (h : (Fields.ofWord word).operation? = none) : canonical word = word := by
  rw [canonical, h]

/-- A word whose text names every field is canonical. -/
theorem canonical_of_unprinted_eq_zero {word : Word} {op : Operation}
    (h : (Fields.ofWord word).operation? = some op) (hzero : op.unprinted = 0) :
    canonical word = word := by
  rw [canonical_of_operation? h, hzero]
  exact BitVec.and_allOnes

/-- A field of a word with some bits cleared. -/
private theorem extractLsb'_clear (word mask : Word) {start len : Nat} (h : start + len ≤ 32) :
    (word &&& ~~~mask).extractLsb' start len
      = word.extractLsb' start len &&& ~~~mask.extractLsb' start len := by
  ext i hi
  simp [show start + i < 32 by omega]

/-- A field is cleared when all of its bits are. -/
theorem extractLsb'_clear_of_allOnes (word mask : Word) {start len : Nat}
    (h : start + len ≤ 32) (hmask : mask.extractLsb' start len = BitVec.allOnes len) :
    (word &&& ~~~mask).extractLsb' start len = 0 := by
  rw [extractLsb'_clear word mask h, hmask, BitVec.not_allOnes, BitVec.and_zero]
  rfl

/-- A field stays as it is when none of its bits is cleared. -/
theorem extractLsb'_clear_of_zero (word mask : Word) {start len : Nat}
    (h : start + len ≤ 32) (hmask : mask.extractLsb' start len = 0) :
    (word &&& ~~~mask).extractLsb' start len = word.extractLsb' start len := by
  rw [extractLsb'_clear word mask h, hmask]
  simp

/-! ### The command of an instruction -/

/-- The command that the text of an instruction writes. -/
def Instruction.command (instruction : Instruction) : Command :=
  let fields := instruction.fields
  match instruction.operation with
  | .register (.shift op) => .shift op fields.rd fields.rt fields.shamt.toNat
  | .register .jumpRegister => .jumpRegister fields.rs
  | .register .syscall => .syscall
  | .register .moveFromHi => .moveFromHi fields.rd
  | .register .moveFromLo => .moveFromLo fields.rd
  | .register .multiply => .multiplyInto fields.rd fields.rs fields.rt
  | .register .divide => .divide fields.rd fields.rs fields.rt
  | .register (.arithmetic op) => .arithmetic op fields.rd fields.rs fields.rt
  | .primary (.branch .bltz) => .branchBelow fields.rs fields.immediate.toInt
  | .primary (.branch .beq) => .branchEqual fields.rs fields.rt fields.immediate.toInt
  | .primary (.branch .bne) => .branchUnequal fields.rs fields.rt fields.immediate.toInt
  | .primary .jump => .jump fields.target.toNat
  | .primary .jumpAndLink => .jumpAndLink fields.target.toNat
  | .primary (.immediate op) => .immediate op fields.rt fields.rs fields.immediate.toInt
  | .primary .loadUpper => .loadUpper fields.rt fields.immediate.toInt
  | .primary (.load op) => .load op fields.rt fields.immediate.toInt fields.rs
  | .primary (.store op) => .store op fields.rt fields.immediate.toInt fields.rs

/-- The command has the operation of the instruction. -/
theorem Instruction.operation_command (instruction : Instruction) :
    instruction.command.operation = instruction.operation := by
  obtain ⟨op, fields⟩ := instruction
  rcases op with (_ | _ | _ | _ | _ | _ | _ | _) | ((_ | _ | _) | _ | _ | _ | _ | _ | _) <;> rfl

/-- The fields of a command select its operation. -/
theorem Command.operation?_of_holds {c : Command} {fields : Fields} (h : c.layout.Holds fields) :
    fields.operation? = some c.operation := by
  cases c with
  | jump | jumpAndLink =>
    rw [operation, Fields.operation?_eq_primary_iff, PrimaryOp.code_eq]
    exact h.1
  | branchBelow | branchEqual | branchUnequal | immediate | loadUpper | load | store =>
    rw [operation, Fields.operation?_eq_primary_iff, PrimaryOp.code_eq]
    exact h.1
  | _ =>
    rw [operation, Fields.operation?_eq_register_iff, RegisterOp.code_eq]
    exact ⟨h.1, h.2.2.2.2.2⟩

/-- The canonical word has the fields of the command, and zeros elsewhere. -/
theorem holds_canonical {word : Word} {op : Operation}
    (h : (Fields.ofWord word).operation? = some op) :
    (Instruction.mk op (.ofWord word)).command.layout.Holds (Fields.ofWord (canonical word)) := by
  rw [canonical_of_operation? h]
  cases op with
  | register op =>
    obtain ⟨hopcode, hfunct⟩ := Fields.operation?_eq_register_iff.mp h
    replace hopcode : word.extractLsb' 26 6 = 0 := hopcode
    replace hfunct : word.extractLsb' 0 6 = BitVec.ofNat 6 op.functionCode := by
      rw [← op.code_eq]
      exact hfunct
    -- Each cleared or kept field is a fact about a fixed mask, left to `decide`.
    cases op <;>
      simp (disch := decide) only [Fields.ofWord, Instruction.command, Command.layout,
        Command.registerLayout, Layout.Holds, Operation.unprinted, extractLsb'_clear_of_allOnes,
        extractLsb'_clear_of_zero, BitVec.ofNat_toNat, BitVec.setWidth_eq, hopcode, hfunct,
        and_self]
  | primary op =>
    have hopcode : word.extractLsb' 26 6 = BitVec.ofNat 6 op.opcode := by
      rw [← op.code_eq]
      exact Fields.operation?_eq_primary_iff.mp h
    rcases op with (_ | _ | _) | _ | _ | _ | _ | _ | _ <;>
      simp (disch := decide) only [Fields.ofWord, Instruction.command, Command.layout,
        Command.immediateLayout, Command.targetLayout, Layout.Holds, Operation.unprinted,
        extractLsb'_clear_of_allOnes, extractLsb'_clear_of_zero, BitVec.ofNat_toNat,
        BitVec.setWidth_eq, BitVec.ofInt_toInt, hopcode, and_self]

/-- The canonical word holds the operation of the word. -/
theorem operation?_canonical {word : Word} {op : Operation}
    (h : (Fields.ofWord word).operation? = some op) :
    (Fields.ofWord (canonical word)).operation? = some op := by
  rw [Command.operation?_of_holds (holds_canonical h), Instruction.operation_command]

/-- The canonical word is decoded to the same operation. -/
theorem decode_canonical {word : Word} {instruction : Instruction}
    (h : decode word = .ok instruction) :
    decode (canonical word) = .ok ⟨instruction.operation, .ofWord (canonical word)⟩ :=
  decode_eq_ok_iff.mpr ⟨rfl, operation?_canonical (decode_eq_ok_iff.mp h).2⟩

/-! ### The text of an instruction -/

/-- The text of an instruction depends on the fields of its command alone. -/
theorem Instruction.text_eq_of_holds {op : Operation} {fields fields' : Fields}
    (h : (Instruction.mk op fields).command.layout.Holds fields') :
    (Instruction.mk op fields').text = (Instruction.mk op fields).text := by
  rcases op with (_ | _ | _ | _ | _ | _ | _ | _) | ((_ | _ | _) | _ | _ | _ | _ | _ | _) <;>
    simp_all [Instruction.command, Command.layout, Command.registerLayout,
      Command.immediateLayout, Command.targetLayout, Layout.Holds, Instruction.text,
      Operation.operands, RegisterOp.operands, PrimaryOp.operands, BranchOp.operands, Slot.text]

/-- Unprinted fields do not show in the text of a word. -/
theorem disassemble_canonical (word : Word) :
    disassemble (canonical word) = disassemble word := by
  cases h : (Fields.ofWord word).operation? with
  | none => rw [canonical_of_operation?_eq_none h]
  | some op =>
    have hword := decode_of_operation? h
    rw [disassemble, disassemble, decode_canonical hword, hword]
    exact Instruction.text_eq_of_holds (holds_canonical h)

end MiniMips
