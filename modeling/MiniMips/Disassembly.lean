import MiniMips.Instruction.Decode
import MiniMips.Instruction.Slot

/-!
# `MiniMips.Disassembly`: words as assembly text

An instruction is written as its mnemonic and its operands with single spaces between
them. Registers are written by name, shift amounts and immediate values in decimal, jump
targets in hexadecimal. `disassemble` writes a word, also one that holds no instruction.

- `Operation.operands`: the operands that the text of an operation names, in their order.
- `Slot.text`: the text of one operand.
- `disassemble`: the text of a word.
-/

set_option autoImplicit false

namespace MiniMips

open Text

/-- The operands in the text of an operation with opcode zero. A product is written with a
destination, which it leaves as it is. -/
def RegisterOp.operands : RegisterOp → List Slot
  | shift _ => [.rd, .rt, .shamt]
  | jumpRegister => [.rs]
  | syscall => []
  | moveFromHi => [.rd]
  | moveFromLo => [.rd]
  | multiply => [.rd, .rs, .rt]
  | divide => [.rd, .rs, .rt]
  | arithmetic _ => [.rd, .rs, .rt]

/-- The operands in the text of a branch. The comparison `bltz` also reads `rt`, but its text
does not name it. -/
def BranchOp.operands : BranchOp → List Slot
  | bltz => [.rs, .immediate]
  | beq => [.rs, .rt, .immediate]
  | bne => [.rs, .rt, .immediate]

/-- The operands in the text of an operation with an opcode of its own. -/
def PrimaryOp.operands : PrimaryOp → List Slot
  | branch op => op.operands
  | jump => [.target]
  | jumpAndLink => [.target]
  | immediate _ => [.rt, .rs, .immediate]
  | loadUpper => [.rt, .immediate]
  | load _ => [.rt, .memory]
  | store _ => [.rt, .memory]

/-- The operands in the text of an operation. -/
def Operation.operands : Operation → List Slot
  | register op => op.operands
  | primary op => op.operands

/-- The text of the operand that a slot keeps. -/
def Slot.text (slot : Slot) (fields : Fields) : String :=
  match slot with
  | rd => fields.rd.name
  | rs => fields.rs.name
  | rt => fields.rt.name
  | shamt => decimal fields.shamt.toNat
  | target => hex fields.target.toNat
  | immediate => signedDecimal fields.immediate.toInt
  | memory => signedDecimal fields.immediate.toInt ++ "(" ++ fields.rs.name ++ ")"

/-- The text of an instruction. -/
def Instruction.text (instruction : Instruction) : String :=
  " ".intercalate
    (instruction.operation.mnemonic ::
      instruction.operation.operands.map (·.text instruction.fields))

/-- The text of a word. -/
def disassemble (word : Word) : String :=
  match decode word with
  | .ok instruction => instruction.text
  | .error _ => "Unknown Instruction " ++ hex word.toNat

end MiniMips
