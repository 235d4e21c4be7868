/-!
# `MiniMips.Instruction.Slot`: where operands are kept

A `Slot` says which fields of the word keep an operand of an instruction. The disassembler and
the assembler each list the slots of an operation in the order in which the operands are
written. The disassembler has one list, and the assembler one for each form that it accepts.
-/

set_option autoImplicit false

namespace MiniMips

/-- A place in the instruction word that keeps an operand. -/
inductive Slot where
  | rd
  | rs
  | rt
  | shamt
  | target
  | immediate
  /-- A base register in `rs` and an offset in the immediate value. -/
  | memory
deriving DecidableEq, Repr

end MiniMips
