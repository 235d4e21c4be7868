import MiniMips.Instruction.Fields
import MiniMips.Instruction.Operation

/-!
# `MiniMips.Instruction.Decode`: from words to instructions

An instruction is an operation together with the fields of its word. `decode` finds the
operation by the opcode, and for opcode zero by the function code. A word without an
operation is a fault.
-/

set_option autoImplicit false

namespace MiniMips

/-- An operation and the fields of the word that holds it. -/
structure Instruction where
  operation : Operation
  fields : Fields
deriving DecidableEq, Repr

/-- The operation that the codes in the fields select. -/
def Fields.operation? (fields : Fields) : Option Operation :=
  match Opcode.ofCode? fields.opcode.toNat with
  | none => none
  | some (.primary op) => some (.primary op)
  | some .registerFormat => (RegisterOp.ofCode? fields.funct.toNat).map .register

/-- The instruction that a word holds. -/
def decode (word : Word) : Except Fault Instruction :=
  match (Fields.ofWord word).operation? with
  | some operation => .ok ⟨operation, .ofWord word⟩
  | none => .error (.unknownInstruction word)

end MiniMips
