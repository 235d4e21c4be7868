import MiniMips.Register
import MiniMips.Word

/-!
# `MiniMips.Instruction.Fields`: the bit fields of an instruction word

All fields are read from every word. Which of them mean something depends on the
operation: the low half of a word is an immediate value for some, and a register, a
shift amount and a function code for others.
-/

set_option autoImplicit false

namespace MiniMips

/-- The bit fields of a word, from the highest bits down. `immediate` is the low half of
the word, and `target` is all of the word below the opcode. -/
structure Fields where
  opcode : BitVec 6
  rs : Reg
  rt : Reg
  rd : Reg
  shamt : BitVec 5
  funct : BitVec 6
  immediate : BitVec 16
  target : BitVec 26
deriving DecidableEq, Repr

namespace Fields

/-- The fields of a word. -/
def ofWord (word : Word) : Fields where
  opcode := word.extractLsb' 26 6
  rs := word.extractLsb' 21 5
  rt := word.extractLsb' 16 5
  rd := word.extractLsb' 11 5
  shamt := word.extractLsb' 6 5
  funct := word.extractLsb' 0 6
  immediate := word.extractLsb' 0 16
  target := word.extractLsb' 0 26

/-- The immediate value as a signed word. -/
def signedImmediate (fields : Fields) : Word :=
  fields.immediate.signExtend 32

/-- The immediate value as an unsigned word. -/
def unsignedImmediate (fields : Fields) : Word :=
  fields.immediate.setWidth 32

end Fields

end MiniMips
