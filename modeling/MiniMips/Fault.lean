import MiniMips.Text.Numeral
import MiniMips.Word

/-!
# `MiniMips.Fault`: what an operation of the machine refuses

A `Fault` is the cause of a refusal together with the values that its report shows.
`Fault.message` is the report, and `Fault.kind` names the part of the machine that a
fault belongs to.
-/

set_option autoImplicit false

namespace MiniMips

open Text

/-- The cause of a refused operation. -/
inductive Fault where
  /-- No operation of the arithmetic unit has this control code. -/
  | invalidAluControl (code : Nat)
  /-- There is no register of this number. -/
  | invalidRegister (index : Nat)
  /-- The address lies in no segment. -/
  | unmappedAddress (address : Word)
  /-- An access of `size` bytes starts inside a segment and leaves it. -/
  | segmentOverrun (address : Word) (size : Nat)
  /-- The word is no instruction. -/
  | unknownInstruction (word : Word)
  /-- The divisor is zero. -/
  | divideByZero
deriving DecidableEq, Repr

/-- The part of the machine that a fault belongs to. -/
inductive FaultKind where
  | operation
  | register
  | memory
  | instruction
deriving DecidableEq, Repr

namespace Fault

/-- The part of the machine that raised the fault. -/
def kind : Fault → FaultKind
  | invalidAluControl _ => .operation
  | divideByZero => .operation
  | invalidRegister _ => .register
  | unmappedAddress _ => .memory
  | segmentOverrun _ _ => .memory
  | unknownInstruction _ => .instruction

/-- The report of the fault. Addresses and words are written with eight digits. -/
def message : Fault → String
  | invalidAluControl code => "invalid alu control code " ++ hex code
  | invalidRegister index => "invalid register index " ++ decimal index
  | unmappedAddress address =>
    "memory access to unmapped address " ++ hexPadded 8 address.toNat
  | segmentOverrun address size =>
    decimal size ++ "-byte access at " ++ hexPadded 8 address.toNat
      ++ " runs past the end of its segment"
  | unknownInstruction word => "unknown instruction " ++ hexPadded 8 word.toNat
  | divideByZero => "division by zero"

end Fault

end MiniMips
