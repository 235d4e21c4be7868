import MiniMips.Fault

/-!
# `MiniMips.Alu`: the arithmetic and logic unit

The unit knows eleven operations on two words. Each has a control code.

- `AluOp.apply`: the operation on words.
- `alu`: the operation that a control code selects, and a fault for any other code.
-/

set_option autoImplicit false

namespace MiniMips

/-- An operation of the unit. -/
inductive AluOp where
  | noShift
  | shiftLeftLogical
  | shiftRightLogical
  | shiftRightArithmetic
  | setLessThan
  | add
  | subtract
  | and
  | or
  | xor
  | nor
deriving DecidableEq, Repr

namespace AluOp

/-- All operations in the order of their control codes. -/
def all : List AluOp :=
  [noShift, shiftLeftLogical, shiftRightLogical, shiftRightArithmetic, setLessThan, add,
   subtract, and, or, xor, nor]

/-- The control code of an operation. -/
def control : AluOp → Nat
  | noShift => 0
  | shiftLeftLogical => 1
  | shiftRightLogical => 2
  | shiftRightArithmetic => 3
  | setLessThan => 4
  | add => 8
  | subtract => 9
  | and => 12
  | or => 13
  | xor => 14
  | nor => 15

/-- The operation with the given control code. -/
def ofControl? (code : Nat) : Option AluOp :=
  all.find? (·.control == code)

/-- The result of an operation. Shifts take their distance modulo 32, and the comparison
reads both words as unsigned. -/
def apply (op : AluOp) (x y : Word) : Word :=
  match op with
  | noShift => x
  | shiftLeftLogical => x <<< (y.toNat % 32)
  | shiftRightLogical => x >>> (y.toNat % 32)
  | shiftRightArithmetic => x.sshiftRight (y.toNat % 32)
  | setLessThan => if x < y then 1 else 0
  | add => x + y
  | subtract => x - y
  | and => x &&& y
  | or => x ||| y
  | xor => x ^^^ y
  | nor => ~~~(x ||| y)

end AluOp

/-- The result of the operation that a control code selects. -/
def alu (x y : Word) (code : Nat) : Except Fault Word :=
  match AluOp.ofControl? code with
  | some op => .ok (op.apply x y)
  | none => .error (.invalidAluControl code)

end MiniMips
