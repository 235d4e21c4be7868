import MiniMips.Alu

/-!
# `MiniMips.Instruction.Operation`: the operations of the instruction set

There are 34 operations in two groups. A `RegisterOp` shares the opcode zero with the
others of its group and is told apart by a function code; a `PrimaryOp` has an opcode of
its own. Inside each group, operations that differ only in what they compute form a
family.

- `RegisterOp.code`, `PrimaryOp.code`: the codes. `RegisterOp.ofCode?` and `Opcode.ofCode?` go
  the other way.
- `Operation.mnemonic` and `Operation.ofMnemonic?`: the names in assembly text.
- `Operation.baseWord`: the instruction word of an operation before any operand.
-/

set_option autoImplicit false

namespace MiniMips

/-- Shifts by a distance that the instruction holds. -/
inductive ShiftOp where
  | sll
  | srl
  | sra
deriving DecidableEq, Repr

/-- Computations on two registers. -/
inductive ArithmeticOp where
  | add
  | sub
  | and
  | or
  | xor
  | nor
  | slt
deriving DecidableEq, Repr

/-- The operations with opcode zero. -/
inductive RegisterOp where
  | shift (op : ShiftOp)
  | jumpRegister
  | syscall
  | moveFromHi
  | moveFromLo
  | multiply
  | divide
  | arithmetic (op : ArithmeticOp)
deriving DecidableEq, Repr

/-- The comparisons of the conditional branches. -/
inductive BranchOp where
  | bltz
  | beq
  | bne
deriving DecidableEq, Repr

/-- Computations on a register and an immediate value. -/
inductive ImmediateOp where
  | addi
  | addiu
  | slti
  | sltiu
  | andi
  | ori
  | xori
deriving DecidableEq, Repr

/-- Reads of memory into a register. -/
inductive LoadOp where
  | lb
  | lw
  | lbu
deriving DecidableEq, Repr

/-- Writes of a register into memory. -/
inductive StoreOp where
  | sb
  | sw
deriving DecidableEq, Repr

/-- The operations with an opcode of their own. -/
inductive PrimaryOp where
  | branch (op : BranchOp)
  | jump
  | jumpAndLink
  | immediate (op : ImmediateOp)
  | loadUpper
  | load (op : LoadOp)
  | store (op : StoreOp)
deriving DecidableEq, Repr

/-- An operation of the instruction set. -/
inductive Operation where
  | register (op : RegisterOp)
  | primary (op : PrimaryOp)
deriving DecidableEq, Repr

/-! ### What the families compute -/

/-- The operation of the arithmetic unit behind a shift. -/
def ShiftOp.aluOp : ShiftOp → AluOp
  | sll => .shiftLeftLogical
  | srl => .shiftRightLogical
  | sra => .shiftRightArithmetic

/-- The operation of the arithmetic unit behind a computation on two registers. -/
def ArithmeticOp.aluOp : ArithmeticOp → AluOp
  | add => .add
  | sub => .subtract
  | and => .and
  | or => .or
  | xor => .xor
  | nor => .nor
  | slt => .setLessThan

/-- The number of bytes that a load reads. -/
def LoadOp.size : LoadOp → AccessSize
  | lb => .byte
  | lw => .word
  | lbu => .byte

/-- The number of bytes that a store writes. -/
def StoreOp.size : StoreOp → AccessSize
  | sb => .byte
  | sw => .word

/-! ### The operations with opcode zero -/

namespace RegisterOp

/-- All operations of the group in the order of their function codes. -/
def all : List RegisterOp :=
  [shift .sll, shift .srl, shift .sra, jumpRegister, syscall, moveFromHi, moveFromLo,
   multiply, divide, arithmetic .add, arithmetic .sub, arithmetic .and, arithmetic .or,
   arithmetic .xor, arithmetic .nor, arithmetic .slt]

/-- The function code of an operation. -/
def code : RegisterOp → Nat
  | shift .sll => 0
  | shift .srl => 2
  | shift .sra => 3
  | jumpRegister => 8
  | syscall => 12
  | moveFromHi => 16
  | moveFromLo => 18
  | multiply => 24
  | divide => 26
  | arithmetic .add => 32
  | arithmetic .sub => 34
  | arithmetic .and => 36
  | arithmetic .or => 37
  | arithmetic .xor => 38
  | arithmetic .nor => 39
  | arithmetic .slt => 42

/-- The operation with the given function code. -/
def ofCode? (code : Nat) : Option RegisterOp :=
  all.find? (·.code == code)

/-- The name of an operation in assembly text. -/
def mnemonic : RegisterOp → String
  | shift .sll => "sll"
  | shift .srl => "srl"
  | shift .sra => "sra"
  | jumpRegister => "jr"
  | syscall => "syscall"
  | moveFromHi => "mfhi"
  | moveFromLo => "mflo"
  | multiply => "mul"
  | divide => "div"
  | arithmetic .add => "add"
  | arithmetic .sub => "sub"
  | arithmetic .and => "and"
  | arithmetic .or => "or"
  | arithmetic .xor => "xor"
  | arithmetic .nor => "nor"
  | arithmetic .slt => "slt"

/-- The operation of the arithmetic unit behind an operation, if it has one. -/
def aluOp? : RegisterOp → Option AluOp
  | shift op => some op.aluOp
  | arithmetic op => some op.aluOp
  | _ => none

end RegisterOp

/-! ### The operations with an opcode of their own -/

namespace PrimaryOp

/-- All operations of the group in the order of their opcodes. -/
def all : List PrimaryOp :=
  [branch .bltz, jump, jumpAndLink, branch .beq, branch .bne, immediate .addi,
   immediate .addiu, immediate .slti, immediate .sltiu, immediate .andi, immediate .ori,
   immediate .xori, loadUpper, load .lb, load .lw, load .lbu, store .sb, store .sw]

/-- The opcode of an operation. -/
def code : PrimaryOp → Nat
  | branch .bltz => 1
  | jump => 2
  | jumpAndLink => 3
  | branch .beq => 4
  | branch .bne => 5
  | immediate .addi => 8
  | immediate .addiu => 9
  | immediate .slti => 10
  | immediate .sltiu => 11
  | immediate .andi => 12
  | immediate .ori => 13
  | immediate .xori => 14
  | loadUpper => 15
  | load .lb => 32
  | load .lw => 35
  | load .lbu => 36
  | store .sb => 40
  | store .sw => 43

/-- The name of an operation in assembly text. -/
def mnemonic : PrimaryOp → String
  | branch .bltz => "bltz"
  | jump => "j"
  | jumpAndLink => "jal"
  | branch .beq => "beq"
  | branch .bne => "bne"
  | immediate .addi => "addi"
  | immediate .addiu => "addiu"
  | immediate .slti => "slti"
  | immediate .sltiu => "sltiu"
  | immediate .andi => "andi"
  | immediate .ori => "ori"
  | immediate .xori => "xori"
  | loadUpper => "lui"
  | load .lb => "lb"
  | load .lw => "lw"
  | load .lbu => "lbu"
  | store .sb => "sb"
  | store .sw => "sw"

end PrimaryOp

/-! ### Opcodes -/

/-- What an opcode stands for: the whole first group, or one operation of the second. -/
inductive Opcode where
  | registerFormat
  | primary (op : PrimaryOp)
deriving DecidableEq, Repr

namespace Opcode

/-- All opcodes in ascending order. -/
def all : List Opcode :=
  registerFormat :: PrimaryOp.all.map primary

/-- The number of an opcode. -/
def code : Opcode → Nat
  | registerFormat => 0
  | primary op => op.code

/-- The opcode with the given number. -/
def ofCode? (code : Nat) : Option Opcode :=
  all.find? (·.code == code)

/-- The name of an opcode in a table of opcodes. -/
def mnemonic : Opcode → String
  | registerFormat => "r-format"
  | primary op => op.mnemonic

end Opcode

/-! ### All operations -/

namespace Operation

/-- All operations, the group with opcode zero first. -/
def all : List Operation :=
  RegisterOp.all.map register ++ PrimaryOp.all.map primary

/-- The name of an operation in assembly text. -/
def mnemonic : Operation → String
  | register op => op.mnemonic
  | primary op => op.mnemonic

/-- The operation of the given name. -/
def ofMnemonic? (name : String) : Option Operation :=
  all.find? (·.mnemonic == name)

/-- The opcode of an operation. -/
def opcode : Operation → Opcode
  | register _ => .registerFormat
  | primary op => .primary op

/-- The function code of an operation, which is zero outside the first group. -/
def functionCode : Operation → Nat
  | register op => op.code
  | primary _ => 0

/-- The instruction word with the codes of the operation and zeros elsewhere. -/
def baseWord (op : Operation) : Word :=
  BitVec.ofNat 32 (op.opcode.code * 0x4000000 + op.functionCode)

end Operation

end MiniMips
