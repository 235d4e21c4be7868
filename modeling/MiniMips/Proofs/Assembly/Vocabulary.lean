import MiniMips.Instruction.Operation
import MiniMips.Proofs.Registers

/-!
# `MiniMips.Proofs.Assembly.Vocabulary`: the names and codes of the language

Assembly text has a name for every register and every operation, and an instruction word has
a code for the latter. The program keeps them in tables, since it looks them up in both
directions. Here they are written down once more, family by family, for the specifications
to refer to. A specification that took them from the tables would agree with any slip in
one. The theorems:

* `Reg.name_eq_spelling`: the names of the registers.
* `Operation.mnemonic_eq_spelling`: the names of the operations.
* `RegisterOp.code_eq`, `PrimaryOp.code_eq`: the codes of the operations.
-/

set_option autoImplicit false

namespace MiniMips

/-! ### Registers -/

/-- The name of a register by the convention on its use. -/
def Reg.spelling (r : Reg) : String :=
  match r.toNat with
  | 0 => "$zero" | 1 => "$at"
  | 2 => "$v0" | 3 => "$v1"
  | 4 => "$a0" | 5 => "$a1" | 6 => "$a2" | 7 => "$a3"
  | 8 => "$t0" | 9 => "$t1" | 10 => "$t2" | 11 => "$t3"
  | 12 => "$t4" | 13 => "$t5" | 14 => "$t6" | 15 => "$t7"
  | 16 => "$s0" | 17 => "$s1" | 18 => "$s2" | 19 => "$s3"
  | 20 => "$s4" | 21 => "$s5" | 22 => "$s6" | 23 => "$s7"
  | 24 => "$t8" | 25 => "$t9"
  | 26 => "$k0" | 27 => "$k1"
  | 28 => "$gp" | 29 => "$sp" | 30 => "$fp"
  | _ => "$ra"

/-- The 32 names, compared one by one. -/
private theorem Reg.name_eq_spelling_of_mem : ∀ r ∈ Reg.all, r.name = r.spelling := by
  decide +kernel

/-- The table of the registers has the conventional names. -/
theorem Reg.name_eq_spelling (r : Reg) : r.name = r.spelling :=
  r.name_eq_spelling_of_mem r.mem_all

/-! ### Names of the operations -/

/-- The name of a shift. -/
def ShiftOp.spelling : ShiftOp → String
  | sll => "sll"
  | srl => "srl"
  | sra => "sra"

/-- The name of a computation on two registers. -/
def ArithmeticOp.spelling : ArithmeticOp → String
  | add => "add"
  | sub => "sub"
  | and => "and"
  | or => "or"
  | xor => "xor"
  | nor => "nor"
  | slt => "slt"

/-- The name of a computation on a register and an immediate value. -/
def ImmediateOp.spelling : ImmediateOp → String
  | addi => "addi"
  | addiu => "addiu"
  | slti => "slti"
  | sltiu => "sltiu"
  | andi => "andi"
  | ori => "ori"
  | xori => "xori"

/-- The name of a load. -/
def LoadOp.spelling : LoadOp → String
  | lb => "lb"
  | lw => "lw"
  | lbu => "lbu"

/-- The name of a store. -/
def StoreOp.spelling : StoreOp → String
  | sb => "sb"
  | sw => "sw"

/-- The name of an operation. -/
def Operation.spelling : Operation → String
  | register (.shift op) => op.spelling
  | register .jumpRegister => "jr"
  | register .syscall => "syscall"
  | register .moveFromHi => "mfhi"
  | register .moveFromLo => "mflo"
  | register .multiply => "mul"
  | register .divide => "div"
  | register (.arithmetic op) => op.spelling
  | primary (.branch .bltz) => "bltz"
  | primary (.branch .beq) => "beq"
  | primary (.branch .bne) => "bne"
  | primary .jump => "j"
  | primary .jumpAndLink => "jal"
  | primary (.immediate op) => op.spelling
  | primary .loadUpper => "lui"
  | primary (.load op) => op.spelling
  | primary (.store op) => op.spelling

/-- The tables of the mnemonics have the names of the operations. -/
theorem Operation.mnemonic_eq_spelling (op : Operation) : op.mnemonic = op.spelling := by
  cases op with
  | register op =>
    cases op with
    | shift op => cases op <;> rfl
    | arithmetic op => cases op <;> rfl
    | _ => rfl
  | primary op =>
    cases op with
    | branch op => cases op <;> rfl
    | immediate op => cases op <;> rfl
    | load op => cases op <;> rfl
    | store op => cases op <;> rfl
    | _ => rfl

/-! ### Codes of the operations -/

/-- The function code of an operation with opcode zero. -/
def RegisterOp.functionCode : RegisterOp → Nat
  | shift .sll => 0 | shift .srl => 2 | shift .sra => 3
  | jumpRegister => 8
  | syscall => 12
  | moveFromHi => 16
  | moveFromLo => 18
  | multiply => 24
  | divide => 26
  | arithmetic .add => 32 | arithmetic .sub => 34
  | arithmetic .and => 36 | arithmetic .or => 37 | arithmetic .xor => 38 | arithmetic .nor => 39
  | arithmetic .slt => 42

/-- The opcode of an operation with an opcode of its own. -/
def PrimaryOp.opcode : PrimaryOp → Nat
  | branch .bltz => 1 | branch .beq => 4 | branch .bne => 5
  | jump => 2
  | jumpAndLink => 3
  | immediate .addi => 8 | immediate .addiu => 9
  | immediate .slti => 10 | immediate .sltiu => 11
  | immediate .andi => 12 | immediate .ori => 13 | immediate .xori => 14
  | loadUpper => 15
  | load .lb => 32 | load .lw => 35 | load .lbu => 36
  | store .sb => 40 | store .sw => 43

/-- The table of the operations with opcode zero has their function codes. -/
theorem RegisterOp.code_eq (op : RegisterOp) : op.code = op.functionCode := by
  cases op with
  | shift op => cases op <;> rfl
  | arithmetic op => cases op <;> rfl
  | _ => rfl

/-- The table of the other operations has their opcodes. -/
theorem PrimaryOp.code_eq (op : PrimaryOp) : op.code = op.opcode := by
  cases op with
  | branch op => cases op <;> rfl
  | immediate op => cases op <;> rfl
  | load op => cases op <;> rfl
  | store op => cases op <;> rfl
  | _ => rfl

end MiniMips
