import MiniMips.Console
import MiniMips.Instruction.Address
import MiniMips.Instruction.Decode
import MiniMips.Machine.Service
import MiniMips.Memory.Basic
import MiniMips.Registers

/-!
# `MiniMips.Machine.Effect`: what an instruction asks for

Executing an instruction has two parts. Here it reads registers and memory and comes to
one `Effect`, or to a fault. Carrying the effect out is the other part, and changes
nothing that the effect does not name.

- `RegisterOp.effect`, `PrimaryOp.effect`: the effect of an operation.
- `Instruction.effect`: the effect of an instruction.

The program counter in the registers is the one after the fetch.
-/

set_option autoImplicit false

namespace MiniMips

open Text

/-- The one change that an executed instruction makes. -/
inductive Effect where
  | nothing
  | writeRegister (r : Reg) (value : Word)
  | writeHiLo (hi lo : Word)
  | jump (target : Word)
  /-- A jump that leaves a return address behind. -/
  | link (returnAddress target : Word)
  | store (place : Place) (size : AccessSize) (value : Word)
  | print (channel : Channel) (text : String)
  /-- The end of the program. -/
  | exit
deriving DecidableEq, Repr

/-- The effect of a system call for a service number and an argument. -/
def systemCall (number argument : Word) : Effect :=
  match Service.ofNumber? number.toNat with
  | some .printInteger => .print .normal (decimal argument.toNat)
  | some .printCharacter => .print .normal (String.singleton (characterOf argument))
  | some .exit => .exit
  | none => .print .debug ("[DEBUG] ignored syscall service " ++ decimal number.toNat)

/-- The effect of an operation with opcode zero. The product of `mul` and the quotient of
`div` go to HI and LO, and `rd` stays as it is. -/
def RegisterOp.effect (op : RegisterOp) (fields : Fields) (registers : Registers) :
    Except Fault Effect :=
  let rs := registers.get fields.rs
  let rt := registers.get fields.rt
  match op with
  | shift op =>
    .ok (.writeRegister fields.rd (op.aluOp.apply rt (fields.shamt.setWidth 32)))
  | jumpRegister => .ok (.jump rs)
  | syscall => .ok (systemCall (registers.get .v0) (registers.get .a0))
  | moveFromHi => .ok (.writeRegister fields.rd registers.hi)
  | moveFromLo => .ok (.writeRegister fields.rd registers.lo)
  | multiply =>
    let product := rs.toNat * rt.toNat
    .ok (.writeHiLo (BitVec.ofNat 32 (product / 0x100000000)) (BitVec.ofNat 32 product))
  | divide =>
    if rt = 0 then .error .divideByZero
    else .ok (.writeHiLo (rs % rt) (rs / rt))
  | arithmetic op => .ok (.writeRegister fields.rd (op.aluOp.apply rs rt))

/-- Whether a branch on two register values is taken. -/
def BranchOp.holds (op : BranchOp) (rs rt : Word) : Bool :=
  match op with
  | bltz => rs < rt
  | beq => rs == rt
  | bne => rs != rt

/-- The comparison of a register value, read as unsigned, with a signed immediate value.
A negative immediate value is below every register value. -/
def setLessThanImmediate (rs : Word) (immediate : BitVec 16) : Word :=
  if immediate.msb then 0 else AluOp.setLessThan.apply rs (immediate.setWidth 32)

/-- The result of a computation on a register and an immediate value. Sums extend the
immediate value by its sign, bitwise operations by zeros. -/
def ImmediateOp.apply (op : ImmediateOp) (rs : Word) (immediate : BitVec 16) : Word :=
  match op with
  | addi => AluOp.add.apply rs (immediate.signExtend 32)
  | addiu => AluOp.add.apply rs (immediate.signExtend 32)
  | slti => setLessThanImmediate rs immediate
  | sltiu => setLessThanImmediate rs immediate
  | andi => AluOp.and.apply rs (immediate.setWidth 32)
  | ori => AluOp.or.apply rs (immediate.setWidth 32)
  | xori => AluOp.xor.apply rs (immediate.setWidth 32)

/-- The effect of an operation with an opcode of its own. Every load extends what it
reads by zeros. -/
def PrimaryOp.effect (op : PrimaryOp) (fields : Fields) (registers : Registers)
    (memory : Memory) : Except Fault Effect :=
  let rs := registers.get fields.rs
  let rt := registers.get fields.rt
  match op with
  | branch op =>
    .ok (if op.holds rs rt then .jump (branchTarget registers.pc fields.immediate)
      else .nothing)
  | jump => .ok (.jump (jumpTarget registers.pc fields.target))
  | jumpAndLink => .ok (.link registers.pc (jumpTarget registers.pc fields.target))
  | immediate op => .ok (.writeRegister fields.rt (op.apply rs fields.immediate))
  | loadUpper => .ok (.writeRegister fields.rt (fields.immediate.setWidth 32 <<< 16))
  | load op =>
    match memory.read (effectiveAddress rs fields.immediate) op.size with
    | .ok value => .ok (.writeRegister fields.rt value)
    | .error fault => .error fault
  | store op =>
    match Place.ofAccess (effectiveAddress rs fields.immediate) op.size with
    | .ok place => .ok (.store place op.size rt)
    | .error fault => .error fault

/-- The effect of an instruction. -/
def Instruction.effect (instruction : Instruction) (registers : Registers)
    (memory : Memory) : Except Fault Effect :=
  match instruction.operation with
  | .register op => op.effect instruction.fields registers
  | .primary op => op.effect instruction.fields registers memory

end MiniMips
