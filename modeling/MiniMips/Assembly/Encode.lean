import MiniMips.Assembly.Error
import MiniMips.Assembly.Literal
import MiniMips.Assembly.Shape
import MiniMips.Assembly.Statement
import MiniMips.Instruction.Operation
import MiniMips.Instruction.Slot
import MiniMips.Register

/-!
# `MiniMips.Assembly.Encode`: lines as instruction words

The mnemonic of a line selects an operation, and the shapes of the operands select one of
its forms. Then each operand is put into the slot that the form names for it.

- `Operation.forms`: the forms of an operation, and `Operation.form?`: the one that fits.
- `Slot.encode`: the bits of one operand.
- `encode`: the word of a line, or the first reason why there is none.
-/

set_option autoImplicit false

namespace MiniMips

/-- The register that a token names. The name `$g7` stands for `$t7`. -/
def registerOfToken? (token : String) : Option Reg :=
  if token == "$g7" then some 15 else Reg.ofName? token

/-! ### Forms -/

/-- The forms of an operation with opcode zero. A product may be written without its
destination, and only this form has two operands. -/
def RegisterOp.forms : RegisterOp → List (List Slot)
  | shift _ => [[.rd, .rt, .shamt]]
  | jumpRegister => [[.rs]]
  | syscall => [[]]
  | moveFromHi => [[.rd]]
  | moveFromLo => [[.rd]]
  | multiply => [[.rs, .rt], [.rd, .rs, .rt]]
  | divide => [[.rd, .rs, .rt]]
  | arithmetic _ => [[.rd, .rs, .rt]]

/-- The form of an operation with an opcode of its own. -/
def PrimaryOp.forms : PrimaryOp → List (List Slot)
  | branch .bltz => [[.rs, .immediate]]
  | branch .beq => [[.rs, .rt, .immediate]]
  | branch .bne => [[.rs, .rt, .immediate]]
  | jump => [[.target]]
  | jumpAndLink => [[.target]]
  | immediate _ => [[.rt, .rs, .immediate]]
  | loadUpper => [[.rt, .immediate]]
  | load _ => [[.rt, .memory]]
  | store _ => [[.rt, .memory]]

/-- The forms of an operation, each as the slots of its operands in the order in which they
are written. -/
def Operation.forms : Operation → List (List Slot)
  | register op => op.forms
  | primary op => op.forms

/-- The shape of the operand that a slot keeps. -/
def Slot.shape : Slot → Shape
  | rd => .register
  | rs => .register
  | rt => .register
  | shamt => .unsigned
  | target => .unsigned
  | immediate => .signed
  | memory => .memory

/-- Whether there is one operand for each slot, of the right shape. -/
def formAccepts : List Slot → List String → Bool
  | [], [] => true
  | slot :: slots, token :: tokens => slot.shape.accepts token && formAccepts slots tokens
  | _, _ => false

/-- The first form of an operation that fits the operands. -/
def Operation.form? (op : Operation) (operands : List String) : Option (List Slot) :=
  op.forms.find? (formAccepts · operands)

/-! ### Operands as bits -/

/-- The register that a token names. -/
def encodeRegister (token : String) : Except EncodeError Reg :=
  match registerOfToken? token with
  | some r => .ok r
  | none => .error (.unknownRegister token)

/-- The low bits of the value of a token. -/
def encodeLiteral (width : Nat) (token : String) : Except EncodeError (BitVec width) :=
  match literal? token with
  | some value => .ok (BitVec.ofInt width value)
  | none => .error (.invalidLiteral token)

/-- A word with a field of bits from position `shift` on, and zeros elsewhere. -/
def fieldBits {width : Nat} (shift : Nat) (field : BitVec width) : Word :=
  field.setWidth 32 <<< shift

/-- The bits of the operand that a slot keeps. In a memory operand the base register
comes before the offset. -/
def Slot.encode (slot : Slot) (token : String) : Except EncodeError Word :=
  match slot with
  | rd => (encodeRegister token).map (fieldBits 11)
  | rs => (encodeRegister token).map (fieldBits 21)
  | rt => (encodeRegister token).map (fieldBits 16)
  | shamt => (encodeLiteral 5 token).map (fieldBits 6)
  | target => (encodeLiteral 26 token).map (fieldBits 0)
  | immediate => (encodeLiteral 16 token).map (fieldBits 0)
  | memory =>
    match splitMemory? token with
    | none => .error (.invalidLiteral token)
    | some (offset, base) =>
      (encodeRegister base).bind fun r =>
        (encodeLiteral 16 offset).map fun bits => fieldBits 21 r ||| fieldBits 0 bits

/-- The word with the bits of all operands added, from the first to the last. -/
def encodeOperands (word : Word) : List Slot → List String → Except EncodeError Word
  | slot :: slots, token :: tokens =>
    (slot.encode token).bind fun bits => encodeOperands (word ||| bits) slots tokens
  | _, _ => .ok word

/-! ### Lines -/

/-- The word of a statement. -/
def Statement.encode (statement : Statement) : Except EncodeError Word :=
  match Operation.ofMnemonic? statement.mnemonic with
  | none => .error (.unknownMnemonic statement.mnemonic)
  | some op =>
    match op.form? statement.operands with
    | none => .error (.noMatchingForm statement.mnemonic)
    | some form => encodeOperands op.baseWord form statement.operands

/-- The word of a line. A line without tokens is refused as an empty mnemonic. -/
def encode (line : String) : Except EncodeError Word :=
  match Statement.ofNormalized? (normalize line) with
  | none => .error (.unknownMnemonic "")
  | some statement => statement.encode

/-- The word of a line, if it has one. -/
def encode? (line : String) : Option Word :=
  (encode line).toOption

end MiniMips
