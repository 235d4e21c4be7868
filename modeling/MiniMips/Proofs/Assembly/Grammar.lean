import MiniMips.Proofs.Assembly.Vocabulary
import MiniMips.Proofs.Instruction.Layout
import MiniMips.Text.Numeral

/-!
# `MiniMips.Proofs.Assembly.Grammar`: what a line of assembly text may say

The grammar of lines, as a relation between tokens and what they mean. It does not say
how a line is read: there are no shapes, no slots and no order in which forms are tried. Nor
does it look into the tables of the program. The names and codes are written out here and in
`MiniMips.Proofs.Assembly.Vocabulary`.

* `RegisterToken`, `UnsignedToken`, `SignedToken`, `MemoryToken`: the operands.
* `Command`: an instruction as its author writes it, with the operands in written order.
  A literal is the number that the author wrote, however large.
* `Command.Written`: the tokens that write a command.
* `Command.layout`: the fields of the word of a command. Literals are cut down to the
  width of their field, and fields without an operand are zero.
-/

set_option autoImplicit false

namespace MiniMips

open Text

/-! ### Operands -/

/-- A token that names a register. -/
inductive RegisterToken : String → Reg → Prop where
  | name (r : Reg) : RegisterToken r.spelling r
  /-- The one register with a second name is `$t7`. -/
  | g7 : RegisterToken "$g7" 15

/-- The name that the program has for a register is one of its tokens. -/
theorem RegisterToken.ofName (r : Reg) : RegisterToken r.name r := by
  rw [r.name_eq_spelling]
  exact .name r

/-- A token that is a number without a sign. It must fit 64 bits with a sign. -/
inductive UnsignedToken : String → Nat → Prop where
  | decimal {digits : List Char} (nonempty : digits ≠ []) (valid : ∀ c ∈ digits, c.isDigit)
      (bound : natOfDigits 10 digits < 2 ^ 63) :
      UnsignedToken (String.ofList digits) (natOfDigits 10 digits)
  | hexadecimal {digits : List Char} (nonempty : digits ≠ [])
      (valid : ∀ c ∈ digits, isHexDigit c) (bound : natOfDigits 16 digits < 2 ^ 63) :
      UnsignedToken ("0x" ++ String.ofList digits) (natOfDigits 16 digits)

/-- A token that is a number, after an optional minus. -/
inductive SignedToken : String → Int → Prop where
  | plain {token : String} {n : Nat} (body : UnsignedToken token n) : SignedToken token n
  | minus {token : String} {n : Nat} (body : UnsignedToken token n) :
      SignedToken ("-" ++ token) (-n)

/-- A token that is an offset with a base register in parentheses. -/
inductive MemoryToken : String → Int → Reg → Prop where
  | place {offset base : String} {z : Int} {r : Reg} (hoffset : SignedToken offset z)
      (hbase : RegisterToken base r) : MemoryToken (offset ++ "(" ++ base ++ ")") z r

/-! ### Commands -/

/-- An instruction with its operands in the order in which they are written: `d` for a
destination, `s` and `t` for sources. Loads and stores are `t offset(s)`. -/
inductive Command where
  | shift (op : ShiftOp) (d t : Reg) (distance : Nat)
  | jumpRegister (s : Reg)
  | syscall
  | moveFromHi (d : Reg)
  | moveFromLo (d : Reg)
  | multiply (s t : Reg)
  /-- A multiplication with a destination, which it does not write. -/
  | multiplyInto (d s t : Reg)
  | divide (d s t : Reg)
  | arithmetic (op : ArithmeticOp) (d s t : Reg)
  | jump (target : Nat)
  | jumpAndLink (target : Nat)
  | branchBelow (s : Reg) (offset : Int)
  | branchEqual (s t : Reg) (offset : Int)
  | branchUnequal (s t : Reg) (offset : Int)
  | immediate (op : ImmediateOp) (t s : Reg) (value : Int)
  | loadUpper (t : Reg) (value : Int)
  | load (op : LoadOp) (t : Reg) (offset : Int) (s : Reg)
  | store (op : StoreOp) (t : Reg) (offset : Int) (s : Reg)
deriving DecidableEq, Repr

namespace Command

/-- The tokens that write a command. -/
inductive Written : Command → List String → Prop where
  | shift {x y z : String} {d t : Reg} {k : Nat} (op : ShiftOp) (hd : RegisterToken x d)
      (ht : RegisterToken y t) (hk : UnsignedToken z k) :
      Written (.shift op d t k) [op.spelling, x, y, z]
  | jumpRegister {x : String} {s : Reg} (hs : RegisterToken x s) :
      Written (.jumpRegister s) ["jr", x]
  | syscall : Written .syscall ["syscall"]
  | moveFromHi {x : String} {d : Reg} (hd : RegisterToken x d) :
      Written (.moveFromHi d) ["mfhi", x]
  | moveFromLo {x : String} {d : Reg} (hd : RegisterToken x d) :
      Written (.moveFromLo d) ["mflo", x]
  | multiply {x y : String} {s t : Reg} (hs : RegisterToken x s) (ht : RegisterToken y t) :
      Written (.multiply s t) ["mul", x, y]
  | multiplyInto {x y z : String} {d s t : Reg} (hd : RegisterToken x d)
      (hs : RegisterToken y s) (ht : RegisterToken z t) :
      Written (.multiplyInto d s t) ["mul", x, y, z]
  | divide {x y z : String} {d s t : Reg} (hd : RegisterToken x d) (hs : RegisterToken y s)
      (ht : RegisterToken z t) : Written (.divide d s t) ["div", x, y, z]
  | arithmetic {x y z : String} {d s t : Reg} (op : ArithmeticOp) (hd : RegisterToken x d)
      (hs : RegisterToken y s) (ht : RegisterToken z t) :
      Written (.arithmetic op d s t) [op.spelling, x, y, z]
  | jump {x : String} {n : Nat} (hn : UnsignedToken x n) : Written (.jump n) ["j", x]
  | jumpAndLink {x : String} {n : Nat} (hn : UnsignedToken x n) :
      Written (.jumpAndLink n) ["jal", x]
  | branchBelow {x y : String} {s : Reg} {i : Int} (hs : RegisterToken x s)
      (hi : SignedToken y i) : Written (.branchBelow s i) ["bltz", x, y]
  | branchEqual {x y z : String} {s t : Reg} {i : Int} (hs : RegisterToken x s)
      (ht : RegisterToken y t) (hi : SignedToken z i) :
      Written (.branchEqual s t i) ["beq", x, y, z]
  | branchUnequal {x y z : String} {s t : Reg} {i : Int} (hs : RegisterToken x s)
      (ht : RegisterToken y t) (hi : SignedToken z i) :
      Written (.branchUnequal s t i) ["bne", x, y, z]
  | immediate {x y z : String} {t s : Reg} {i : Int} (op : ImmediateOp)
      (ht : RegisterToken x t) (hs : RegisterToken y s) (hi : SignedToken z i) :
      Written (.immediate op t s i) [op.spelling, x, y, z]
  | loadUpper {x y : String} {t : Reg} {i : Int} (ht : RegisterToken x t)
      (hi : SignedToken y i) : Written (.loadUpper t i) ["lui", x, y]
  | load {x y : String} {t s : Reg} {i : Int} (op : LoadOp) (ht : RegisterToken x t)
      (hplace : MemoryToken y i s) : Written (.load op t i s) [op.spelling, x, y]
  | store {x y : String} {t s : Reg} {i : Int} (op : StoreOp) (ht : RegisterToken x t)
      (hplace : MemoryToken y i s) :
      Written (.store op t i s) [op.spelling, x, y]

/-- The operation of a command. -/
def operation : Command → Operation
  | shift op .. => .register (.shift op)
  | jumpRegister _ => .register .jumpRegister
  | syscall => .register .syscall
  | moveFromHi _ => .register .moveFromHi
  | moveFromLo _ => .register .moveFromLo
  | multiply .. => .register .multiply
  | multiplyInto .. => .register .multiply
  | divide .. => .register .divide
  | arithmetic op .. => .register (.arithmetic op)
  | jump _ => .primary .jump
  | jumpAndLink _ => .primary .jumpAndLink
  | branchBelow .. => .primary (.branch .bltz)
  | branchEqual .. => .primary (.branch .beq)
  | branchUnequal .. => .primary (.branch .bne)
  | immediate op .. => .primary (.immediate op)
  | loadUpper .. => .primary .loadUpper
  | load op .. => .primary (.load op)
  | store op .. => .primary (.store op)

/-- The layout of a word with opcode zero. -/
def registerLayout (op : RegisterOp) (rs rt rd : Reg) (shamt : BitVec 5) : Layout :=
  .register rs rt rd shamt (BitVec.ofNat 6 op.functionCode)

/-- The layout of a word with two registers and a literal. -/
def immediateLayout (op : PrimaryOp) (rs rt : Reg) (value : Int) : Layout :=
  .immediate (BitVec.ofNat 6 op.opcode) rs rt (BitVec.ofInt 16 value)

/-- The layout of a word with a jump target. -/
def targetLayout (op : PrimaryOp) (value : Nat) : Layout :=
  .target (BitVec.ofNat 6 op.opcode) (BitVec.ofNat 26 value)

/-- The fields of the word of a command. -/
def layout : Command → Layout
  | shift op d t distance => registerLayout (.shift op) 0 t d (BitVec.ofNat 5 distance)
  | jumpRegister s => registerLayout .jumpRegister s 0 0 0
  | syscall => registerLayout .syscall 0 0 0 0
  | moveFromHi d => registerLayout .moveFromHi 0 0 d 0
  | moveFromLo d => registerLayout .moveFromLo 0 0 d 0
  | multiply s t => registerLayout .multiply s t 0 0
  | multiplyInto d s t => registerLayout .multiply s t d 0
  | divide d s t => registerLayout .divide s t d 0
  | arithmetic op d s t => registerLayout (.arithmetic op) s t d 0
  | jump target => targetLayout .jump target
  | jumpAndLink target => targetLayout .jumpAndLink target
  | branchBelow s offset => immediateLayout (.branch .bltz) s 0 offset
  | branchEqual s t offset => immediateLayout (.branch .beq) s t offset
  | branchUnequal s t offset => immediateLayout (.branch .bne) s t offset
  | immediate op t s value => immediateLayout (.immediate op) s t value
  | loadUpper t value => immediateLayout .loadUpper 0 t value
  | load op t offset s => immediateLayout (.load op) s t offset
  | store op t offset s => immediateLayout (.store op) s t offset

end Command

end MiniMips
