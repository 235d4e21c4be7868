import MiniMips.Fault
import MiniMips.Register

/-!
# `MiniMips.Registers`: the register values and their saved copy

The machine has 32 general registers, a program counter and the two result registers HI
and LO of multiplication and division. `Registers` holds their values. `RegisterFile`
adds at most one saved copy, against which the present values are compared.

- `RegisterName`: the 35 registers in the order in which they are shown.
- `Registers.get` and `Registers.set`: general registers by number.
- `RegisterFile.read` and `RegisterFile.write`: the same for any index, refused above 31.
- `RegisterFile.changedNames`: the registers that differ from the saved copy.
-/

set_option autoImplicit false

namespace MiniMips

open Text

/-- A register as the display of the machine names it. -/
inductive RegisterName where
  | pc
  | hi
  | lo
  | general (r : Reg)
deriving DecidableEq, Repr

namespace RegisterName

/-- All registers in the order in which they are shown. -/
def all : List RegisterName :=
  [pc, hi, lo] ++ Reg.all.map general

/-- The displayed name. -/
def text : RegisterName → String
  | pc => "PC"
  | hi => "HI"
  | lo => "LO"
  | general r => r.name

/-- The register with the given displayed name. -/
def ofText? (text : String) : Option RegisterName :=
  all.find? (·.text == text)

end RegisterName

/-- The values of all registers. -/
structure Registers where
  pc : Word
  hi : Word
  lo : Word
  general : Vector Word 32
deriving DecidableEq, Repr

namespace Registers

/-- The value of a general register. -/
def get (registers : Registers) (r : Reg) : Word :=
  have h := r.toNat_lt
  registers.general[r.toNat]

/-- The registers with the value of a general register replaced. No register is
protected. -/
def set (registers : Registers) (r : Reg) (value : Word) : Registers :=
  { registers with general := registers.general.set r.toNat value r.toNat_lt }

/-- The value of a displayed register. -/
def value (registers : Registers) : RegisterName → Word
  | .pc => registers.pc
  | .hi => registers.hi
  | .lo => registers.lo
  | .general r => registers.get r

/-- The value of the register with the given displayed name. -/
def valueOf? (registers : Registers) (name : String) : Option Word :=
  (RegisterName.ofText? name).map registers.value

/-- All registers with their values in hexadecimal digits. -/
def entries (registers : Registers) : List (String × String) :=
  RegisterName.all.map fun name => (name.text, hexDigits (registers.value name).toNat)

/-- The register that was set has the value. -/
theorem get_set_self (registers : Registers) (r : Reg) (value : Word) :
    (registers.set r value).get r = value := by
  simp [get, set]

/-- All other registers keep theirs. -/
theorem get_set_of_ne (registers : Registers) {r s : Reg} (value : Word) (h : r ≠ s) :
    (registers.set r value).get s = registers.get s := by
  have hne : r.toNat ≠ s.toNat := fun heq => h (BitVec.eq_of_toNat_eq heq)
  simp [get, set, hne]

end Registers

/-- The registers of a machine and the copy that was saved last. -/
structure RegisterFile extends Registers where
  saved : Option Registers
deriving DecidableEq, Repr

namespace RegisterFile

/-- Where the stack pointer starts: right behind the stack segment. -/
def stackPointerReset : Word :=
  0x80000000

/-- The general registers at the start. All are zero but the stack pointer. -/
def initialGeneral : Vector Word 32 :=
  (Vector.replicate 32 0).set Reg.sp.toNat stackPointerReset (by decide)

/-- The registers of a machine that starts at `pc`, with nothing saved. -/
def initial (pc : Word) : RegisterFile where
  pc := pc
  hi := 0
  lo := 0
  general := initialGeneral
  saved := none

/-- The registers with their starting values, at the present program counter. The saved
copy is dropped. -/
def reset (file : RegisterFile) : RegisterFile :=
  { file with hi := 0, lo := 0, general := initialGeneral, saved := none }

/-- The value of the general register with an index. -/
def read (file : RegisterFile) (index : Nat) : Except Fault Word :=
  if index < 32 then .ok (file.get (BitVec.ofNat 5 index))
  else .error (.invalidRegister index)

/-- The registers with the value of the general register with an index replaced. -/
def write (file : RegisterFile) (index : Nat) (value : Word) : Except Fault RegisterFile :=
  if index < 32 then
    .ok { file with toRegisters := file.set (BitVec.ofNat 5 index) value }
  else
    .error (.invalidRegister index)

/-- The registers with the present values saved. -/
def save (file : RegisterFile) : RegisterFile :=
  { file with saved := some file.toRegisters }

/-- Whether a register differs from its saved value. Without a saved copy every register
counts as changed. -/
def hasChanged (file : RegisterFile) (name : RegisterName) : Bool :=
  match file.saved with
  | none => true
  | some saved => file.value name != saved.value name

/-- `hasChanged` for the register with the given displayed name. -/
def changed? (file : RegisterFile) (name : String) : Option Bool :=
  (RegisterName.ofText? name).map file.hasChanged

/-- The displayed names of the registers that have changed, in the order in which they
are shown. -/
def changedNames (file : RegisterFile) : List String :=
  (RegisterName.all.filter file.hasChanged).map RegisterName.text

end RegisterFile

end MiniMips
