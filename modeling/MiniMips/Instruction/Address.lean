import MiniMips.Word

/-!
# `MiniMips.Instruction.Address`: the addresses that instructions compute

Loads and stores add an offset to a base register. Branches and jumps name words, and
their addresses are relative to the program counter after the fetch, so to the address
behind the instruction. All sums wrap.
-/

set_option autoImplicit false

namespace MiniMips

/-- The address of a load or store. -/
def effectiveAddress (base : Word) (offset : BitVec 16) : Word :=
  base + offset.signExtend 32

/-- The address of a taken branch, `offset` words from `pc`. -/
def branchTarget (pc : Word) (offset : BitVec 16) : Word :=
  pc + offset.signExtend 32 <<< 2

/-- The address of a jump: the word number `target` in the region of 2^28 bytes that
holds `pc + 4`. -/
def jumpTarget (pc : Word) (target : BitVec 26) : Word :=
  (pc + 4) &&& 0xF0000000 ||| target.setWidth 32 <<< 2

end MiniMips
