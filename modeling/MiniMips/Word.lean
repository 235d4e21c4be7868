/-!
# `MiniMips.Word`: bytes, words and access sizes

The machine computes on 32-bit words and stores 8-bit bytes. Both are bit vectors, so
arithmetic on them wraps by itself. `AccessSize` lists the three widths of a memory
access.
-/

set_option autoImplicit false

namespace MiniMips

/-- A byte of memory. -/
abbrev Byte := BitVec 8

/-- A machine word: a register value, an address or an instruction. -/
abbrev Word := BitVec 32

/-- The width of a memory access. -/
inductive AccessSize where
  | byte
  | halfWord
  | word
deriving DecidableEq, Repr

namespace AccessSize

/-- Number of bytes in an access. -/
def bytes : AccessSize → Nat
  | byte => 1
  | halfWord => 2
  | word => 4

/-- All widths, the narrowest first. -/
def all : List AccessSize :=
  [byte, halfWord, word]

end AccessSize

end MiniMips
