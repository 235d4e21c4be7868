/-!
# `MiniMips.Register`: register numbers and their names

The 32 general registers are numbered by five bits, so a register field of an
instruction always names a register. Each has one conventional name.

- `Reg.name` and `Reg.ofName?`: number to name and back.
- `Reg.v0`, `Reg.a0`, `Reg.sp`, `Reg.ra`: the registers that the machine itself refers
  to. `$zero` is not among them: it starts as zero like most others, and nothing protects
  it from a later write.
-/

set_option autoImplicit false

namespace MiniMips

/-- The number of a general register. -/
abbrev Reg := BitVec 5

namespace Reg

/-- The names in the order of the numbers. -/
def names : Vector String 32 :=
  #v["$zero", "$at", "$v0", "$v1", "$a0", "$a1", "$a2", "$a3",
     "$t0", "$t1", "$t2", "$t3", "$t4", "$t5", "$t6", "$t7",
     "$s0", "$s1", "$s2", "$s3", "$s4", "$s5", "$s6", "$s7",
     "$t8", "$t9", "$k0", "$k1", "$gp", "$sp", "$fp", "$ra"]

/-- Register numbers are below 32. -/
theorem toNat_lt (r : Reg) : r.toNat < 32 :=
  r.isLt

/-- The name of a register. -/
def name (r : Reg) : String :=
  have h := r.toNat_lt
  names[r.toNat]

/-- All registers in the order of their numbers. -/
def all : List Reg :=
  (List.range 32).map (BitVec.ofNat 5)

/-- The register of the given name. -/
def ofName? (name : String) : Option Reg :=
  all.find? (·.name == name)

/-- Selects the service of a system call. -/
def v0 : Reg := 2

/-- The argument of a system call. -/
def a0 : Reg := 4

/-- The stack pointer. -/
def sp : Reg := 29

/-- Receives the return address of a jump-and-link. -/
def ra : Reg := 31

end Reg

end MiniMips
