import MiniMips.Fault
import MiniMips.Memory.Bank

/-!
# `MiniMips.Memory.Segment`: which addresses exist

Three segments of one bank each lie far apart in the address space. The upper twelve bits
of an address select the segment and the lower twenty are the offset in its bank.

- `Place.ofAddress`: the place of an address, or the fault that it is unmapped.
- `Place.ofAccess`: the same for an access of some bytes, which must end in the segment
  in which it starts.
-/

set_option autoImplicit false

namespace MiniMips

/-- A segment of the address space. -/
inductive Segment where
  | program
  | data
  | stack
deriving DecidableEq, Repr

namespace Segment

/-- All segments in ascending order. -/
def all : List Segment :=
  [program, data, stack]

/-- Number of bytes in a segment. -/
def size : Nat :=
  Bank.size

/-- The upper bits that all addresses of the segment share. -/
def selector : Segment → Nat
  | program => 0x004
  | data => 0x100
  | stack => 0x7FF

/-- The lowest address of the segment. -/
def base (segment : Segment) : Word :=
  BitVec.ofNat 32 (segment.selector * size)

/-- The segment with the given upper bits. -/
def ofSelector? (selector : Nat) : Option Segment :=
  all.find? (·.selector == selector)

end Segment

/-- A byte of a segment. -/
structure Place where
  segment : Segment
  offset : Nat
deriving DecidableEq, Repr

namespace Place

/-- The place of an address. -/
def ofAddress (address : Word) : Except Fault Place :=
  match Segment.ofSelector? (address.toNat / Segment.size) with
  | some segment => .ok ⟨segment, address.toNat % Segment.size⟩
  | none => .error (.unmappedAddress address)

/-- The place where an access starts. An unmapped address is refused first, then an
access that leaves the segment. -/
def ofAccess (address : Word) (size : AccessSize) : Except Fault Place :=
  match ofAddress address with
  | .error fault => .error fault
  | .ok place =>
    if place.offset + size.bytes ≤ Segment.size then .ok place
    else .error (.segmentOverrun address size.bytes)

end Place

end MiniMips
