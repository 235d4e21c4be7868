import MiniMips.Memory.BigEndian
import MiniMips.Memory.Segment

/-!
# `MiniMips.Memory.Basic`: the memory of the machine

Memory is one bank for each segment. Accesses of one, two or four bytes are big-endian
and need no alignment.

- `Memory.read` and `Memory.write`: an access by address. A refused write changes
  nothing.
- `Memory.loadWords`: consecutive words, as far as they fit.
- `Memory.nonzeroWords`: the contents, without the zeros.
-/

set_option autoImplicit false

namespace MiniMips

open Text

/-- The contents of all segments. -/
structure Memory where
  program : Bank
  data : Bank
  stack : Bank
deriving DecidableEq

namespace Memory

/-- The memory in which every byte is zero. -/
def zeros : Memory where
  program := .zeros
  data := .zeros
  stack := .zeros

/-- The bank of a segment. -/
def bank (memory : Memory) : Segment → Bank
  | .program => memory.program
  | .data => memory.data
  | .stack => memory.stack

/-- The memory with the bank of a segment replaced. -/
def setBank (memory : Memory) (segment : Segment) (bank : Bank) : Memory :=
  match segment with
  | .program => { memory with program := bank }
  | .data => { memory with data := bank }
  | .stack => { memory with stack := bank }

/-- The word of an access at a place. -/
def get (memory : Memory) (place : Place) (size : AccessSize) : Word :=
  BitVec.ofNat 32 (BigEndian.read (memory.bank place.segment) place.offset size.bytes)

/-- The memory after the low bytes of a word are written at a place. -/
def set (memory : Memory) (place : Place) (size : AccessSize) (value : Word) : Memory :=
  memory.setBank place.segment
    (BigEndian.write (memory.bank place.segment) place.offset size.bytes value.toNat)

/-- The word of an access. -/
def read (memory : Memory) (address : Word) (size : AccessSize) : Except Fault Word :=
  match Place.ofAccess address size with
  | .ok place => .ok (memory.get place size)
  | .error fault => .error fault

/-- The memory after an access that writes the low bytes of a word. -/
def write (memory : Memory) (address : Word) (size : AccessSize) (value : Word) :
    Except Fault Memory :=
  match Place.ofAccess address size with
  | .ok place => .ok (memory.set place size value)
  | .error fault => .error fault

/-- Writes words at consecutive addresses. The first refused word ends the loading, and
the words before it stay written. -/
def loadWords (memory : Memory) (address : Word) : List Word → Memory × Except Fault Unit
  | [] => (memory, .ok ())
  | word :: words =>
    match memory.write address .word word with
    | .ok written => written.loadWords (address + 4) words
    | .error fault => (memory, .error fault)

/-- The aligned words that are not zero, with their addresses, in ascending order. -/
def nonzeroWords (memory : Memory) : List (Word × Word) :=
  Segment.all.flatMap fun segment =>
    (memory.bank segment).nonzeroGroups.map fun offset =>
      (segment.base + BitVec.ofNat 32 offset, memory.get ⟨segment, offset⟩ .word)

/-- The sizes of the segments as one line of text. -/
def summary (_ : Memory) : String :=
  "Memory \x7b program_bytes: " ++ decimal Segment.size
    ++ ", data_bytes: " ++ decimal Segment.size
    ++ ", stack_bytes: " ++ decimal Segment.size ++ " \x7d"

end Memory

end MiniMips
