import MiniMips.Disassembly
import MiniMips.Memory.View

/-!
# `MiniMips.Listing`: a range of memory as assembly text

The listing of a range has one row for each word of the range that can be read.
-/

set_option autoImplicit false

namespace MiniMips

/-- A row of a listing: a word, where it lies and what it says. -/
structure ListingRow where
  address : Word
  word : Word
  text : String
deriving DecidableEq, Repr

/-- The row of a view item, if its word can be read. -/
def ViewItem.row? (item : ViewItem) : Option ListingRow :=
  match item.content with
  | .ok word => some ⟨item.address, word, disassemble word⟩
  | .error _ => none

/-- The rows from `first` to `last`, both included. -/
def disassembleRange (memory : Memory) (first last : Word) : Array ListingRow :=
  let view := memory.view first last
  view.fold (fun rows item => item.row?.elim rows rows.push) view.length #[]

end MiniMips
