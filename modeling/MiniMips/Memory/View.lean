import MiniMips.Memory.Basic

/-!
# `MiniMips.Memory.View`: the words of a range, one after the other

A view walks from a first address up to a last one in steps of four bytes. Each item is
an address and the result of reading a word there, so unmapped addresses are items too.
The cursor is a number and not a word: it passes the last address even at the end of the
address space.

- `View.next?`: the next item and the rest of the view.
- `View.fold` and `View.take`: the first items, as many as asked for.
- `View.length`: how many items there are.
-/

set_option autoImplicit false

namespace MiniMips

/-- A walk over the words of a range of addresses. -/
structure View where
  memory : Memory
  /-- The address of the next item. -/
  cursor : Nat
  /-- No item lies beyond this address. -/
  last : Nat

/-- One step of a view. -/
structure ViewItem where
  address : Word
  content : Except Fault Word

/-- The view from `first` to `last`, both included. -/
def Memory.view (memory : Memory) (first last : Word) : View :=
  ⟨memory, first.toNat, last.toNat⟩

namespace View

/-- The item at the cursor and the view behind it, as long as the cursor is in range. -/
def next? (view : View) : Option (ViewItem × View) :=
  if view.cursor ≤ view.last then
    let address := BitVec.ofNat 32 view.cursor
    some (⟨address, view.memory.read address .word⟩, { view with cursor := view.cursor + 4 })
  else
    none

/-- Combines at most `limit` items of the view with `init`, the first item first. -/
def fold {β : Type} (f : β → ViewItem → β) : (limit : Nat) → (init : β) → View → β
  | 0, init, _ => init
  | limit + 1, init, view =>
    match view.next? with
    | none => init
    | some (item, rest) => fold f limit (f init item) rest

/-- The first items of the view, at most `limit` of them. -/
def take (view : View) (limit : Nat) : Array ViewItem :=
  view.fold Array.push limit #[]

/-- Number of items. -/
def length (view : View) : Nat :=
  (view.last + 4 - view.cursor) / 4

/-- All items of the view. -/
def toArray (view : View) : Array ViewItem :=
  view.take view.length

end View

end MiniMips
