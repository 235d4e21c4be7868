/-!
# `MiniMips.Text.CodeRange`: sets of characters as ranges of code points

A character property is a list of ranges in ascending order, none of which touches the
next. `CodeRange.within` is membership.
-/

set_option autoImplicit false

namespace MiniMips.Text

/-- The code points from `first` to `last`, both included. -/
structure CodeRange where
  first : Nat
  last : Nat
deriving DecidableEq, Repr

namespace CodeRange

/-- Whether the code point of `c` lies in the range. -/
def contains (range : CodeRange) (c : Char) : Bool :=
  range.first ≤ c.toNat && c.toNat ≤ range.last

/-- Whether `c` lies in one of the ranges. -/
def within (ranges : List CodeRange) (c : Char) : Bool :=
  ranges.any (·.contains c)

/-- A character is in none of the ranges when each lies before it or behind it. -/
theorem within_eq_false {ranges : List CodeRange} {c : Char}
    (h : ∀ range ∈ ranges, c.toNat < range.first ∨ range.last < c.toNat) :
    within ranges c = false := by
  refine List.any_eq_false.mpr fun range hrange hcontains => ?_
  have hapart := h range hrange
  simp only [contains, Bool.and_eq_true, decide_eq_true_eq] at hcontains
  omega

end CodeRange

end MiniMips.Text
