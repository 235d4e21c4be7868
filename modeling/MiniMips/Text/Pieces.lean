/-!
# `MiniMips.Text.Pieces`: the pieces between separators

`pieces p cs` lists the maximal runs of characters that do not satisfy `p`, in order.
`joinSpaced` puts single spaces between pieces.
-/

set_option autoImplicit false

namespace MiniMips.Text

/-- The nonempty runs between characters that satisfy `p`. -/
def pieces (p : Char → Bool) (cs : List Char) : List (List Char) :=
  (cs.splitOnP p).filter (!·.isEmpty)

/-- The pieces in order with one space between each two. -/
def joinSpaced (cs : List (List Char)) : List Char :=
  [' '].intercalate cs

end MiniMips.Text
