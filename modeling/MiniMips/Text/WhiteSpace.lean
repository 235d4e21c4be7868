import MiniMips.Text.CodeRange

/-!
# `MiniMips.Text.WhiteSpace`: the Unicode property White_Space

The 25 characters of the property: the ASCII controls tab to carriage return, the
space, and the separators of the later blocks. The zero-width characters U+180E,
U+200B and U+FEFF are not among them, nor are the ASCII separators U+001C to U+001F.
-/

set_option autoImplicit false

namespace MiniMips.Text

/-- The ranges of White_Space. -/
def whiteSpace : List CodeRange :=
  [⟨0x0009, 0x000D⟩, ⟨0x0020, 0x0020⟩, ⟨0x0085, 0x0085⟩, ⟨0x00A0, 0x00A0⟩, ⟨0x1680, 0x1680⟩,
   ⟨0x2000, 0x200A⟩, ⟨0x2028, 0x2029⟩, ⟨0x202F, 0x202F⟩, ⟨0x205F, 0x205F⟩, ⟨0x3000, 0x3000⟩]

/-- Whether `c` has the property White_Space. -/
def isWhiteSpace (c : Char) : Bool :=
  CodeRange.within whiteSpace c

end MiniMips.Text
