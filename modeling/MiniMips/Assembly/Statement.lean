import MiniMips.Text.Lowercase
import MiniMips.Text.Pieces
import MiniMips.Text.WhiteSpace

/-!
# `MiniMips.Assembly.Statement`: a line and its tokens

A line of assembly text is a mnemonic and its operands. Commas and white space separate
them, and case does not matter.

- `normalize`: the line in lowercase, with single spaces for the separators.
- `Statement.ofNormalized?`: the tokens of a normalized line.
-/

set_option autoImplicit false

namespace MiniMips

open Text

/-- Commas and white space. -/
def isSeparator (c : Char) : Bool :=
  c == ',' || isWhiteSpace c

/-- The line in lowercase with one space for each run of separators, and none at the
ends. -/
def normalize (line : String) : String :=
  String.ofList (lowercase (joinSpaced (pieces isSeparator line.toList)))

/-- A mnemonic and its operands, as tokens. -/
structure Statement where
  mnemonic : String
  operands : List String
deriving DecidableEq, Repr

/-- The tokens between the spaces of a line, or `none` for a line without tokens. -/
def Statement.ofNormalized? (line : String) : Option Statement :=
  match (pieces (· == ' ') line.toList).map String.ofList with
  | [] => none
  | mnemonic :: operands => some ⟨mnemonic, operands⟩

end MiniMips
