import MiniMips.Text.Numeral

/-!
# `MiniMips.Assembly.Literal`: the values of numeric tokens

A literal is decimal, or hexadecimal after `0x`, with an optional `-` in front. Its body
must fit 64 signed bits. Hexadecimal letters without `0x` make no literal.

- `literal?`: the value of a token.
-/

set_option autoImplicit false

namespace MiniMips

open Text

/-- `value` if it fits 64 signed bits. -/
def signed64? (value : Int) : Option Int :=
  if -0x8000000000000000 ≤ value ∧ value < 0x8000000000000000 then some value else none

/-- The value of hexadecimal digits behind `0x`. They may have a sign of their own. -/
def hexBody? : List Char → Option Int
  | '+' :: digits => (natOfDigits? 16 digits).bind fun n => signed64? n
  | '-' :: digits => (natOfDigits? 16 digits).bind fun n => signed64? (-n)
  | digits => (natOfDigits? 16 digits).bind fun n => signed64? n

/-- The value of a literal without its leading `-`. -/
def literalBody? : List Char → Option Int
  | '0' :: 'x' :: digits => hexBody? digits
  | digits => (natOfDigits? 10 digits).bind fun n => signed64? n

/-- The value of a literal. -/
def literalChars? : List Char → Option Int
  | '-' :: body => (literalBody? body).map fun value => -value
  | body => literalBody? body

/-- The value of a token. -/
def literal? (token : String) : Option Int :=
  literalChars? token.toList

end MiniMips
