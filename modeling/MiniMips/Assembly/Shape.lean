import MiniMips.Text.Numeral

/-!
# `MiniMips.Assembly.Shape`: what operand tokens look like

The shape of a token is a matter of its characters alone. A token may have the right
shape and still name no register or no value.

- `Shape.accepts`: whether a token has a shape.
- `splitMemory?`: the offset and the base register of a memory operand.
-/

set_option autoImplicit false

namespace MiniMips

open Text

/-- The shapes of operand tokens. -/
inductive Shape where
  /-- `$` and at least one letter, digit or underscore. -/
  | register
  /-- At least one hexadecimal digit, after an optional `0x`. -/
  | unsigned
  /-- The unsigned shape after an optional `-`. -/
  | signed
  /-- The signed shape and, in parentheses, the register shape. -/
  | memory
deriving DecidableEq, Repr

/-- The letters, digits and underscore of ASCII. -/
def isWordChar (c : Char) : Bool :=
  c.isAlphanum || c == '_'

/-- The text without a leading `0x`. -/
def dropHexMark : List Char → List Char
  | '0' :: 'x' :: digits => digits
  | digits => digits

/-- The text without a leading `-`. -/
def dropMinus : List Char → List Char
  | '-' :: rest => rest
  | rest => rest

/-- Whether the characters have the register shape. -/
def isRegisterToken : List Char → Bool
  | '$' :: name => !name.isEmpty && name.all isWordChar
  | _ => false

/-- Whether the characters have the unsigned shape. -/
def isUnsignedToken (token : List Char) : Bool :=
  !(dropHexMark token).isEmpty && (dropHexMark token).all isHexDigit

/-- Whether the characters have the signed shape. -/
def isSignedToken (token : List Char) : Bool :=
  isUnsignedToken (dropMinus token)

/-- The parts of a memory operand: what stands before the first parenthesis, and what
stands between it and a closing one at the end. -/
def splitMemoryChars? (token : List Char) : Option (List Char × List Char) :=
  let offset := token.takeWhile (· != '(')
  let base := (token.dropWhile (· != '(')).drop 1
  if base.getLast? = some ')' ∧ isSignedToken offset ∧ isRegisterToken base.dropLast then
    some (offset, base.dropLast)
  else
    none

/-- The offset and the base register of a memory operand. -/
def splitMemory? (token : String) : Option (String × String) :=
  (splitMemoryChars? token.toList).map fun (offset, base) =>
    (String.ofList offset, String.ofList base)

namespace Shape

/-- All shapes. -/
def all : List Shape :=
  [register, unsigned, signed, memory]

/-- Whether a token has the shape. -/
def accepts (shape : Shape) (token : String) : Bool :=
  match shape with
  | register => isRegisterToken token.toList
  | unsigned => isUnsignedToken token.toList
  | signed => isSignedToken token.toList
  | memory => (splitMemory? token).isSome

end Shape

end MiniMips
