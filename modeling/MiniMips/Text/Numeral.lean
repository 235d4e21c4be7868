/-!
# `MiniMips.Text.Numeral`: numbers as digits

Writing and reading numbers in bases up to sixteen. Digits above nine are written as
the letters `a` to `f`; they are read in either case.

- `decimal`, `signedDecimal`, `hexDigits`, `hex`, `hexPadded`: number to text.
- `natOfDigits?`: a nonempty list of digits to its value.
-/

set_option autoImplicit false

namespace MiniMips.Text

/-- The decimal digits of `n`, without leading zeros. -/
def decimal (n : Nat) : String :=
  String.ofList (Nat.toDigits 10 n)

/-- The decimal digits of the magnitude of `z`, after a `-` when `z` is negative. -/
def signedDecimal (z : Int) : String :=
  if z < 0 then "-" ++ decimal z.natAbs else decimal z.natAbs

/-- The hexadecimal digits of `n`, without leading zeros. -/
def hexDigits (n : Nat) : String :=
  String.ofList (Nat.toDigits 16 n)

/-- `0x` and the hexadecimal digits of `n`, without leading zeros. -/
def hex (n : Nat) : String :=
  "0x" ++ hexDigits n

/-- `0x` and the hexadecimal digits of `n`, with leading zeros up to `width` digits. -/
def hexPadded (width n : Nat) : String :=
  "0x" ++ String.ofList ((Nat.toDigits 16 n).leftpad width '0')

/-- Decimal digits and the letters `a` to `f`, in either case. -/
def isHexDigit (c : Char) : Bool :=
  c.isDigit || ('a' ≤ c && c ≤ 'f') || ('A' ≤ c && c ≤ 'F')

/-- The value of a hexadecimal digit. -/
def digitValue (c : Char) : Nat :=
  if c.isDigit then c.toNat - '0'.toNat
  else if 'a' ≤ c then c.toNat - 'a'.toNat + 10
  else c.toNat - 'A'.toNat + 10

/-- Whether `c` is a digit in the given base, which is at most sixteen. -/
def isDigitIn (base : Nat) (c : Char) : Bool :=
  isHexDigit c && digitValue c < base

/-- The number that `digits` writes, the most significant digit first. -/
def natOfDigits (base : Nat) (digits : List Char) : Nat :=
  digits.foldl (fun value c => value * base + digitValue c) 0

/-- `natOfDigits` for a nonempty list of digits of the base, and `none` for any other
text. -/
def natOfDigits? (base : Nat) (digits : List Char) : Option Nat :=
  if !digits.isEmpty && digits.all (isDigitIn base) then
    some (natOfDigits base digits)
  else
    none

end MiniMips.Text
