import MiniMips.Word

/-!
# `MiniMips.Machine.Service`: the services of a system call

A system call takes the number of its service from one register and an argument from
another. Three numbers have a service; the others are ignored requests.
-/

set_option autoImplicit false

namespace MiniMips

/-- A service of the machine for its program. -/
inductive Service where
  | printInteger
  | exit
  | printCharacter
deriving DecidableEq, Repr

namespace Service

/-- All services in the order of their numbers. -/
def all : List Service :=
  [printInteger, exit, printCharacter]

/-- The number that requests a service. -/
def number : Service → Nat
  | printInteger => 1
  | exit => 10
  | printCharacter => 11

/-- The service with the given number. -/
def ofNumber? (number : Nat) : Option Service :=
  all.find? (·.number == number)

end Service

/-- The character whose code is the low half of `value`. Codes from U+D800 to U+DFFF are
no characters and give U+FFFD. -/
def characterOf (value : Word) : Char :=
  let code := value.toNat % 0x10000
  if 0xD800 ≤ code ∧ code ≤ 0xDFFF then '\uFFFD' else Char.ofNat code

end MiniMips
