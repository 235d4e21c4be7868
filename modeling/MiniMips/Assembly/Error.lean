import MiniMips.Text.Numeral

/-!
# `MiniMips.Assembly.Error`: why text cannot be assembled

`EncodeError` is the cause for a line, with the offending token. `ProgramError` adds the
number of the line in a program. The message of each quotes the token.
-/

set_option autoImplicit false

namespace MiniMips

open Text

/-- Why a line cannot be encoded. -/
inductive EncodeError where
  /-- The first token names no operation. -/
  | unknownMnemonic (token : String)
  /-- A register operand names no register. -/
  | unknownRegister (token : String)
  /-- A numeric operand has no value. -/
  | invalidLiteral (token : String)
  /-- The operands have none of the forms of the operation. -/
  | noMatchingForm (mnemonic : String)
deriving DecidableEq, Repr

namespace EncodeError

/-- The token that the error is about. -/
def detail : EncodeError → String
  | unknownMnemonic token => token
  | unknownRegister token => token
  | invalidLiteral token => token
  | noMatchingForm mnemonic => mnemonic

/-- The token between the quotation marks of a message. -/
def quoted (token : String) : String :=
  "`" ++ token ++ "`"

/-- The report of the error. -/
def message : EncodeError → String
  | unknownMnemonic token => "unknown mnemonic " ++ quoted token
  | unknownRegister token => "unknown register " ++ quoted token
  | invalidLiteral token => "invalid literal " ++ quoted token
  | noMatchingForm mnemonic => "operands do not match any form of " ++ quoted mnemonic

end EncodeError

/-- Why a program cannot be assembled: its first line with an error. Lines count from
one. -/
structure ProgramError where
  line : Nat
  error : EncodeError
deriving DecidableEq, Repr

/-- The report of the error. -/
def ProgramError.message (error : ProgramError) : String :=
  "line " ++ decimal error.line ++ ": " ++ error.error.message

end MiniMips
