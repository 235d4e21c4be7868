import MiniMips.Assembly.Encode

/-!
# `MiniMips.Assembly.Program`: programs of many lines

Each line of a program holds one instruction. What follows a `#` is a comment, and a line
with nothing before the comment but white space holds none.

- `sourceLines`: the lines that hold an instruction, with their numbers.
- `assembleProgram`: their words, or the error of the first line that has one.
-/

set_option autoImplicit false

namespace MiniMips

open Text

/-- The part of a line before its comment. -/
def withoutComment (line : List Char) : List Char :=
  line.takeWhile (· != '#')

/-- The lines of a program that are not blank, without comments and with their numbers,
which count from one. -/
def sourceLines (source : String) : List (Nat × String) :=
  let lines := (source.toList.splitOn '\n').map withoutComment
  (lines.zipIdx 1).filterMap fun (line, number) =>
    if line.all isWhiteSpace then none else some (number, String.ofList line)

/-- The word of a numbered line. -/
def encodeLine (number : Nat) (line : String) : Except ProgramError Word :=
  (encode line).mapError fun error => ⟨number, error⟩

/-- The words of a program. -/
def assembleProgram (source : String) : Except ProgramError (List Word) :=
  (sourceLines source).mapM fun (number, line) => encodeLine number line

end MiniMips
