import MiniMips.Proofs.Assembly.RoundTrip

/-!
# `MiniMips.Proofs.Assembly.Spelling`: the one spelling of an assembled line

Many lines are assembled to one word. Their authors separate the tokens in different ways,
call `$t7` by its other name, and write a number in any base, with leading zeros and far
beyond the width of its field. The disassembler knows nothing of the author and writes one
of these lines. `Command.spelling` says which: the tokens of the author in their order, each
replaced by the one spelling of what it means.

The grammar ties the two together. A token list writes a command (`Command.Written`), and the
word of the line holds the fields of that command, so the text of the word can be read off
the command,

    disassemble c.word = " ".intercalate c.spelling

for every command `c`. The theorems:

* `Instruction.text_of_holds`: the text of fields that hold a command.
* `Command.disassemble_word`: so the text of the word of a command.
* `disassemble_encode`: the text of an assembled line, and lines that are their own text.
-/

set_option autoImplicit false

namespace MiniMips

open Text

/-! ### The spelling of a command -/

/-- A literal of sixteen bits: the number from `-2 ^ 15` up to `2 ^ 15` that differs from the
literal of the author by a multiple of `2 ^ 16`. -/
def immediateText (z : Int) : String :=
  signedDecimal (z.bmod (2 ^ 16))

/-- An offset with its base register. -/
def placeText (z : Int) (s : Reg) : String :=
  immediateText z ++ "(" ++ s.spelling ++ ")"

/-- The tokens of a command in their one spelling. A register has its first name, a distance
is below 32 and in decimal, a target is below `2 ^ 26` and in hexadecimal. A product without
a destination gets one that it does not write. -/
def Command.spelling : Command → List String
  | shift op d t distance => [op.spelling, d.spelling, t.spelling, decimal (distance % 32)]
  | jumpRegister s => ["jr", s.spelling]
  | syscall => ["syscall"]
  | moveFromHi d => ["mfhi", d.spelling]
  | moveFromLo d => ["mflo", d.spelling]
  | multiply s t => ["mul", "$zero", s.spelling, t.spelling]
  | multiplyInto d s t => ["mul", d.spelling, s.spelling, t.spelling]
  | divide d s t => ["div", d.spelling, s.spelling, t.spelling]
  | arithmetic op d s t => [op.spelling, d.spelling, s.spelling, t.spelling]
  | jump target => ["j", hex (target % 2 ^ 26)]
  | jumpAndLink target => ["jal", hex (target % 2 ^ 26)]
  | branchBelow s offset => ["bltz", s.spelling, immediateText offset]
  | branchEqual s t offset => ["beq", s.spelling, t.spelling, immediateText offset]
  | branchUnequal s t offset => ["bne", s.spelling, t.spelling, immediateText offset]
  | immediate op t s value => [op.spelling, t.spelling, s.spelling, immediateText value]
  | loadUpper t value => ["lui", t.spelling, immediateText value]
  | load op t offset s => [op.spelling, t.spelling, placeText offset s]
  | store op t offset s => [op.spelling, t.spelling, placeText offset s]

/-! ### The text of a command -/

/-- A product that is written without a destination has the fields of one into `$zero`. -/
theorem Reg.spelling_zero : Reg.spelling 0#5 = "$zero" := rfl

/-- The operands of a command as they are written from its fields. -/
theorem Command.text_operands {c : Command} {fields : Fields} (h : c.layout.Holds fields) :
    c.operation.mnemonic :: c.operation.operands.map (·.text fields) = c.spelling := by
  rw [Operation.mnemonic_eq_spelling]
  -- One case for each format: the format says which fields have which values.
  cases c with
  | jump | jumpAndLink =>
    obtain ⟨-, htarget⟩ := h
    simp [spelling, operation, Operation.spelling, Operation.operands, PrimaryOp.operands,
      Slot.text, htarget]
  | branchBelow | branchEqual | branchUnequal | immediate | loadUpper | load | store =>
    obtain ⟨-, hs, ht, hvalue⟩ := h
    simp [spelling, immediateText, placeText, operation, Operation.spelling,
      Operation.operands, PrimaryOp.operands, BranchOp.operands, Slot.text,
      Reg.name_eq_spelling, hs, ht, hvalue]
  | _ =>
    obtain ⟨-, hs, ht, hd, hdistance, -⟩ := h
    simp [spelling, operation, Operation.spelling, Operation.operands, RegisterOp.operands,
      Slot.text, Reg.name_eq_spelling, Reg.spelling_zero, hs, ht, hd, hdistance]

/-- The word of a command is written in the spelling of the command. -/
theorem Command.disassemble_word (c : Command) :
    disassemble c.word = " ".intercalate c.spelling := by
  have hdecode := decode_of_operation? (Command.operation?_of_holds c.holds_word)
  rw [disassemble, hdecode]
  show " ".intercalate (c.operation.mnemonic
    :: c.operation.operands.map (·.text (Fields.ofWord c.word))) = _
  rw [Command.text_operands c.holds_word]

/-- The spelling of a command is assembled, and to a word with the same text. -/
theorem Command.exists_encode_spelling (c : Command) :
    ∃ word, encode (" ".intercalate c.spelling) = .ok word
      ∧ disassemble word = " ".intercalate c.spelling := by
  have hdecode := decode_of_operation? (Command.operation?_of_holds c.holds_word)
  have hencode := encode_disassemble_of_decode hdecode
  have htext := disassemble_canonical c.word
  rw [c.disassemble_word] at hencode htext
  exact ⟨canonical c.word, hencode, htext⟩

/-- Disassembling an assembled line gives the one spelling of the line: its tokens write a
command, and the text of its word is the spelling of this command, with single spaces. So a
line that is the spelling of a command already is assembled to a word with the line for its
text. -/
theorem disassemble_encode :
    (∀ (line : String) (word : Word), encode line = .ok word →
        (∃ c : Command, c.Written (tokens line))
          ∧ ∀ c : Command, c.Written (tokens line) →
            disassemble word = " ".intercalate c.spelling)
      ∧ ∀ c : Command, ∃ word, encode (" ".intercalate c.spelling) = .ok word
        ∧ disassemble word = " ".intercalate c.spelling := by
  constructor
  · intro line word hword
    refine ⟨written_of_encode hword, ?_⟩
    intro c hc
    -- A line has one word, so it is the word of every command that the tokens write.
    rw [encode_of_written hc] at hword
    cases hword
    exact c.disassemble_word
  · intro c
    exact c.exists_encode_spelling

/-- A product without a destination, with the other name of `$t7`, and a load whose offset
leaves its field. -/
theorem disassemble_encode_mul_lw :
    encode "MUL $g7,$a0" = .ok 0x01E40018
      ∧ (Command.multiply 15 4).Written (tokens "MUL $g7,$a0")
      ∧ disassemble 0x01E40018 = " ".intercalate ["mul", "$zero", "$t7", "$a0"]
      ∧ encode "lw $t0 0xFFFF($sp)" = .ok 0x8FA8FFFF
      ∧ (Command.load .lw 8 65535 29).Written (tokens "lw $t0 0xFFFF($sp)")
      ∧ disassemble 0x8FA8FFFF = " ".intercalate ["lw", "$t0", "-1($sp)"] := by
  have hmul : encode "MUL $g7,$a0" = .ok 0x01E40018 := by decide +kernel
  have hmulTokens : tokens "MUL $g7,$a0" = ["mul", "$g7", "$a0"] := by decide +kernel
  have hmulWritten : (Command.multiply 15 4).Written (tokens "MUL $g7,$a0") := by
    rw [hmulTokens]
    exact .multiply .g7 (.name 4)
  have hlw : encode "lw $t0 0xFFFF($sp)" = .ok 0x8FA8FFFF := by decide +kernel
  have hlwTokens : tokens "lw $t0 0xFFFF($sp)" = ["lw", "$t0", "0xffff($sp)"] := by
    decide +kernel
  have hdigits : ['f', 'f', 'f', 'f'].all isHexDigit := by decide
  -- The offset is beyond its field, so that the text names another one.
  have hoffset : SignedToken "0xffff" 65535 :=
    .plain (.hexadecimal (by decide) (List.all_eq_true.mp hdigits) (by decide))
  have hlwWritten : (Command.load .lw 8 65535 29).Written (tokens "lw $t0 0xFFFF($sp)") := by
    rw [hlwTokens]
    exact .load .lw (.name 8) (.place hoffset (.name 29))
  exact ⟨hmul, hmulWritten, (disassemble_encode.1 _ _ hmul).2 _ hmulWritten,
    hlw, hlwWritten, (disassemble_encode.1 _ _ hlw).2 _ hlwWritten⟩

end MiniMips
