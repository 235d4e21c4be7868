import MiniMips.Proofs.Assembly.Encode
import MiniMips.Proofs.Instruction.Canonical

/-!
# `MiniMips.Proofs.Assembly.RoundTrip`: assembling the text of a word

The texts that the disassembler writes are tokens of the grammar, so the assembler reads
them back. The theorems:

* `unsignedToken_decimal`, `unsignedToken_hex`, `signedToken_signedDecimal`: a written
  number is read as the number.
* `Slot.isToken_text`: the text of an operand is a token as it stands.
* `Instruction.written`: the texts of an instruction write its command.
* `Operation.operands_mem_forms`, `Instruction.form?_text`: the disassembler writes one of the
  forms of the assembler, and this form is found again.
* `encode_disassemble`: so the text of a word is assembled to the canonical word, and the
  text of a word without an operation is refused.
-/

set_option autoImplicit false

namespace MiniMips

open Text

/-! ### Written numbers are read back -/

/-- A number in decimal is a token for the number, if it fits 63 bits. -/
theorem unsignedToken_decimal {n : Nat} (h : n < 2 ^ 63) : UnsignedToken (decimal n) n := by
  have hvalue : natOfDigits 10 (Nat.toDigits 10 n) = n :=
    natOfDigits_toDigits (by decide) (by decide) n
  have hvalid : ∀ c ∈ Nat.toDigits 10 n, c.isDigit := fun c hc => by
    rw [← isDigitIn_ten]
    exact isDigitIn_of_mem_toDigits (by decide) (by decide) n c hc
  have htoken := UnsignedToken.decimal Nat.toDigits_ne_nil hvalid (by rw [hvalue]; exact h)
  rw [hvalue] at htoken
  exact htoken

/-- A number in hexadecimal is a token for the number, within the same bound. -/
theorem unsignedToken_hex {n : Nat} (h : n < 2 ^ 63) : UnsignedToken (hex n) n := by
  have hvalue : natOfDigits 16 (Nat.toDigits 16 n) = n :=
    natOfDigits_toDigits (by decide) (by decide) n
  have hvalid : ∀ c ∈ Nat.toDigits 16 n, isHexDigit c := fun c hc => by
    rw [← isDigitIn_sixteen]
    exact isDigitIn_of_mem_toDigits (by decide) (by decide) n c hc
  have htoken := UnsignedToken.hexadecimal Nat.toDigits_ne_nil hvalid (by rw [hvalue]; exact h)
  rw [hvalue] at htoken
  exact htoken

/-- An integer with its sign is a token for the integer, if its magnitude fits. -/
theorem signedToken_signedDecimal {z : Int} (h : z.natAbs < 2 ^ 63) :
    SignedToken (signedDecimal z) z := by
  have hbody := unsignedToken_decimal h
  unfold signedDecimal
  split
  · rename_i hneg
    -- The digits are those of the magnitude, here behind a minus.
    have htoken := SignedToken.minus hbody
    rwa [show -(z.natAbs : Int) = z by omega] at htoken
  · rename_i hpos
    have htoken := SignedToken.plain hbody
    rwa [show (z.natAbs : Int) = z by omega] at htoken

/-! ### The texts of operands are tokens -/

/-- Digits are written in characters of tokens. -/
private theorem isToken_digitChar : ∀ d < 16, IsToken (String.singleton d.digitChar) := by
  decide

/-- A written number is a token. -/
private theorem isToken_toDigits {base : Nat} (hlow : 1 < base) (hhigh : base ≤ 16) (n : Nat) :
    IsToken (String.ofList (Nat.toDigits base n)) := by
  refine ⟨by simp, ?_⟩
  rw [String.toList_ofList, List.all_eq_true]
  refine forall_mem_toDigits hlow (fun d hd => ?_) n
  have hchar := (isToken_digitChar d (by omega)).2
  rwa [String.toList_singleton, List.all_cons, List.all_nil, Bool.and_true] at hchar

/-- Tokens written one behind the other are a token. -/
theorem IsToken.append {text other : String} (htext : IsToken text) (hother : IsToken other) :
    IsToken (text ++ other) := by
  refine ⟨fun h => htext.1 (String.append_eq_empty_iff.mp h).1, ?_⟩
  rw [String.toList_append, List.all_append, Bool.and_eq_true]
  exact ⟨htext.2, hother.2⟩

/-- A number in decimal is a token. -/
theorem isToken_decimal (n : Nat) : IsToken (decimal n) :=
  isToken_toDigits (by decide) (by decide) n

/-- The hexadecimal digits of a number are a token. -/
theorem isToken_hexDigits (n : Nat) : IsToken (hexDigits n) :=
  isToken_toDigits (by decide) (by decide) n

/-- They are one behind their mark, too. -/
theorem isToken_hex (n : Nat) : IsToken (hex n) :=
  .append (by decide) (isToken_hexDigits n)

/-- A number with a sign is a token. -/
theorem isToken_signedDecimal (z : Int) : IsToken (signedDecimal z) := by
  unfold signedDecimal
  split
  · exact .append (by decide) (isToken_decimal _)
  · exact isToken_decimal _

/-- The names in the table of the registers are tokens. -/
private theorem Reg.isToken_name_of_mem : ∀ r ∈ Reg.all, IsToken r.name := by
  decide +kernel

/-- The name of a register is a token. -/
theorem Reg.isToken_name (r : Reg) : IsToken r.name :=
  r.isToken_name_of_mem r.mem_all

/-- The names in the tables of the operations are tokens. -/
private theorem Operation.isToken_mnemonic_of_mem :
    ∀ op ∈ Operation.all, IsToken op.mnemonic := by
  decide +kernel

/-- The mnemonic of an operation is a token. -/
theorem Operation.isToken_mnemonic (op : Operation) : IsToken op.mnemonic :=
  op.isToken_mnemonic_of_mem op.mem_all

/-- The text of every operand is a token, since nothing in it separates. -/
theorem Slot.isToken_text (slot : Slot) (fields : Fields) : IsToken (slot.text fields) := by
  cases slot with
  | rd => exact fields.rd.isToken_name
  | rs => exact fields.rs.isToken_name
  | rt => exact fields.rt.isToken_name
  | shamt => exact isToken_decimal _
  | target => exact isToken_hex _
  | immediate => exact isToken_signedDecimal _
  | memory =>
    exact .append (.append (.append (isToken_signedDecimal _) (by decide))
      fields.rs.isToken_name) (by decide)

/-- The texts that make up a written instruction are tokens. -/
theorem Instruction.isToken_of_mem_text (instruction : Instruction) :
    ∀ text ∈ instruction.operation.mnemonic ::
      instruction.operation.operands.map (·.text instruction.fields), IsToken text := by
  intro text htext
  rcases List.mem_cons.mp htext with rfl | htext
  · exact instruction.operation.isToken_mnemonic
  · obtain ⟨slot, -, rfl⟩ := List.mem_map.mp htext
    exact slot.isToken_text instruction.fields

/-- The tokens of a written instruction are its mnemonic and the texts of its operands. -/
theorem Instruction.tokens_text (instruction : Instruction) :
    tokens instruction.text = instruction.operation.mnemonic ::
      instruction.operation.operands.map (·.text instruction.fields) :=
  tokens_intercalate_of_isToken instruction.isToken_of_mem_text

/-! ### The text of an instruction writes its command -/

/-- The text of a shift amount is read as the amount. -/
theorem Fields.unsignedToken_shamt (fields : Fields) :
    UnsignedToken (Slot.shamt.text fields) fields.shamt.toNat :=
  unsignedToken_decimal (by omega)

/-- The text of a jump target is read as the target. -/
theorem Fields.unsignedToken_target (fields : Fields) :
    UnsignedToken (Slot.target.text fields) fields.target.toNat :=
  unsignedToken_hex (by omega)

/-- The text of an immediate value is read as the value with its sign. -/
theorem Fields.signedToken_immediate (fields : Fields) :
    SignedToken (Slot.immediate.text fields) fields.immediate.toInt := by
  have hupper := BitVec.toInt_lt (x := fields.immediate)
  have hlower := BitVec.le_toInt fields.immediate
  exact signedToken_signedDecimal (by omega)

/-- The text of a memory operand is read as its offset and its base register. -/
theorem Fields.memoryToken (fields : Fields) :
    MemoryToken (Slot.memory.text fields) fields.immediate.toInt fields.rs :=
  .place fields.signedToken_immediate (.ofName fields.rs)

/-- The tokens of a written instruction write its command. -/
theorem Instruction.written (instruction : Instruction) :
    instruction.command.Written (tokens instruction.text) := by
  rw [instruction.tokens_text, Operation.mnemonic_eq_spelling]
  obtain ⟨op, fields⟩ := instruction
  -- One case for each operation, whose operands are written as tokens of the grammar.
  cases op with
  | register op =>
    cases op with
    | shift op => exact .shift op (.ofName _) (.ofName _) fields.unsignedToken_shamt
    | jumpRegister => exact .jumpRegister (.ofName _)
    | syscall => exact .syscall
    | moveFromHi => exact .moveFromHi (.ofName _)
    | moveFromLo => exact .moveFromLo (.ofName _)
    | multiply => exact .multiplyInto (.ofName _) (.ofName _) (.ofName _)
    | divide => exact .divide (.ofName _) (.ofName _) (.ofName _)
    | arithmetic op => exact .arithmetic op (.ofName _) (.ofName _) (.ofName _)
  | primary op =>
    cases op with
    | branch op =>
      cases op with
      | bltz => exact .branchBelow (.ofName _) fields.signedToken_immediate
      | beq => exact .branchEqual (.ofName _) (.ofName _) fields.signedToken_immediate
      | bne => exact .branchUnequal (.ofName _) (.ofName _) fields.signedToken_immediate
    | jump => exact .jump fields.unsignedToken_target
    | jumpAndLink => exact .jumpAndLink fields.unsignedToken_target
    | immediate op => exact .immediate op (.ofName _) (.ofName _) fields.signedToken_immediate
    | loadUpper => exact .loadUpper (.ofName _) fields.signedToken_immediate
    | load op => exact .load op (.ofName _) fields.memoryToken
    | store op => exact .store op (.ofName _) fields.memoryToken

/-! ### The form of a written instruction -/

/-- An operand is written in the shape that its slot asks for. -/
theorem Slot.accepts_text (slot : Slot) (fields : Fields) :
    slot.shape.accepts (slot.text fields) := by
  have hreads : ∃ bits, slot.Reads (slot.text fields) bits := by
    cases slot with
    | rd | rs | rt => exact ⟨_, _, .ofName _, rfl⟩
    | shamt => exact ⟨_, _, fields.unsignedToken_shamt, rfl⟩
    | target => exact ⟨_, _, fields.unsignedToken_target, rfl⟩
    | immediate => exact ⟨_, _, fields.signedToken_immediate, rfl⟩
    | memory => exact ⟨_, _, _, fields.memoryToken, rfl⟩
  obtain ⟨bits, hbits⟩ := hreads
  exact (Slot.reads_iff.mpr hbits).1

/-- So written operands fit the slots that they are written from. -/
theorem formAccepts_map_text (slots : List Slot) (fields : Fields) :
    formAccepts slots (slots.map (·.text fields)) := by
  induction slots with
  | nil => rfl
  | cons slot slots ih =>
    rw [List.map_cons, formAccepts, Bool.and_eq_true]
    exact ⟨slot.accepts_text fields, ih⟩

/-- The lists of the disassembler and the forms of the assembler, compared one by one. -/
private theorem Operation.operands_mem_forms_of_mem :
    ∀ op ∈ Operation.all, op.operands ∈ op.forms := by
  decide

/-- The operands that the disassembler writes are one of the forms that the assembler
accepts. -/
theorem Operation.operands_mem_forms (op : Operation) : op.operands ∈ op.forms :=
  op.operands_mem_forms_of_mem op.mem_all

/-- It is the form by which the assembler reads the text of an instruction. -/
theorem Instruction.form?_text (instruction : Instruction) :
    instruction.operation.form? (instruction.operation.operands.map (·.text instruction.fields))
      = some instruction.operation.operands :=
  Operation.form?_eq_some_iff.mpr
    ⟨instruction.operation.operands_mem_forms, formAccepts_map_text _ _⟩

/-! ### The word of a written instruction -/

/-- The word of the command is the canonical word. -/
theorem word_command_eq_canonical {word : Word} {instruction : Instruction}
    (h : decode word = .ok instruction) : instruction.command.word = canonical word := by
  obtain ⟨hfields, hoperation⟩ := decode_eq_ok_iff.mp h
  obtain ⟨op, fields⟩ := instruction
  -- Both words have the fields of the command, which leave no bit open.
  obtain rfl : fields = .ofWord word := hfields
  exact (Command.holds_word _).unique (holds_canonical hoperation)

/-- The text of an instruction is assembled to the canonical word. -/
theorem encode_disassemble_of_decode {word : Word} {instruction : Instruction}
    (h : decode word = .ok instruction) : encode (disassemble word) = .ok (canonical word) := by
  rw [disassemble, h]
  show encode instruction.text = .ok (canonical word)
  rw [encode_of_written instruction.written, word_command_eq_canonical h]

/-- A line is refused when its first token names no operation. -/
theorem encode_of_ofMnemonic?_eq_none {line mnemonic : String} {operands : List String}
    (h : tokens line = mnemonic :: operands) (hname : Operation.ofMnemonic? mnemonic = none) :
    encode line = .error (.unknownMnemonic mnemonic) := by
  rw [encode_eq_of_tokens h, Statement.encode, hname]

/-- The words in the text of a word without an operation. -/
theorem unknown_eq_intercalate (digits : String) :
    "Unknown Instruction " ++ digits = " ".intercalate ["Unknown", "Instruction", digits] := by
  rw [String.intercalate_cons_cons, String.intercalate_cons_cons, String.intercalate_singleton]
  simp [← String.append_assoc]

/-- The text of a word without an operation is made of three words. -/
theorem isWord_of_mem_unknown {digits : String} (h : IsToken digits) :
    ∀ text ∈ ["Unknown", "Instruction", digits], IsWord text := by
  simp only [List.forall_mem_cons, List.not_mem_nil, false_imp_iff, implies_true, and_true]
  exact ⟨by decide, by decide, h.isWord⟩

/-- The text of a word without an operation starts with a word that is no mnemonic. -/
theorem encode_unknown {digits : String} (h : IsToken digits) :
    encode ("Unknown Instruction " ++ digits) = .error (.unknownMnemonic "unknown") := by
  have hmnemonic : String.ofList (lowercase "Unknown".toList) = "unknown" := by decide +kernel
  have htokens := tokens_intercalate (isWord_of_mem_unknown h)
  rw [← unknown_eq_intercalate, List.map_cons, hmnemonic] at htokens
  exact encode_of_ofMnemonic?_eq_none htokens (by decide +kernel)

/-- Every word is written as a text that is assembled to the canonical word, and that is
the text of the canonical word too. A word without an operation is written as a text that
the assembler refuses. -/
theorem encode_disassemble (word : Word) :
    encode (disassemble word) =
        (match decode word with
        | .ok _ => .ok (canonical word)
        | .error _ => .error (.unknownMnemonic "unknown"))
      ∧ disassemble (canonical word) = disassemble word := by
  refine ⟨?_, disassemble_canonical word⟩
  cases h : decode word with
  | ok instruction => exact encode_disassemble_of_decode h
  | error fault =>
    rw [disassemble, h]
    exact encode_unknown (isToken_hex _)

end MiniMips
