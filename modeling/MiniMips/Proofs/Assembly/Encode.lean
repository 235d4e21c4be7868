import MiniMips.Proofs.Assembly.Operand
import MiniMips.Proofs.Assembly.Tokens

/-!
# `MiniMips.Proofs.Assembly.Encode`: the accepted lines and their words

`encode` goes from a line to its word through a mnemonic table, a choice of forms and a
list of slots. The grammar knows none of these. The theorems:

* `form?_eq_some_iff`: the forms of an operation exclude each other, so the order in which
  they are tried does not matter.
* `encodeOperands_eq_ok_iff`: the operands of a form are read one after the other.
* `Command.holds_word`: the word of a command has the fields of the command.
* `encode_of_written`: a written command is encoded as its word.
* `written_of_encode`: and nothing else is encoded.
* `encode_iff_written`: a line is accepted exactly when its tokens write a command, and
  the fields of its word are then those of the command.
-/

set_option autoImplicit false

namespace MiniMips

/-! ### Mnemonics and forms -/

/-- No two operations share a mnemonic. -/
private theorem Operation.mnemonic_injective :
    ∀ op ∈ Operation.all, ∀ other ∈ Operation.all, op.mnemonic = other.mnemonic → op = other := by
  decide +kernel

/-- A mnemonic names at most one operation. -/
theorem Operation.ofMnemonic?_eq_some_iff {name : String} {op : Operation} :
    Operation.ofMnemonic? name = some op ↔ op.spelling = name := by
  rw [← op.mnemonic_eq_spelling]
  exact find?_key_eq_some_iff Operation.mnemonic_injective op.mem_all

/-- Only operands as many as the slots fit a form. -/
theorem length_eq_of_formAccepts {form : List Slot} {operands : List String}
    (h : formAccepts form operands) : form.length = operands.length := by
  induction form generalizing operands with
  | nil =>
    cases operands with
    | nil => rfl
    | cons token tokens => cases h
  | cons slot slots ih =>
    cases operands with
    | nil => cases h
    | cons token tokens =>
      rw [formAccepts, Bool.and_eq_true] at h
      rw [List.length_cons, List.length_cons, ih h.2]

/-- No two forms of one operation have the same number of operands. -/
private theorem Operation.form_unique :
    ∀ op ∈ Operation.all, ∀ form ∈ op.forms, ∀ other ∈ op.forms,
      form.length = other.length → form = other := by
  decide

/-- At most one form of an operation fits its operands. -/
theorem Operation.form?_eq_some_iff {op : Operation} {operands : List String}
    {form : List Slot} :
    op.form? operands = some form ↔ form ∈ op.forms ∧ formAccepts form operands := by
  unfold Operation.form?
  constructor
  · intro h
    exact ⟨List.mem_of_find?_eq_some h, List.find?_some (p := (formAccepts · operands)) h⟩
  · rintro ⟨hform, haccepts⟩
    cases h : op.forms.find? (formAccepts · operands) with
    | none => exact absurd haccepts (List.find?_eq_none.mp h form hform)
    -- Two forms of one operation that fit have as many slots as there are operands.
    | some other =>
      have hother : formAccepts other operands :=
        List.find?_some (p := (formAccepts · operands)) h
      have hlength := (length_eq_of_formAccepts hother).trans
        (length_eq_of_formAccepts haccepts).symm
      rw [Operation.form_unique op op.mem_all other (List.mem_of_find?_eq_some h) form hform
        hlength]

/-! ### Operands -/

/-- The tokens that fill the slots of a form, where the bits of the operands are added to
a word. -/
inductive FormReads : Word → List Slot → List String → Word → Prop where
  | nil {word : Word} : FormReads word [] [] word
  | cons {word bits result : Word} {slot : Slot} {slots : List Slot} {token : String}
      {tokens : List String} (head : slot.Reads token bits)
      (tail : FormReads (word ||| bits) slots tokens result) :
      FormReads word (slot :: slots) (token :: tokens) result

/-- Operands that fit a form are encoded exactly when each of them can be read. -/
theorem encodeOperands_eq_ok_iff {form : List Slot} {operands : List String}
    {word result : Word} :
    formAccepts form operands ∧ encodeOperands word form operands = .ok result ↔
      FormReads word form operands result := by
  -- Induction on the form. Where the numbers of slots and operands differ, both sides fail.
  induction form generalizing operands word with
  | nil =>
    cases operands with
    | nil =>
      constructor
      · rintro ⟨-, h⟩
        cases h
        exact .nil
      · rintro ⟨⟩
        exact ⟨rfl, rfl⟩
    | cons token tokens =>
      constructor
      · rintro ⟨h, -⟩
        cases h
      · rintro ⟨⟩
  | cons slot slots ih =>
    cases operands with
    | nil =>
      constructor
      · rintro ⟨h, -⟩
        cases h
      · rintro ⟨⟩
    | cons token tokens =>
      rw [formAccepts, Bool.and_eq_true, encodeOperands, bind_eq_ok_iff]
      constructor
      · rintro ⟨⟨hshape, haccepts⟩, bits, hbits, hrest⟩
        exact .cons (Slot.reads_iff.mp ⟨hshape, hbits⟩) (ih.mp ⟨haccepts, hrest⟩)
      · rintro (_ | ⟨head, tail⟩)
        obtain ⟨hshape, hbits⟩ := Slot.reads_iff.mpr head
        obtain ⟨haccepts, hrest⟩ := ih.mpr tail
        exact ⟨⟨hshape, haccepts⟩, _, hbits, hrest⟩

/-- A statement is encoded exactly when its operands fill a form of its operation. -/
theorem Statement.encode_eq_ok_iff {mnemonic : String} {operands : List String} {word : Word} :
    Statement.encode ⟨mnemonic, operands⟩ = .ok word ↔
      ∃ op : Operation, op.spelling = mnemonic
        ∧ ∃ form ∈ op.forms, FormReads op.baseWord form operands word := by
  simp only [← Operation.ofMnemonic?_eq_some_iff, ← encodeOperands_eq_ok_iff]
  unfold Statement.encode
  cases hop : Operation.ofMnemonic? mnemonic with
  | none => simp
  | some op =>
    simp only [Option.some.injEq, exists_eq_left']
    cases hform : op.form? operands with
    | none =>
      constructor
      · intro h
        cases h
      · rintro ⟨form, hmem, haccepts, -⟩
        rw [Operation.form?_eq_some_iff.mpr ⟨hmem, haccepts⟩] at hform
        cases hform
    -- The chosen form is the only one that fits, so it is the form of the other side too.
    | some form =>
      obtain ⟨hmem, haccepts⟩ := Operation.form?_eq_some_iff.mp hform
      constructor
      · exact fun h => ⟨form, hmem, haccepts, h⟩
      · rintro ⟨other, hother, hfits, h⟩
        have heq := Operation.form?_eq_some_iff.mpr ⟨hother, hfits⟩
        rw [hform] at heq
        cases heq
        exact h

/-! ### Commands -/

/-- The word of a command: the codes of its operation and the bits of its operands. -/
def Command.word (c : Command) : Word :=
  let base := c.operation.baseWord
  match c with
  | shift _ d t distance =>
    base ||| fieldBits 11 d ||| fieldBits 16 t ||| fieldBits 6 (BitVec.ofNat 5 distance)
  | jumpRegister s => base ||| fieldBits 21 s
  | syscall => base
  | moveFromHi d => base ||| fieldBits 11 d
  | moveFromLo d => base ||| fieldBits 11 d
  | multiply s t => base ||| fieldBits 21 s ||| fieldBits 16 t
  | multiplyInto d s t => base ||| fieldBits 11 d ||| fieldBits 21 s ||| fieldBits 16 t
  | divide d s t => base ||| fieldBits 11 d ||| fieldBits 21 s ||| fieldBits 16 t
  | arithmetic _ d s t => base ||| fieldBits 11 d ||| fieldBits 21 s ||| fieldBits 16 t
  | jump target => base ||| fieldBits 0 (BitVec.ofNat 26 target)
  | jumpAndLink target => base ||| fieldBits 0 (BitVec.ofNat 26 target)
  | branchBelow s offset => base ||| fieldBits 21 s ||| fieldBits 0 (BitVec.ofInt 16 offset)
  | branchEqual s t offset =>
    base ||| fieldBits 21 s ||| fieldBits 16 t ||| fieldBits 0 (BitVec.ofInt 16 offset)
  | branchUnequal s t offset =>
    base ||| fieldBits 21 s ||| fieldBits 16 t ||| fieldBits 0 (BitVec.ofInt 16 offset)
  | immediate _ t s value =>
    base ||| fieldBits 16 t ||| fieldBits 21 s ||| fieldBits 0 (BitVec.ofInt 16 value)
  | loadUpper t value => base ||| fieldBits 16 t ||| fieldBits 0 (BitVec.ofInt 16 value)
  | load _ t offset s =>
    base ||| fieldBits 16 t ||| (fieldBits 21 s ||| fieldBits 0 (BitVec.ofInt 16 offset))
  | store _ t offset s =>
    base ||| fieldBits 16 t ||| (fieldBits 21 s ||| fieldBits 0 (BitVec.ofInt 16 offset))

/-- No operand reaches into the field of another. -/
theorem Command.holds_word (c : Command) : c.layout.Holds (Fields.ofWord c.word) := by
  cases c <;>
    simp (disch := decide) [Command.word, Command.operation, Command.layout,
      Command.registerLayout, Command.immediateLayout, Command.targetLayout, Layout.Holds,
      Fields.ofWord, baseWord_register, baseWord_primary, RegisterOp.code_eq, PrimaryOp.code_eq,
      BitVec.extractLsb'_or, extractLsb'_fieldBits_self, extractLsb'_fieldBits_of_disjoint]

/-- A written command is the name of its operation with operands in one of its forms. -/
theorem Command.Written.formReads {c : Command} {line : List String} (h : c.Written line) :
    ∃ operands, line = c.operation.spelling :: operands
      ∧ ∃ form ∈ c.operation.forms, FormReads c.operation.baseWord form operands c.word := by
  -- One case for each command: its form, the position of this form in the list, and its
  -- operands.
  cases h with
  | shift op hd ht hk =>
    exact ⟨_, rfl, [.rd, .rt, .shamt], .head _,
      .cons ⟨_, hd, rfl⟩ (.cons ⟨_, ht, rfl⟩ (.cons ⟨_, hk, rfl⟩ .nil))⟩
  | jumpRegister hs => exact ⟨_, rfl, [.rs], .head _, .cons ⟨_, hs, rfl⟩ .nil⟩
  | syscall => exact ⟨_, rfl, [], .head _, .nil⟩
  | moveFromHi hd => exact ⟨_, rfl, [.rd], .head _, .cons ⟨_, hd, rfl⟩ .nil⟩
  | moveFromLo hd => exact ⟨_, rfl, [.rd], .head _, .cons ⟨_, hd, rfl⟩ .nil⟩
  | multiply hs ht =>
    exact ⟨_, rfl, [.rs, .rt], .head _, .cons ⟨_, hs, rfl⟩ (.cons ⟨_, ht, rfl⟩ .nil)⟩
  | multiplyInto hd hs ht =>
    exact ⟨_, rfl, [.rd, .rs, .rt], .tail _ (.head _),
      .cons ⟨_, hd, rfl⟩ (.cons ⟨_, hs, rfl⟩ (.cons ⟨_, ht, rfl⟩ .nil))⟩
  | divide hd hs ht =>
    exact ⟨_, rfl, [.rd, .rs, .rt], .head _,
      .cons ⟨_, hd, rfl⟩ (.cons ⟨_, hs, rfl⟩ (.cons ⟨_, ht, rfl⟩ .nil))⟩
  | arithmetic op hd hs ht =>
    exact ⟨_, rfl, [.rd, .rs, .rt], .head _,
      .cons ⟨_, hd, rfl⟩ (.cons ⟨_, hs, rfl⟩ (.cons ⟨_, ht, rfl⟩ .nil))⟩
  | jump hn => exact ⟨_, rfl, [.target], .head _, .cons ⟨_, hn, rfl⟩ .nil⟩
  | jumpAndLink hn => exact ⟨_, rfl, [.target], .head _, .cons ⟨_, hn, rfl⟩ .nil⟩
  | branchBelow hs hi =>
    exact ⟨_, rfl, [.rs, .immediate], .head _,
      .cons ⟨_, hs, rfl⟩ (.cons ⟨_, hi, rfl⟩ .nil)⟩
  | branchEqual hs ht hi =>
    exact ⟨_, rfl, [.rs, .rt, .immediate], .head _,
      .cons ⟨_, hs, rfl⟩ (.cons ⟨_, ht, rfl⟩ (.cons ⟨_, hi, rfl⟩ .nil))⟩
  | branchUnequal hs ht hi =>
    exact ⟨_, rfl, [.rs, .rt, .immediate], .head _,
      .cons ⟨_, hs, rfl⟩ (.cons ⟨_, ht, rfl⟩ (.cons ⟨_, hi, rfl⟩ .nil))⟩
  | immediate op ht hs hi =>
    exact ⟨_, rfl, [.rt, .rs, .immediate], .head _,
      .cons ⟨_, ht, rfl⟩ (.cons ⟨_, hs, rfl⟩ (.cons ⟨_, hi, rfl⟩ .nil))⟩
  | loadUpper ht hi =>
    exact ⟨_, rfl, [.rt, .immediate], .head _,
      .cons ⟨_, ht, rfl⟩ (.cons ⟨_, hi, rfl⟩ .nil)⟩
  | load op ht hplace =>
    exact ⟨_, rfl, [.rt, .memory], .head _,
      .cons ⟨_, ht, rfl⟩ (.cons ⟨_, _, hplace, rfl⟩ .nil)⟩
  | store op ht hplace =>
    exact ⟨_, rfl, [.rt, .memory], .head _,
      .cons ⟨_, ht, rfl⟩ (.cons ⟨_, _, hplace, rfl⟩ .nil)⟩

/-- A line that writes a command is encoded as its word. -/
theorem encode_of_written {line : String} {c : Command} (h : c.Written (tokens line)) :
    encode line = .ok c.word := by
  obtain ⟨operands, htokens, hform⟩ := h.formReads
  rw [encode_eq_of_tokens htokens]
  exact Statement.encode_eq_ok_iff.mpr ⟨c.operation, rfl, hform⟩

/-- The operands of a form make a command. -/
theorem written_of_formReads {op : Operation} {form : List Slot} {operands : List String}
    {word : Word} (hform : form ∈ op.forms) (h : FormReads op.baseWord form operands word) :
    ∃ c : Command, c.Written (op.spelling :: operands) := by
  cases op with
  | register op =>
    cases op with
    | shift op =>
      obtain rfl := List.mem_singleton.mp hform
      rcases h with _ | ⟨⟨_, hd, -⟩, _ | ⟨⟨_, ht, -⟩, _ | ⟨⟨_, hk, -⟩, ⟨⟩⟩⟩⟩
      exact ⟨_, .shift op hd ht hk⟩
    | jumpRegister =>
      obtain rfl := List.mem_singleton.mp hform
      rcases h with _ | ⟨⟨_, hs, -⟩, ⟨⟩⟩
      exact ⟨_, .jumpRegister hs⟩
    | syscall =>
      obtain rfl := List.mem_singleton.mp hform
      rcases h with ⟨⟩
      exact ⟨_, .syscall⟩
    | moveFromHi =>
      obtain rfl := List.mem_singleton.mp hform
      rcases h with _ | ⟨⟨_, hd, -⟩, ⟨⟩⟩
      exact ⟨_, .moveFromHi hd⟩
    | moveFromLo =>
      obtain rfl := List.mem_singleton.mp hform
      rcases h with _ | ⟨⟨_, hd, -⟩, ⟨⟩⟩
      exact ⟨_, .moveFromLo hd⟩
    | multiply =>
      -- The one operation with two forms, told apart by the number of operands.
      rcases List.mem_pair.mp hform with rfl | rfl
      · rcases h with _ | ⟨⟨_, hs, -⟩, _ | ⟨⟨_, ht, -⟩, ⟨⟩⟩⟩
        exact ⟨_, .multiply hs ht⟩
      · rcases h with _ | ⟨⟨_, hd, -⟩, _ | ⟨⟨_, hs, -⟩, _ | ⟨⟨_, ht, -⟩, ⟨⟩⟩⟩⟩
        exact ⟨_, .multiplyInto hd hs ht⟩
    | divide =>
      obtain rfl := List.mem_singleton.mp hform
      rcases h with _ | ⟨⟨_, hd, -⟩, _ | ⟨⟨_, hs, -⟩, _ | ⟨⟨_, ht, -⟩, ⟨⟩⟩⟩⟩
      exact ⟨_, .divide hd hs ht⟩
    | arithmetic op =>
      obtain rfl := List.mem_singleton.mp hform
      rcases h with _ | ⟨⟨_, hd, -⟩, _ | ⟨⟨_, hs, -⟩, _ | ⟨⟨_, ht, -⟩, ⟨⟩⟩⟩⟩
      exact ⟨_, .arithmetic op hd hs ht⟩
  | primary op =>
    cases op with
    | branch op =>
      cases op with
      | bltz =>
        obtain rfl := List.mem_singleton.mp hform
        rcases h with _ | ⟨⟨_, hs, -⟩, _ | ⟨⟨_, hi, -⟩, ⟨⟩⟩⟩
        exact ⟨_, .branchBelow hs hi⟩
      | beq =>
        obtain rfl := List.mem_singleton.mp hform
        rcases h with _ | ⟨⟨_, hs, -⟩, _ | ⟨⟨_, ht, -⟩, _ | ⟨⟨_, hi, -⟩, ⟨⟩⟩⟩⟩
        exact ⟨_, .branchEqual hs ht hi⟩
      | bne =>
        obtain rfl := List.mem_singleton.mp hform
        rcases h with _ | ⟨⟨_, hs, -⟩, _ | ⟨⟨_, ht, -⟩, _ | ⟨⟨_, hi, -⟩, ⟨⟩⟩⟩⟩
        exact ⟨_, .branchUnequal hs ht hi⟩
    | jump =>
      obtain rfl := List.mem_singleton.mp hform
      rcases h with _ | ⟨⟨_, hn, -⟩, ⟨⟩⟩
      exact ⟨_, .jump hn⟩
    | jumpAndLink =>
      obtain rfl := List.mem_singleton.mp hform
      rcases h with _ | ⟨⟨_, hn, -⟩, ⟨⟩⟩
      exact ⟨_, .jumpAndLink hn⟩
    | immediate op =>
      obtain rfl := List.mem_singleton.mp hform
      rcases h with _ | ⟨⟨_, ht, -⟩, _ | ⟨⟨_, hs, -⟩, _ | ⟨⟨_, hi, -⟩, ⟨⟩⟩⟩⟩
      exact ⟨_, .immediate op ht hs hi⟩
    | loadUpper =>
      obtain rfl := List.mem_singleton.mp hform
      rcases h with _ | ⟨⟨_, ht, -⟩, _ | ⟨⟨_, hi, -⟩, ⟨⟩⟩⟩
      exact ⟨_, .loadUpper ht hi⟩
    | load op =>
      obtain rfl := List.mem_singleton.mp hform
      rcases h with _ | ⟨⟨_, ht, -⟩, _ | ⟨⟨_, _, hplace, -⟩, ⟨⟩⟩⟩
      exact ⟨_, .load op ht hplace⟩
    | store op =>
      obtain rfl := List.mem_singleton.mp hform
      rcases h with _ | ⟨⟨_, ht, -⟩, _ | ⟨⟨_, _, hplace, -⟩, ⟨⟩⟩⟩
      exact ⟨_, .store op ht hplace⟩

/-- A line that is encoded writes a command. -/
theorem written_of_encode {line : String} {word : Word} (h : encode line = .ok word) :
    ∃ c : Command, c.Written (tokens line) := by
  cases htokens : tokens line with
  | nil =>
    rw [encode_eq_of_tokens_eq_nil htokens] at h
    cases h
  | cons mnemonic operands =>
    rw [encode_eq_of_tokens htokens] at h
    obtain ⟨op, rfl, form, hform, hreads⟩ := Statement.encode_eq_ok_iff.mp h
    exact written_of_formReads hform hreads

/-- The lines that are accepted are those of the grammar, and the word of such a line has
the fields of the command and zeros elsewhere. -/
theorem encode_iff_written (line : String) :
    ((∃ word, encode line = .ok word) ↔ ∃ c : Command, c.Written (tokens line))
      ∧ ∀ (word : Word) (c : Command), encode line = .ok word → c.Written (tokens line) →
        c.layout.Holds (Fields.ofWord word) := by
  refine ⟨⟨fun ⟨_, h⟩ => written_of_encode h, fun ⟨c, h⟩ => ⟨c.word, encode_of_written h⟩⟩, ?_⟩
  intro word c hword hwritten
  rw [encode_of_written hwritten] at hword
  cases hword
  exact c.holds_word

/-- A sum with a negative literal, token by token. -/
theorem Command.written_addi :
    (immediate .addi 8 9 (-5)).Written ["addi", "$t0", "$t1", "-5"] := by
  have hvalue : SignedToken "-5" (-5) :=
    .minus (@UnsignedToken.decimal ['5'] (by decide) (List.forall_mem_singleton.mpr rfl)
      (by decide))
  exact .immediate .addi (.name 8) (.name 9) hvalue

/-- A line with capital letters and a missing space. -/
theorem encode_iff_written_addi :
    encode "ADDI $t0, $T1,-5" = .ok 0x2128FFFB
      ∧ (Command.immediate .addi 8 9 (-5)).Written (tokens "ADDI $t0, $T1,-5")
      ∧ (Command.immediate .addi 8 9 (-5)).layout.Holds (Fields.ofWord 0x2128FFFB) := by
  have hline : encode "ADDI $t0, $T1,-5" = .ok 0x2128FFFB := by decide +kernel
  have htokens : tokens "ADDI $t0, $T1,-5" = ["addi", "$t0", "$t1", "-5"] := by decide +kernel
  have hwritten : (Command.immediate .addi 8 9 (-5)).Written (tokens "ADDI $t0, $T1,-5") := by
    rw [htokens]
    exact Command.written_addi
  exact ⟨hline, hwritten, (encode_iff_written _).2 _ _ hline hwritten⟩

end MiniMips
