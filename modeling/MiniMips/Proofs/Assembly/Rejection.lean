import Mathlib.Data.List.Forall2
import MiniMips.Proofs.Assembly.Encode
import MiniMips.Proofs.Assembly.Shape

/-!
# `MiniMips.Proofs.Assembly.Rejection`: why a line is refused

A line can be wrong in several places, and one error is reported. `Rejects` says which: a
missing or unknown mnemonic comes first, then operands that have no form of the operation, and
then the first operand that cannot be read. Each of these has a cause (`Cause`), and a line has
at most one cause with one error.

A memory operand is read against its order: the base register stands behind the offset, and is
refused before it. Its two parts are found when the form is chosen, so that they are found again
when it is encoded (`splitMemory?_ne_none_of_form?`). The theorems:

* `Slot.refuses_iff`: the error of an operand, `Slot.Refuses`.
* `encodeOperands_eq_error_iff`: the error of the operands of a form, `RefusedAt`.
* `encode_eq_error_iff`: the error of a line, `Rejects`.
* `Rejects.unique`: it has one cause.
* `encode_rejection`: all of it.
-/

set_option autoImplicit false

namespace MiniMips

open Text

/-! ### Operands -/

/-- The tokens that name a register. -/
def registerSpellings : List String :=
  Reg.all.map Reg.spelling ++ ["$g7"]

/-- The list has the names that the grammar knows, and no others. -/
theorem mem_registerSpellings_iff {token : String} :
    token ∈ registerSpellings ↔ ∃ r, RegisterToken token r := by
  simp only [registerSpellings, List.mem_append, List.mem_map, List.mem_singleton]
  constructor
  · rintro (⟨r, -, rfl⟩ | rfl)
    · exact ⟨r, .name r⟩
    · exact ⟨15, .g7⟩
  · rintro ⟨r, h⟩
    cases h with
    | name => exact .inl ⟨r, r.mem_all, rfl⟩
    | g7 => exact .inr rfl

example : registerSpellings.length = 33 := by
  decide

/-- The error of the token in a slot, if it has the shape of the slot and cannot be read. In a
memory operand the offset is looked at only if the base is a register. -/
def Slot.Refuses (slot : Slot) (token : String) (error : EncodeError) : Prop :=
  match slot with
  | rd | rs | rt =>
    RegisterShape token ∧ token ∉ registerSpellings ∧ error = .unknownRegister token
  | shamt | target => UnsignedFlaw token ∧ error = .invalidLiteral token
  | immediate => SignedFlaw token ∧ error = .invalidLiteral token
  | memory =>
    ∃ offset base, token = offset ++ "(" ++ base ++ ")" ∧ SignedShape offset
      ∧ RegisterShape base
      ∧ (base ∉ registerSpellings ∧ error = .unknownRegister base
        ∨ base ∈ registerSpellings ∧ SignedFlaw offset ∧ error = .invalidLiteral offset)

/-- A register operand is refused by its name. -/
theorem encodeRegister_eq_error_iff {token : String} {error : EncodeError} :
    encodeRegister token = .error error ↔
      token ∉ registerSpellings ∧ error = .unknownRegister token := by
  simp only [mem_registerSpellings_iff, ← registerOfToken?_eq_some_iff]
  unfold encodeRegister
  cases registerOfToken? token with
  | none => simp [eq_comm]
  | some r => simp

/-- A literal is refused if it has no value. -/
theorem encodeLiteral_eq_error_iff {width : Nat} {token : String} {error : EncodeError} :
    encodeLiteral width token = .error error ↔
      literal? token = none ∧ error = .invalidLiteral token := by
  unfold encodeLiteral
  cases literal? token with
  | none => simp [eq_comm]
  | some z => simp

/-- An encoding that goes through a map fails as the encoding itself does. -/
theorem map_eq_error_iff {α β : Type} {e : Except EncodeError α} {f : α → β}
    {error : EncodeError} : e.map f = .error error ↔ e = .error error := by
  cases e <;> simp [Except.map]

/-- Two encodings one after the other fail as the first that fails. -/
theorem bind_eq_error_iff {α β : Type} {e : Except EncodeError α}
    {f : α → Except EncodeError β} {error : EncodeError} :
    e.bind f = .error error ↔ e = .error error ∨ ∃ a, e = .ok a ∧ f a = .error error := by
  cases e <;> simp [Except.bind]

/-- A register operand that names no register. -/
private theorem register_refuses_iff {token : String} {shift : Nat} {error : EncodeError} :
    isRegisterToken token.toList ∧ (encodeRegister token).map (fieldBits shift) = .error error ↔
      RegisterShape token ∧ token ∉ registerSpellings ∧ error = .unknownRegister token := by
  rw [map_eq_error_iff, encodeRegister_eq_error_iff, isRegisterToken_iff]

/-- An operand without a sign and without a value. -/
private theorem unsigned_refuses_iff {token : String} {width shift : Nat}
    {error : EncodeError} :
    isUnsignedToken token.toList
        ∧ (encodeLiteral width token).map (fieldBits shift) = .error error ↔
      UnsignedFlaw token ∧ error = .invalidLiteral token := by
  rw [map_eq_error_iff, encodeLiteral_eq_error_iff, ← and_assoc, literal?_eq_none_iff_unsigned]

/-- An operand of the right shape is refused for its own reason. -/
theorem Slot.refuses_iff {slot : Slot} {token : String} {error : EncodeError} :
    slot.shape.accepts token ∧ slot.encode token = .error error ↔ slot.Refuses token error := by
  cases slot with
  | rd | rs | rt => exact register_refuses_iff
  | shamt | target => exact unsigned_refuses_iff
  | immediate =>
    simp only [Slot.Refuses, Slot.encode, Slot.shape, Shape.accepts, map_eq_error_iff,
      encodeLiteral_eq_error_iff, ← literal?_eq_none_iff_signed, and_assoc]
  | memory =>
    simp only [Slot.Refuses, Slot.shape, Shape.accepts, Slot.encode]
    constructor
    · rintro ⟨hshape, hencode⟩
      obtain ⟨⟨offset, base⟩, hsplit⟩ := Option.isSome_iff_exists.mp hshape
      obtain ⟨htoken, hoffset, hbase⟩ := splitMemory?_eq_some_iff.mp hsplit
      refine ⟨offset, base, htoken, isSignedToken_iff.mp hoffset, isRegisterToken_iff.mp hbase, ?_⟩
      -- Two things can fail, in this order: the base is looked up, and then the offset is read.
      rw [hsplit] at hencode
      simp only [bind_eq_error_iff, map_eq_error_iff, encodeRegister_eq_error_iff,
        encodeLiteral_eq_error_iff, encodeRegister_eq_ok_iff] at hencode
      rcases hencode with hunknown | ⟨r, hr, hnone, herror⟩
      · exact .inl hunknown
      · exact .inr ⟨mem_registerSpellings_iff.mpr ⟨r, hr⟩,
          literal?_eq_none_iff_signed.mp ⟨hoffset, hnone⟩, herror⟩
    · rintro ⟨offset, base, htoken, hoffset, hbase, herror⟩
      have hsplit : splitMemory? token = some (offset, base) :=
        splitMemory?_eq_some_iff.mpr
          ⟨htoken, isSignedToken_iff.mpr hoffset, isRegisterToken_iff.mpr hbase⟩
      rw [hsplit]
      refine ⟨rfl, ?_⟩
      simp only [bind_eq_error_iff, map_eq_error_iff, encodeRegister_eq_error_iff,
        encodeLiteral_eq_error_iff, encodeRegister_eq_ok_iff]
      rcases herror with hunknown | ⟨hknown, hflaw, herror⟩
      · exact .inl hunknown
      · obtain ⟨r, hr⟩ := mem_registerSpellings_iff.mp hknown
        exact .inr ⟨r, hr, (literal?_eq_none_iff_signed.mpr hflaw).2, herror⟩

/-! ### Forms -/

/-- Whether there is one operand for each slot of a form, of the right shape. -/
def Fits (form : List Slot) (operands : List String) : Prop :=
  List.Forall₂ (fun slot token => slot.shape.Describes token) form operands

/-- Operands are accepted for a form exactly if each has the shape of its slot. -/
theorem formAccepts_iff {form : List Slot} {operands : List String} :
    formAccepts form operands ↔ Fits form operands := by
  unfold Fits
  induction form generalizing operands with
  | nil =>
    cases operands with
    | nil => simp [formAccepts]
    | cons token tokens => simp [formAccepts]
  | cons slot slots ih =>
    cases operands with
    | nil => simp [formAccepts]
    | cons token tokens =>
      rw [formAccepts, Bool.and_eq_true, Shape.accepts_iff, ih, List.forall₂_cons]

/-- The position of the first operand that cannot be read, and its error. -/
inductive RefusedAt : List Slot → List String → Nat → EncodeError → Prop where
  | here {slot : Slot} {slots : List Slot} {token : String} {tokens : List String}
      {error : EncodeError} (h : slot.Refuses token error) :
      RefusedAt (slot :: slots) (token :: tokens) 0 error
  | later {slot : Slot} {slots : List Slot} {token : String} {tokens : List String}
      {bits : Word} {position : Nat} {error : EncodeError} (head : slot.Reads token bits)
      (tail : RefusedAt slots tokens position error) :
      RefusedAt (slot :: slots) (token :: tokens) (position + 1) error

/-- An operand that can be read is not refused. -/
theorem Slot.Reads.not_refuses {slot : Slot} {token : String} {bits : Word}
    (h : slot.Reads token bits) (error : EncodeError) : ¬slot.Refuses token error := by
  intro hrefuses
  obtain ⟨-, hok⟩ := Slot.reads_iff.mpr h
  obtain ⟨-, herror⟩ := Slot.refuses_iff.mpr hrefuses
  rw [hok] at herror
  cases herror

/-- An operand has one error. -/
theorem Slot.Refuses.unique {slot : Slot} {token : String} {error other : EncodeError}
    (h : slot.Refuses token error) (hother : slot.Refuses token other) : error = other := by
  obtain ⟨-, herror⟩ := Slot.refuses_iff.mpr h
  obtain ⟨-, herror'⟩ := Slot.refuses_iff.mpr hother
  exact Except.error.inj (herror.symm.trans herror')

/-- There is one first operand that is refused. -/
theorem RefusedAt.unique {form : List Slot} {operands : List String} {position : Nat}
    {error : EncodeError} (h : RefusedAt form operands position error) :
    ∀ {position' : Nat} {error' : EncodeError}, RefusedAt form operands position' error' →
      position = position' ∧ error = error' := by
  -- Both walk over the same operands, and neither goes past one that is refused.
  induction h with
  | here hrefuses =>
    intro position' error' hother
    cases hother with
    | here hrefuses' => exact ⟨rfl, hrefuses.unique hrefuses'⟩
    | later hreads _ => exact absurd hrefuses (hreads.not_refuses _)
  | later hreads _ ih =>
    intro position' error' hother
    cases hother with
    | here hrefuses => exact absurd hrefuses (hreads.not_refuses _)
    | later _ htail =>
      obtain ⟨rfl, rfl⟩ := ih htail
      exact ⟨rfl, rfl⟩

/-- The operands of a form are refused as the first of them that is. -/
theorem encodeOperands_eq_error_iff {form : List Slot} {operands : List String} {word : Word}
    {error : EncodeError} (hfits : Fits form operands) :
    encodeOperands word form operands = .error error ↔
      ∃ position, RefusedAt form operands position error := by
  -- The operands before have added their bits, so the word is any word.
  induction form generalizing operands word with
  | nil =>
    constructor
    · intro h
      cases h
    · rintro ⟨position, ⟨⟩⟩
  | cons slot slots ih =>
    cases operands with
    | nil => cases hfits
    | cons token tokens =>
      obtain ⟨hshape, hrest⟩ := List.forall₂_cons.mp hfits
      have haccepts := Shape.accepts_iff.mpr hshape
      rw [encodeOperands, bind_eq_error_iff]
      constructor
      · rintro (herror | ⟨bits, hbits, herror⟩)
        · exact ⟨0, .here (Slot.refuses_iff.mp ⟨haccepts, herror⟩)⟩
        · obtain ⟨position, hposition⟩ := (ih hrest).mp herror
          exact ⟨position + 1, .later (Slot.reads_iff.mp ⟨haccepts, hbits⟩) hposition⟩
      · rintro ⟨position, h⟩
        cases h with
        | here hrefuses => exact .inl (Slot.refuses_iff.mpr hrefuses).2
        | later hreads htail =>
          exact .inr ⟨_, (Slot.reads_iff.mpr hreads).2, (ih hrest).mpr ⟨_, htail⟩⟩

/-- In the form that is chosen, every memory operand falls into its two parts. -/
theorem splitMemory?_ne_none_of_form? {op : Operation} {operands : List String}
    {form : List Slot} (h : op.form? operands = some form) {token : String}
    (htoken : (Slot.memory, token) ∈ form.zip operands) : splitMemory? token ≠ none := by
  obtain ⟨-, haccepts⟩ := Operation.form?_eq_some_iff.mp h
  have hshape : Shape.memory.Describes token :=
    (List.forall₂_iff_zip.mp (formAccepts_iff.mp haccepts)).2 htoken
  exact Option.isSome_iff_ne_none.mp (isSome_splitMemory?_iff.mpr hshape)

/-! ### Lines -/

/-- The cause of an error. -/
inductive Cause where
  /-- There is no token. -/
  | noToken
  /-- The first token is no mnemonic. -/
  | mnemonic
  /-- The operands fit no form of the operation. -/
  | form
  /-- The operand at a position fits the form and cannot be read. -/
  | operand (position : Nat)
deriving DecidableEq, Repr

/-- The causes for which tokens are refused, and the errors that report them. -/
inductive Rejects : List String → Cause → EncodeError → Prop where
  | noToken : Rejects [] .noToken (.unknownMnemonic "")
  | mnemonic {mnemonic : String} {operands : List String}
      (h : ∀ op : Operation, op.spelling ≠ mnemonic) :
      Rejects (mnemonic :: operands) .mnemonic (.unknownMnemonic mnemonic)
  | form {mnemonic : String} {operands : List String} {op : Operation}
      (hop : op.spelling = mnemonic) (h : ∀ form ∈ op.forms, ¬Fits form operands) :
      Rejects (mnemonic :: operands) .form (.noMatchingForm mnemonic)
  | operand {mnemonic : String} {operands : List String} {op : Operation} {form : List Slot}
      {position : Nat} {error : EncodeError} (hop : op.spelling = mnemonic)
      (hform : form ∈ op.forms) (hfits : Fits form operands)
      (h : RefusedAt form operands position error) :
      Rejects (mnemonic :: operands) (.operand position) error

/-- A name belongs to one operation. -/
theorem Operation.eq_of_spelling_eq {op other : Operation} {mnemonic : String}
    (h : op.spelling = mnemonic) (hother : other.spelling = mnemonic) : op = other := by
  have hfound := Operation.ofMnemonic?_eq_some_iff.mpr h
  rw [Operation.ofMnemonic?_eq_some_iff.mpr hother] at hfound
  exact (Option.some.inj hfound).symm

/-- Operands fit one form of an operation. -/
theorem Operation.eq_of_fits {op : Operation} {operands : List String} {form other : List Slot}
    (hform : form ∈ op.forms) (hfits : Fits form operands) (hother : other ∈ op.forms)
    (hfits' : Fits other operands) : form = other := by
  have hfound := Operation.form?_eq_some_iff.mpr ⟨hform, formAccepts_iff.mpr hfits⟩
  rw [Operation.form?_eq_some_iff.mpr ⟨hother, formAccepts_iff.mpr hfits'⟩] at hfound
  exact (Option.some.inj hfound).symm

/-- The tokens of a line have one cause to be refused, and one error. -/
theorem Rejects.unique {tokens : List String} {cause other : Cause} {error error' : EncodeError}
    (h : Rejects tokens cause error) (hother : Rejects tokens other error') :
    cause = other ∧ error = error' := by
  cases h with
  | noToken =>
    cases hother
    exact ⟨rfl, rfl⟩
  | mnemonic hnone =>
    cases hother with
    | mnemonic => exact ⟨rfl, rfl⟩
    | form hop | operand hop => exact absurd hop (hnone _)
  | form hop hnofit =>
    cases hother with
    | mnemonic hnone => exact absurd hop (hnone _)
    | form => exact ⟨rfl, rfl⟩
    | operand hop' hform hfits =>
      obtain rfl := Operation.eq_of_spelling_eq hop hop'
      exact absurd hfits (hnofit _ hform)
  | operand hop hform hfits hrefused =>
    cases hother with
    | mnemonic hnone => exact absurd hop (hnone _)
    | form hop' hnofit =>
      obtain rfl := Operation.eq_of_spelling_eq hop hop'
      exact absurd hfits (hnofit _ hform)
    | operand hop' hform' hfits' hrefused' =>
      -- The operation and the form are determined, so both causes look at the same slots.
      obtain rfl := Operation.eq_of_spelling_eq hop hop'
      obtain rfl := Operation.eq_of_fits hform hfits hform' hfits'
      obtain ⟨rfl, rfl⟩ := hrefused.unique hrefused'
      exact ⟨rfl, rfl⟩

/-- A statement that is refused has a cause. -/
theorem Statement.exists_rejects {mnemonic : String} {operands : List String}
    {error : EncodeError} (h : Statement.encode ⟨mnemonic, operands⟩ = .error error) :
    ∃ cause, Rejects (mnemonic :: operands) cause error := by
  unfold Statement.encode at h
  -- The stages in the order in which they can fail.
  cases hop : Operation.ofMnemonic? mnemonic with
  | none =>
    simp only [hop] at h
    cases h
    refine ⟨.mnemonic, .mnemonic ?_⟩
    intro op hmnemonic
    rw [Operation.ofMnemonic?_eq_some_iff.mpr hmnemonic] at hop
    cases hop
  | some op =>
    have hmnemonic := Operation.ofMnemonic?_eq_some_iff.mp hop
    simp only [hop] at h
    cases hform : op.form? operands with
    | none =>
      simp only [hform] at h
      cases h
      refine ⟨.form, .form hmnemonic ?_⟩
      intro form hmem hfits
      rw [Operation.form?_eq_some_iff.mpr ⟨hmem, formAccepts_iff.mpr hfits⟩] at hform
      cases hform
    | some form =>
      simp only [hform] at h
      obtain ⟨hmem, haccepts⟩ := Operation.form?_eq_some_iff.mp hform
      have hfits := formAccepts_iff.mp haccepts
      obtain ⟨position, hrefused⟩ := (encodeOperands_eq_error_iff hfits).mp h
      exact ⟨.operand position, .operand hmnemonic hmem hfits hrefused⟩

/-- A statement with a cause is refused. -/
theorem Statement.encode_eq_error_of_rejects {mnemonic : String} {operands : List String}
    {cause : Cause} {error : EncodeError} (h : Rejects (mnemonic :: operands) cause error) :
    Statement.encode ⟨mnemonic, operands⟩ = .error error := by
  unfold Statement.encode
  -- A cause names the stage that fails, and the stages before it succeed.
  cases h with
  | mnemonic hnone =>
    have hop : Operation.ofMnemonic? mnemonic = none := by
      refine Option.eq_none_iff_forall_ne_some.mpr ?_
      intro op hop
      exact hnone op (Operation.ofMnemonic?_eq_some_iff.mp hop)
    simp only [hop]
  | @form _ _ op hop hnofit =>
    have hform : op.form? operands = none := by
      refine Option.eq_none_iff_forall_ne_some.mpr ?_
      intro form hform
      obtain ⟨hmem, haccepts⟩ := Operation.form?_eq_some_iff.mp hform
      exact hnofit form hmem (formAccepts_iff.mp haccepts)
    simp only [Operation.ofMnemonic?_eq_some_iff.mpr hop, hform]
  | operand hop hform hfits hrefused =>
    have hfound := Operation.form?_eq_some_iff.mpr ⟨hform, formAccepts_iff.mpr hfits⟩
    simp only [Operation.ofMnemonic?_eq_some_iff.mpr hop, hfound]
    exact (encodeOperands_eq_error_iff hfits).mpr ⟨_, hrefused⟩

/-- The errors of a line. -/
theorem encode_eq_error_iff {line : String} {error : EncodeError} :
    encode line = .error error ↔ ∃ cause, Rejects (tokens line) cause error := by
  cases htokens : tokens line with
  -- A line without tokens has no statement to look at, and its own cause.
  | nil =>
    rw [encode_eq_of_tokens_eq_nil htokens]
    constructor
    · intro h
      cases h
      exact ⟨.noToken, .noToken⟩
    · rintro ⟨cause, ⟨⟩⟩
      rfl
  | cons mnemonic operands =>
    rw [encode_eq_of_tokens htokens]
    constructor
    · exact Statement.exists_rejects
    · rintro ⟨cause, h⟩
      exact Statement.encode_eq_error_of_rejects h

/-- A line is refused with the error of its cause, and for no other reason. The causes exclude
each other, and with them the positions of an operand. A memory operand that does not fall into
its parts is not among them, since no form with such an operand is chosen. -/
theorem encode_rejection (line : String) :
    (∀ error, encode line = .error error ↔ ∃ cause, Rejects (tokens line) cause error)
      ∧ (∀ cause other error error', Rejects (tokens line) cause error →
        Rejects (tokens line) other error' → cause = other ∧ error = error')
      ∧ ∀ (op : Operation) (operands : List String) (form : List Slot),
        op.form? operands = some form →
          ∀ token, (Slot.memory, token) ∈ form.zip operands → splitMemory? token ≠ none := by
  refine ⟨fun _ => encode_eq_error_iff, ?_, ?_⟩
  · intro cause other error error' h hother
    exact h.unique hother
  · intro op operands form hform token htoken
    exact splitMemory?_ne_none_of_form? hform htoken

/-- A load with a flaw in its offset, and a base that is no register. -/
theorem encode_rejection_base :
    encode "lw $t0, ff($nope)" = .error (.unknownRegister "$nope")
      ∧ Rejects (tokens "lw $t0, ff($nope)") (.operand 1) (.unknownRegister "$nope") := by
  have htokens : tokens "lw $t0, ff($nope)" = ["lw", "$t0", "ff($nope)"] := by decide +kernel
  have hflaw : SignedFlaw "ff" :=
    .plain (@UnsignedFlaw.letter ['f', 'f'] (List.all_eq_true.mp rfl) ⟨'f', by decide, by decide⟩)
  have hoffset : SignedShape "ff" := signedShape_iff.mpr (.inr hflaw)
  have hbase : RegisterShape "$nope" := isRegisterToken_iff.mp (by decide)
  have hfits : Fits [.rt, .memory] ["$t0", "ff($nope)"] :=
    .cons (isRegisterToken_iff.mp (by decide)) (.cons (.place hoffset hbase) .nil)
  -- The base is looked up before the offset is read, so its error is the one that is reported.
  have hrefused : RefusedAt [.rt, .memory] ["$t0", "ff($nope)"] 1 (.unknownRegister "$nope") :=
    .later ⟨8, .name 8, rfl⟩ (.here ⟨"ff", "$nope", rfl, hoffset, hbase, .inl ⟨by decide, rfl⟩⟩)
  have hop : Operation.spelling (.primary (.load .lw)) = "lw" := rfl
  have hrejects : Rejects (tokens "lw $t0, ff($nope)") (.operand 1) (.unknownRegister "$nope") := by
    rw [htokens]
    exact .operand hop (.head _) hfits hrefused
  exact ⟨((encode_rejection _).1 _).mpr ⟨_, hrejects⟩, hrejects⟩

end MiniMips
