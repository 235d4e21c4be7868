import Mathlib.Algebra.Group.Nat.Defs
import MiniMips.Assembly.Encode
import MiniMips.Instruction.Decode
import MiniMips.Proofs.Table

/-!
# `MiniMips.Proofs.Instruction.Layout`: the three formats of a word

A word is read by one of three formats, which its opcode selects. A format cuts the word
into fields that do not overlap and leave no bit out. `Layout` is a format with the
values of its fields. The theorems:

* `Layout.Holds.unique`: the fields of a format determine the word.
* `extractLsb'_fieldBits_self` and `extractLsb'_fieldBits_of_disjoint`: a field that is
  put into a word is found in its place, and nothing of it elsewhere.
* `Layout.holds_iff`: so every layout has exactly one word, `Layout.word`.
* `baseWord_register` and `baseWord_primary`: where the codes of an operation are kept.
* `Fields.operation?_eq_register_iff` and `Fields.operation?_eq_primary_iff`: the codes that
  select an operation.
-/

set_option autoImplicit false

namespace MiniMips

/-- A format of an instruction word with the values of its fields. -/
inductive Layout where
  /-- Opcode zero and a function code. -/
  | register (rs rt rd : Reg) (shamt : BitVec 5) (funct : BitVec 6)
  /-- Two registers and an immediate value. -/
  | immediate (opcode : BitVec 6) (rs rt : Reg) (value : BitVec 16)
  /-- A jump target. -/
  | target (opcode : BitVec 6) (value : BitVec 26)
deriving DecidableEq, Repr

/-- Whether the fields of a word are those of the layout. -/
def Layout.Holds (layout : Layout) (fields : Fields) : Prop :=
  match layout with
  | register rs rt rd shamt funct =>
    fields.opcode = 0 ∧ fields.rs = rs ∧ fields.rt = rt ∧ fields.rd = rd
      ∧ fields.shamt = shamt ∧ fields.funct = funct
  | immediate opcode rs rt value =>
    fields.opcode = opcode ∧ fields.rs = rs ∧ fields.rt = rt ∧ fields.immediate = value
  | target opcode value => fields.opcode = opcode ∧ fields.target = value

/-! ### The fields of a format determine the word -/

/-- The number of a field. -/
theorem toNat_extract (word : Word) (start len : Nat) :
    (word.extractLsb' start len).toNat = word.toNat / 2 ^ start % 2 ^ len := by
  rw [BitVec.extractLsb'_toNat, Nat.shiftRight_eq_div_pow]

/-- A word is determined by the six fields of the register format. -/
theorem eq_of_register_fields {v w : Word}
    (hopcode : (Fields.ofWord v).opcode = (Fields.ofWord w).opcode)
    (hrs : (Fields.ofWord v).rs = (Fields.ofWord w).rs)
    (hrt : (Fields.ofWord v).rt = (Fields.ofWord w).rt)
    (hrd : (Fields.ofWord v).rd = (Fields.ofWord w).rd)
    (hshamt : (Fields.ofWord v).shamt = (Fields.ofWord w).shamt)
    (hfunct : (Fields.ofWord v).funct = (Fields.ofWord w).funct) : v = w := by
  have hv := v.isLt
  have hw := w.isLt
  simp only [Fields.ofWord, ← BitVec.toNat_inj, toNat_extract] at *
  omega

/-- A word is determined by the four fields of the immediate format. -/
theorem eq_of_immediate_fields {v w : Word}
    (hopcode : (Fields.ofWord v).opcode = (Fields.ofWord w).opcode)
    (hrs : (Fields.ofWord v).rs = (Fields.ofWord w).rs)
    (hrt : (Fields.ofWord v).rt = (Fields.ofWord w).rt)
    (himmediate : (Fields.ofWord v).immediate = (Fields.ofWord w).immediate) : v = w := by
  have hv := v.isLt
  have hw := w.isLt
  simp only [Fields.ofWord, ← BitVec.toNat_inj, toNat_extract] at *
  omega

/-- A word is determined by the two fields of the jump format. -/
theorem eq_of_target_fields {v w : Word}
    (hopcode : (Fields.ofWord v).opcode = (Fields.ofWord w).opcode)
    (htarget : (Fields.ofWord v).target = (Fields.ofWord w).target) : v = w := by
  have hv := v.isLt
  have hw := w.isLt
  simp only [Fields.ofWord, ← BitVec.toNat_inj, toNat_extract] at *
  omega

/-- At most one word has a layout. -/
theorem Layout.Holds.unique {layout : Layout} {v w : Word}
    (hv : layout.Holds (Fields.ofWord v)) (hw : layout.Holds (Fields.ofWord w)) : v = w := by
  -- Each format spreads over all 32 bits, so two words that agree on its fields are one word.
  cases layout with
  | register rs rt rd shamt funct =>
    obtain ⟨hopcode, hrs, hrt, hrd, hshamt, hfunct⟩ := hv
    obtain ⟨hopcode', hrs', hrt', hrd', hshamt', hfunct'⟩ := hw
    exact eq_of_register_fields (hopcode.trans hopcode'.symm) (hrs.trans hrs'.symm)
      (hrt.trans hrt'.symm) (hrd.trans hrd'.symm) (hshamt.trans hshamt'.symm)
      (hfunct.trans hfunct'.symm)
  | immediate opcode rs rt value =>
    obtain ⟨hopcode, hrs, hrt, himmediate⟩ := hv
    obtain ⟨hopcode', hrs', hrt', himmediate'⟩ := hw
    exact eq_of_immediate_fields (hopcode.trans hopcode'.symm) (hrs.trans hrs'.symm)
      (hrt.trans hrt'.symm) (himmediate.trans himmediate'.symm)
  | target opcode value =>
    obtain ⟨hopcode, htarget⟩ := hv
    obtain ⟨hopcode', htarget'⟩ := hw
    exact eq_of_target_fields (hopcode.trans hopcode'.symm) (htarget.trans htarget'.symm)

/-! ### Fields put into a word -/

/-- A field is found where it was put. -/
theorem extractLsb'_fieldBits_self {width : Nat} (shift : Nat) (field : BitVec width)
    (h : shift + width ≤ 32) : (fieldBits shift field).extractLsb' shift width = field := by
  ext i hi
  simp [fieldBits, hi, show shift + i < 32 by omega]

/-- A field leaves no bits outside its place. -/
theorem extractLsb'_fieldBits_of_disjoint {width : Nat} (shift start len : Nat)
    (field : BitVec width) (h : shift + width ≤ start ∨ start + len ≤ shift) :
    (fieldBits shift field).extractLsb' start len = 0 := by
  ext i hi
  rcases h with h | h
  · have hbit : field.getLsbD (start + i - shift) = false :=
      BitVec.getLsbD_of_ge field _ (by omega)
    simp [fieldBits, hbit]
  · simp [fieldBits, show start + i < shift by omega]

/-- The word of a layout: each field in its place. -/
def Layout.word : Layout → Word
  | register rs rt rd shamt funct =>
    fieldBits 21 rs ||| fieldBits 16 rt ||| fieldBits 11 rd ||| fieldBits 6 shamt
      ||| fieldBits 0 funct
  | immediate opcode rs rt value =>
    fieldBits 26 opcode ||| fieldBits 21 rs ||| fieldBits 16 rt ||| fieldBits 0 value
  | target opcode value => fieldBits 26 opcode ||| fieldBits 0 value

/-- No field reaches into the place of another. -/
theorem Layout.holds_word (layout : Layout) : layout.Holds (Fields.ofWord layout.word) := by
  cases layout <;>
    simp (disch := decide) [Layout.word, Layout.Holds, Fields.ofWord, BitVec.extractLsb'_or,
      extractLsb'_fieldBits_self, extractLsb'_fieldBits_of_disjoint]

/-- The word of a layout is the one with its fields. -/
theorem Layout.holds_iff {layout : Layout} {word : Word} :
    layout.Holds (Fields.ofWord word) ↔ word = layout.word := by
  constructor
  · intro h
    exact h.unique layout.holds_word
  · rintro rfl
    exact layout.holds_word

/-! ### Codes -/

/-- The base word of an operation with opcode zero holds its function code. -/
theorem baseWord_register (op : RegisterOp) :
    (Operation.register op).baseWord = fieldBits 0 (BitVec.ofNat 6 op.code) := by
  rcases op with (_ | _ | _) | _ | _ | _ | _ | _ | _ | (_ | _ | _ | _ | _ | _ | _) <;> decide

/-- The base word of any other operation holds its opcode. -/
theorem baseWord_primary (op : PrimaryOp) :
    (Operation.primary op).baseWord = fieldBits 26 (BitVec.ofNat 6 op.code) := by
  rcases op with (_ | _ | _) | _ | _ | (_ | _ | _ | _ | _ | _ | _) | _ | (_ | _ | _) | (_ | _)
    <;> decide

/-- The list of the operations with opcode zero leaves none out. -/
theorem RegisterOp.mem_all (op : RegisterOp) : op ∈ RegisterOp.all := by
  rcases op with (_ | _ | _) | _ | _ | _ | _ | _ | _ | (_ | _ | _ | _ | _ | _ | _) <;> decide

/-- The list of the operations with an opcode of their own leaves none out. -/
theorem PrimaryOp.mem_all (op : PrimaryOp) : op ∈ PrimaryOp.all := by
  rcases op with (_ | _ | _) | _ | _ | (_ | _ | _ | _ | _ | _ | _) | _ | (_ | _ | _) | (_ | _)
    <;> decide

/-- The list of all operations leaves none out. -/
theorem Operation.mem_all (op : Operation) : op ∈ Operation.all := by
  cases op with
  | register op => exact List.mem_append_left _ (List.mem_map_of_mem op.mem_all)
  | primary op => exact List.mem_append_right _ (List.mem_map_of_mem op.mem_all)

/-- The list of opcodes leaves none out. -/
theorem Opcode.mem_all (opcode : Opcode) : opcode ∈ Opcode.all := by
  cases opcode with
  | registerFormat => exact List.mem_cons_self
  | primary op => exact List.mem_cons_of_mem _ (List.mem_map_of_mem op.mem_all)

/-- A function code belongs to at most one operation. -/
theorem RegisterOp.ofCode?_eq_some_iff {code : Nat} {op : RegisterOp} :
    RegisterOp.ofCode? code = some op ↔ op.code = code :=
  find?_key_eq_some_iff (by decide) op.mem_all

/-- A number is at most one opcode. -/
theorem Opcode.ofCode?_eq_some_iff {code : Nat} {opcode : Opcode} :
    Opcode.ofCode? code = some opcode ↔ opcode.code = code :=
  find?_key_eq_some_iff (by decide) opcode.mem_all

/-- Function codes fit their field of six bits. -/
private theorem RegisterOp.code_lt (op : RegisterOp) : op.code < 64 := by
  have h : ∀ op ∈ RegisterOp.all, op.code < 64 := by decide
  exact h op op.mem_all

/-- Opcodes fit their field of six bits. -/
private theorem Opcode.code_lt (opcode : Opcode) : opcode.code < 64 := by
  have h : ∀ opcode ∈ Opcode.all, opcode.code < 64 := by decide
  exact h opcode opcode.mem_all

/-- A code of six bits as a number. -/
private theorem eq_toNat_iff {code : Nat} (h : code < 64) (field : BitVec 6) :
    code = field.toNat ↔ field = BitVec.ofNat 6 code := by
  rw [← BitVec.toNat_inj, BitVec.toNat_ofNat, Nat.mod_eq_of_lt h]
  exact eq_comm

/-- An opcode is looked up by its field. -/
private theorem Opcode.ofCode?_toNat_eq_some_iff {field : BitVec 6} {opcode : Opcode} :
    Opcode.ofCode? field.toNat = some opcode ↔ field = BitVec.ofNat 6 opcode.code := by
  rw [Opcode.ofCode?_eq_some_iff, eq_toNat_iff opcode.code_lt]

/-- A function code is looked up by its field. -/
private theorem RegisterOp.ofCode?_toNat_eq_some_iff {field : BitVec 6} {op : RegisterOp} :
    RegisterOp.ofCode? field.toNat = some op ↔ field = BitVec.ofNat 6 op.code := by
  rw [RegisterOp.ofCode?_eq_some_iff, eq_toNat_iff op.code_lt]

/-- The fields that select an operation with opcode zero. -/
theorem Fields.operation?_eq_register_iff {fields : Fields} {op : RegisterOp} :
    fields.operation? = some (.register op) ↔
      fields.opcode = 0 ∧ fields.funct = BitVec.ofNat 6 op.code := by
  unfold Fields.operation?
  constructor
  · intro h
    -- No operation and a primary one are not of the register format, whatever the code.
    split at h
    · cases h
    · cases h
    · rename_i hformat
      obtain ⟨found, hfound, heq⟩ := Option.map_eq_some_iff.mp h
      cases heq
      exact ⟨Opcode.ofCode?_toNat_eq_some_iff.mp hformat,
        RegisterOp.ofCode?_toNat_eq_some_iff.mp hfound⟩
  · rintro ⟨hopcode, hfunct⟩
    have hformat : Opcode.ofCode? fields.opcode.toNat = some .registerFormat :=
      Opcode.ofCode?_toNat_eq_some_iff.mpr hopcode
    rw [hformat]
    show (RegisterOp.ofCode? fields.funct.toNat).map Operation.register = some (.register op)
    rw [RegisterOp.ofCode?_toNat_eq_some_iff.mpr hfunct]
    rfl

/-- The opcode that selects any other operation. -/
theorem Fields.operation?_eq_primary_iff {fields : Fields} {op : PrimaryOp} :
    fields.operation? = some (.primary op) ↔ fields.opcode = BitVec.ofNat 6 op.code := by
  rw [show op.code = (Opcode.primary op).code from rfl, ← Opcode.ofCode?_toNat_eq_some_iff]
  unfold Fields.operation?
  constructor
  · intro h
    split at h
    · cases h
    · rename_i hprimary
      cases h
      exact hprimary
    · obtain ⟨found, -, heq⟩ := Option.map_eq_some_iff.mp h
      cases heq
  · intro hprimary
    rw [hprimary]

/-- The word of zeros is a shift. -/
theorem operation?_zero : (Fields.ofWord 0).operation? = some (.register (.shift .sll)) := by
  decide

/-- A word is decoded as the operation that its fields select. -/
theorem decode_eq_ok_iff {word : Word} {instruction : Instruction} :
    decode word = .ok instruction ↔
      instruction.fields = .ofWord word
        ∧ (Fields.ofWord word).operation? = some instruction.operation := by
  unfold decode
  constructor
  · intro h
    split at h
    · rename_i operation hoperation
      cases h
      exact ⟨rfl, hoperation⟩
    · cases h
  · rintro ⟨hfields, hoperation⟩
    rw [hoperation, ← hfields]

/-- A word with the codes of an operation is decoded to it. -/
theorem decode_of_operation? {word : Word} {op : Operation}
    (h : (Fields.ofWord word).operation? = some op) : decode word = .ok ⟨op, .ofWord word⟩ :=
  decode_eq_ok_iff.mpr ⟨rfl, h⟩

end MiniMips
