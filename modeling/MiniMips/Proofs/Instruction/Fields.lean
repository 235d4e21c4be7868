import Mathlib.Algebra.Group.Int.Defs
import MiniMips.Proofs.Assembly.RoundTrip

/-!
# `MiniMips.Proofs.Instruction.Fields`: a word as the sum of its fields

A word is a number in 32 binary digits, and each of its three formats cuts these digits into
groups. So in each format the word is the sum of its fields at their places, and every choice
of fields is the choice of one word. `registerSum`, `immediateSum` and `targetSum` are these
sums, over numbers and without bits.

A machine has no values of five or six bits. It shifts a word, masks it and keeps the rest in a
whole byte, where a mask that is too wide would show as a field out of range. `WideFields` are
the fields held this way, and they come to the same numbers. The theorems:

* `toNat_eq_registerSum_iff`, `toNat_eq_immediateSum_iff`, `toNat_eq_targetSum_iff`: a word is
  the sum of some fields exactly when they are its own.
* `ofWord_registerSum`, `ofWord_immediateSum`, `ofWord_targetSum`: every choice of fields is
  found again in its sum.
* `Layout.toNat_word`: packing fields by their bits is adding them up.
* `WideFields.ofWord_eq`, `WideFields.inRange_ofWord`: the masked fields.
* `Fields.signedValue`: an immediate value, as it is extended and as it is printed.
* `fields_lossless`: all of it.
-/

set_option autoImplicit false

namespace MiniMips

/-! ### Sums of fields -/

/-- The number of a word in the register format. -/
def registerSum (opcode rs rt rd shamt funct : Nat) : Nat :=
  opcode * 2 ^ 26 + rs * 2 ^ 21 + rt * 2 ^ 16 + rd * 2 ^ 11 + shamt * 2 ^ 6 + funct

/-- The number of a word with two registers and an immediate value. -/
def immediateSum (opcode rs rt value : Nat) : Nat :=
  opcode * 2 ^ 26 + rs * 2 ^ 21 + rt * 2 ^ 16 + value

/-- The number of a word with a jump target. -/
def targetSum (opcode value : Nat) : Nat :=
  opcode * 2 ^ 26 + value

section Sums

variable {word : Word} {opcode funct : BitVec 6} {rs rt rd : Reg} {shamt : BitVec 5}
  {immediate : BitVec 16} {target : BitVec 26}

/-- A number is the sum of the six fields of a format exactly if these are the fields of the
word. -/
theorem toNat_eq_registerSum_iff :
    word.toNat = registerSum opcode.toNat rs.toNat rt.toNat rd.toNat shamt.toNat funct.toNat
      ↔ (Fields.ofWord word).opcode = opcode ∧ (Fields.ofWord word).rs = rs
        ∧ (Fields.ofWord word).rt = rt ∧ (Fields.ofWord word).rd = rd
        ∧ (Fields.ofWord word).shamt = shamt ∧ (Fields.ofWord word).funct = funct := by
  have hword := word.isLt
  have hopcode := opcode.isLt
  have hrs := rs.isLt
  have hrt := rt.isLt
  have hrd := rd.isLt
  have hshamt := shamt.isLt
  have hfunct := funct.isLt
  simp only [registerSum, Fields.ofWord, ← BitVec.toNat_inj, toNat_extract]
  omega

/-- The same for the four fields of the format with an immediate value. -/
theorem toNat_eq_immediateSum_iff :
    word.toNat = immediateSum opcode.toNat rs.toNat rt.toNat immediate.toNat
      ↔ (Fields.ofWord word).opcode = opcode ∧ (Fields.ofWord word).rs = rs
        ∧ (Fields.ofWord word).rt = rt ∧ (Fields.ofWord word).immediate = immediate := by
  have hword := word.isLt
  have hopcode := opcode.isLt
  have hrs := rs.isLt
  have hrt := rt.isLt
  have himmediate := immediate.isLt
  simp only [immediateSum, Fields.ofWord, ← BitVec.toNat_inj, toNat_extract]
  omega

/-- The same for the two fields of the format with a jump target. -/
theorem toNat_eq_targetSum_iff :
    word.toNat = targetSum opcode.toNat target.toNat
      ↔ (Fields.ofWord word).opcode = opcode ∧ (Fields.ofWord word).target = target := by
  have hword := word.isLt
  have hopcode := opcode.isLt
  have htarget := target.isLt
  simp only [targetSum, Fields.ofWord, ← BitVec.toNat_inj, toNat_extract]
  omega

end Sums

/-- Whether the fields add up to a word in all three formats. -/
structure Fields.SumTo (fields : Fields) (word : Word) : Prop where
  register : word.toNat = registerSum fields.opcode.toNat fields.rs.toNat fields.rt.toNat
    fields.rd.toNat fields.shamt.toNat fields.funct.toNat
  immediate : word.toNat = immediateSum fields.opcode.toNat fields.rs.toNat fields.rt.toNat
    fields.immediate.toNat
  target : word.toNat = targetSum fields.opcode.toNat fields.target.toNat

/-- The fields of a word add up to it. -/
theorem Fields.sumTo_ofWord (word : Word) : (ofWord word).SumTo word where
  register := toNat_eq_registerSum_iff.mpr ⟨rfl, rfl, rfl, rfl, rfl, rfl⟩
  immediate := toNat_eq_immediateSum_iff.mpr ⟨rfl, rfl, rfl, rfl⟩
  target := toNat_eq_targetSum_iff.mpr ⟨rfl, rfl⟩

/-! ### Every choice of fields -/

/-- The sum of any six values is a word with these values in its fields. -/
theorem ofWord_registerSum (opcode : BitVec 6) (rs rt rd : Reg) (shamt : BitVec 5)
    (funct : BitVec 6) :
    let fields := Fields.ofWord (BitVec.ofNat 32 (registerSum opcode.toNat rs.toNat rt.toNat
      rd.toNat shamt.toNat funct.toNat))
    fields.opcode = opcode ∧ fields.rs = rs ∧ fields.rt = rt ∧ fields.rd = rd
      ∧ fields.shamt = shamt ∧ fields.funct = funct := by
  -- Fields in range do not carry, so the sum fits a word.
  have hfits : registerSum opcode.toNat rs.toNat rt.toNat rd.toNat shamt.toNat
      funct.toNat < 2 ^ 32 := by
    simp only [registerSum]
    omega
  exact toNat_eq_registerSum_iff.mp ((BitVec.toNat_ofNat _ 32).trans (Nat.mod_eq_of_lt hfits))

/-- The sum of any four values of the format with an immediate value is a word with these
values in its fields. -/
theorem ofWord_immediateSum (opcode : BitVec 6) (rs rt : Reg) (immediate : BitVec 16) :
    let fields := Fields.ofWord (BitVec.ofNat 32 (immediateSum opcode.toNat rs.toNat rt.toNat
      immediate.toNat))
    fields.opcode = opcode ∧ fields.rs = rs ∧ fields.rt = rt
      ∧ fields.immediate = immediate := by
  have hfits : immediateSum opcode.toNat rs.toNat rt.toNat immediate.toNat < 2 ^ 32 := by
    simp only [immediateSum]
    omega
  exact toNat_eq_immediateSum_iff.mp ((BitVec.toNat_ofNat _ 32).trans (Nat.mod_eq_of_lt hfits))

/-- The sum of an opcode and a jump target is a word with both in its fields. -/
theorem ofWord_targetSum (opcode : BitVec 6) (target : BitVec 26) :
    let fields := Fields.ofWord (BitVec.ofNat 32 (targetSum opcode.toNat target.toNat))
    fields.opcode = opcode ∧ fields.target = target := by
  have hfits : targetSum opcode.toNat target.toNat < 2 ^ 32 := by
    simp only [targetSum]
    omega
  exact toNat_eq_targetSum_iff.mp ((BitVec.toNat_ofNat _ 32).trans (Nat.mod_eq_of_lt hfits))

/-! ### Packed fields -/

/-- The sum of the fields of a layout. -/
def Layout.number : Layout → Nat
  | register rs rt rd shamt funct =>
    registerSum 0 rs.toNat rt.toNat rd.toNat shamt.toNat funct.toNat
  | immediate opcode rs rt value =>
    immediateSum opcode.toNat rs.toNat rt.toNat value.toNat
  | target opcode value => targetSum opcode.toNat value.toNat

/-- The word of a layout, whose fields are laid over each other, is their sum. -/
theorem Layout.toNat_word (layout : Layout) : layout.word.toNat = layout.number := by
  have hholds := layout.holds_word
  cases layout with
  | register =>
    have hsum := toNat_eq_registerSum_iff.mpr hholds
    exact hsum
  | immediate => exact toNat_eq_immediateSum_iff.mpr hholds
  | target => exact toNat_eq_targetSum_iff.mpr hholds

/-! ### Fields behind masks -/

/-- The fields of a word in values of 8, 16 and 32 bits. -/
structure WideFields where
  opcode : BitVec 8
  rs : BitVec 8
  rt : BitVec 8
  rd : BitVec 8
  shamt : BitVec 8
  funct : BitVec 8
  immediate : BitVec 16
  target : BitVec 32
deriving DecidableEq, Repr

/-- The bits of a word from a position on, masked and then kept in `width` bits. -/
def maskedBits (word : Word) (start : Nat) (mask : Word) (width : Nat) : BitVec width :=
  (word >>> start &&& mask).setWidth width

/-- A mask of the lowest bits leaves a field. -/
theorem maskedBits_eq (word : Word) (start : Nat) {mask : Word} {len : Nat}
    (hmask : mask.toNat = 2 ^ len - 1) (width : Nat) :
    maskedBits word start mask width = (word.extractLsb' start len).setWidth width := by
  refine BitVec.eq_of_toNat_eq ?_
  rw [maskedBits, BitVec.toNat_setWidth, BitVec.toNat_and, hmask, Nat.and_two_pow_sub_one_eq_mod,
    BitVec.toNat_ushiftRight, BitVec.toNat_setWidth, BitVec.extractLsb'_toNat]

namespace WideFields

/-- The fields of a word. The opcode needs no mask, since nothing stands above it. -/
def ofWord (word : Word) : WideFields where
  opcode := (word >>> 26).setWidth 8
  rs := maskedBits word 21 0x1F 8
  rt := maskedBits word 16 0x1F 8
  rd := maskedBits word 11 0x1F 8
  shamt := maskedBits word 6 0x1F 8
  funct := maskedBits word 0 0x3F 8
  immediate := maskedBits word 0 0xFFFF 16
  target := maskedBits word 0 0x03FFFFFF 32

/-- Fields in values that are wide enough for them. -/
def ofFields (fields : Fields) : WideFields where
  opcode := fields.opcode.setWidth 8
  rs := fields.rs.setWidth 8
  rt := fields.rt.setWidth 8
  rd := fields.rd.setWidth 8
  shamt := fields.shamt.setWidth 8
  funct := fields.funct.setWidth 8
  immediate := fields.immediate
  target := fields.target.setWidth 32

/-- Whether every field fits its bits. -/
structure InRange (fields : WideFields) : Prop where
  opcode : fields.opcode.toNat < 64
  rs : fields.rs.toNat < 32
  rt : fields.rt.toNat < 32
  rd : fields.rd.toNat < 32
  shamt : fields.shamt.toNat < 32
  funct : fields.funct.toNat < 64
  target : fields.target.toNat < 2 ^ 26

/-- Fields in wider integers are still as small as the fields that they come from. -/
theorem inRange_ofFields (fields : Fields) : (ofFields fields).InRange := by
  constructor <;> simp only [ofFields, BitVec.toNat_setWidth] <;> omega

/-- The highest bits are a field without a mask. -/
private theorem opcode_eq (word : Word) :
    (word >>> 26).setWidth 8 = (word.extractLsb' 26 6).setWidth 8 := by
  have hword := word.isLt
  refine BitVec.eq_of_toNat_eq ?_
  rw [BitVec.toNat_setWidth, BitVec.toNat_setWidth, toNat_extract, BitVec.toNat_ushiftRight,
    Nat.shiftRight_eq_div_pow]
  omega

/-- The masked fields are the fields. -/
theorem ofWord_eq (word : Word) : ofWord word = ofFields (Fields.ofWord word) := by
  simp only [ofWord, ofFields, Fields.ofWord, opcode_eq,
    maskedBits_eq word _ (show (0x1F : Word).toNat = 2 ^ 5 - 1 from rfl),
    maskedBits_eq word _ (show (0x3F : Word).toNat = 2 ^ 6 - 1 from rfl),
    maskedBits_eq word _ (show (0xFFFF : Word).toNat = 2 ^ 16 - 1 from rfl),
    maskedBits_eq word _ (show (0x03FFFFFF : Word).toNat = 2 ^ 26 - 1 from rfl),
    BitVec.setWidth_eq]

/-- So fields that are shifted and masked out of a word stay below the power of two of their
width. -/
theorem inRange_ofWord (word : Word) : (ofWord word).InRange := by
  rw [ofWord_eq]
  exact inRange_ofFields _

end WideFields

/-! ### Immediate values -/

/-- What a signed number is to the immediate value of some fields: it is what the text of the
field says, its residue modulo `2 ^ 16` is the field, and its residue modulo `2 ^ 32` is what the
field is extended to. -/
structure Fields.SignedValue (fields : Fields) (value : Int) : Prop where
  bounds : -2 ^ 15 ≤ value ∧ value < 2 ^ 15
  text : SignedToken (Slot.immediate.text fields) value
  offsetText : MemoryToken (Slot.memory.text fields) value fields.rs
  field : (fields.immediate.toNat : Int) = value % 2 ^ 16
  extended : (fields.signedImmediate.toNat : Int) = value % 2 ^ 32

/-- An immediate value is one signed number, in the field, in the text and in every
computation. -/
theorem Fields.signedValue (fields : Fields) : fields.SignedValue fields.immediate.toInt where
  bounds := ⟨BitVec.le_toInt fields.immediate, BitVec.toInt_lt⟩
  text := fields.signedToken_immediate
  offsetText := fields.memoryToken
  field := by
    have hfield := BitVec.toNat_ofInt (n := 16) fields.immediate.toInt
    rw [BitVec.ofInt_toInt] at hfield
    omega
  extended := by
    have hextended := BitVec.toNat_ofInt (n := 32) fields.immediate.toInt
    rw [signedImmediate, BitVec.signExtend, hextended]
    omega

/-- Cutting a word into fields loses nothing and keeps every field in its range. In each format
the fields add up to the word, and every choice of fields is found again in its sum, which is
also what packing them gives. The immediate value is printed as the signed number that it is
extended by. -/
theorem fields_lossless :
    (∀ word, (Fields.ofWord word).SumTo word
      ∧ WideFields.ofWord word = .ofFields (Fields.ofWord word)
      ∧ (WideFields.ofWord word).InRange
      ∧ (Fields.ofWord word).SignedValue (Fields.ofWord word).immediate.toInt)
    ∧ (∀ (opcode : BitVec 6) (rs rt rd : Reg) (shamt : BitVec 5) (funct : BitVec 6),
      let fields := Fields.ofWord (BitVec.ofNat 32 (registerSum opcode.toNat rs.toNat rt.toNat
        rd.toNat shamt.toNat funct.toNat))
      fields.opcode = opcode ∧ fields.rs = rs ∧ fields.rt = rt ∧ fields.rd = rd
        ∧ fields.shamt = shamt ∧ fields.funct = funct)
    ∧ (∀ (opcode : BitVec 6) (rs rt : Reg) (immediate : BitVec 16),
      let fields := Fields.ofWord (BitVec.ofNat 32 (immediateSum opcode.toNat rs.toNat rt.toNat
        immediate.toNat))
      fields.opcode = opcode ∧ fields.rs = rs ∧ fields.rt = rt ∧ fields.immediate = immediate)
    ∧ (∀ (opcode : BitVec 6) (target : BitVec 26),
      let fields := Fields.ofWord (BitVec.ofNat 32 (targetSum opcode.toNat target.toNat))
      fields.opcode = opcode ∧ fields.target = target)
    ∧ ∀ layout : Layout, layout.word.toNat = layout.number := by
  refine ⟨?_, ofWord_registerSum, ofWord_immediateSum, ofWord_targetSum, Layout.toNat_word⟩
  intro word
  exact ⟨Fields.sumTo_ofWord word, WideFields.ofWord_eq word, WideFields.inRange_ofWord word,
    (Fields.ofWord word).signedValue⟩

end MiniMips
