import Mathlib.Data.List.Induction
import Mathlib.Data.Nat.Digits.Defs
import MiniMips.Proofs.Assembly.Encode
import MiniMips.Proofs.Assembly.Shape

/-!
# `MiniMips.Proofs.Assembly.FixedWidth`: literals in 64 bits

The value of a literal is an integer here, and its field takes the low bits of it. A machine
holds the value in 64 bits with a sign instead, negates it there, cuts it down to 32 bits and
masks these. `literal64`, `packLiteral` and `pack` say so, and whether this comes to the same
is a question of ranges.

The negation is where it can fail. The least of these values has no opposite in 64 bits, and
what stands behind a `0x` may have a sign of its own, so that `-0x-8000000000000000` asks for
one (`literal64_eq_overflow_iff`). No shape admits a second sign. So the encoder never reads
such a token, since it looks at the shapes first. The theorems:

* `natOfDigits_eq_ofDigits`: the value of digits by their places.
* `literal64_of_isSignedToken`: the value of a literal in 64 bits.
* `lowBits_ofInt`: the masked bits are a residue.
* `pack_eq`: lines are encoded in these bits as they are with integers.
* `literal_exact`: all of it.
-/

set_option autoImplicit false

namespace MiniMips

open Text

namespace Text

/-- The value of digits by their places, the last of which counts units. -/
theorem natOfDigits_eq_ofDigits (base : Nat) (digits : List Char) :
    natOfDigits base digits = Nat.ofDigits base (digits.reverse.map digitValue) := by
  -- The digits are read from the front and their places are counted from the end.
  induction digits using List.reverseRecOn with
  | nil => rfl
  | append_singleton digits c ih =>
    rw [natOfDigits_append_singleton, List.reverse_append, List.reverse_singleton,
      List.singleton_append, List.map_cons, Nat.ofDigits_cons, ih, Nat.mul_comm, Nat.add_comm]

end Text

/-! ### Numbers in 64 bits -/

/-- What ends the encoding of a line in words of a fixed size. -/
inductive Stop where
  /-- The line is refused. -/
  | refused (error : EncodeError)
  /-- The opposite of a number does not fit its bits. -/
  | overflow
deriving DecidableEq, Repr

/-- The opposite of a number, if it fits. -/
def negate64 (value : BitVec 64) : Except Stop (BitVec 64) :=
  if value.negOverflow then .error .overflow else .ok (-value)

/-- The value of a token, if it has one, in 64 bits. -/
def in64 (token : String) : Option Int → Except Stop (BitVec 64)
  | some value => .ok (BitVec.ofInt 64 value)
  | none => .error (.refused (.invalidLiteral token))

/-- The value of a literal, which is read in 64 bits and negated there. -/
def literal64 (token : String) : Except Stop (BitVec 64) :=
  match token.toList with
  | '-' :: body => (in64 token (literalBody? body)).bind negate64
  | body => in64 token (literalBody? body)

/-- The word with the lowest bits set. -/
def lowMask (width : Nat) : Word :=
  BitVec.ofNat 32 (2 ^ width - 1)

/-- The bits of a number under a mask. -/
def lowBits (value : BitVec 64) (mask : Word) : Word :=
  value.setWidth 32 &&& mask

/-- The bits of a literal under a mask. -/
def packLiteral (token : String) (mask : Word) : Except Stop Word :=
  (literal64 token).map fun value => lowBits value mask

/-! ### Lines in 64 bits -/

/-- The bits of the operand that a slot keeps. -/
def Slot.pack (slot : Slot) (token : String) : Except Stop Word :=
  match slot with
  | rd | rs | rt => (slot.encode token).mapError .refused
  | shamt => (packLiteral token (lowMask 5)).map fun bits : Word => bits <<< 6
  | target => packLiteral token (lowMask 26)
  | immediate => packLiteral token (lowMask 16)
  | memory =>
    match splitMemory? token with
    | none => .error (.refused (.invalidLiteral token))
    | some (offset, base) =>
      ((encodeRegister base).mapError .refused).bind fun r =>
        (packLiteral offset (lowMask 16)).map fun bits => fieldBits 21 r ||| bits

/-- The word with the bits of all operands added, from the first to the last. -/
def packOperands (word : Word) : List Slot → List String → Except Stop Word
  | slot :: slots, token :: tokens =>
    (slot.pack token).bind fun bits => packOperands (word ||| bits) slots tokens
  | _, _ => .ok word

/-- The word of a statement. -/
def Statement.pack (statement : Statement) : Except Stop Word :=
  match Operation.ofMnemonic? statement.mnemonic with
  | none => .error (.refused (.unknownMnemonic statement.mnemonic))
  | some op =>
    match op.form? statement.operands with
    | none => .error (.refused (.noMatchingForm statement.mnemonic))
    | some form => packOperands op.baseWord form statement.operands

/-- The word of a line. -/
def pack (line : String) : Except Stop Word :=
  match Statement.ofNormalized? (normalize line) with
  | none => .error (.refused (.unknownMnemonic ""))
  | some statement => statement.pack

/-! ### What is read behind a minus -/

/-- Digits without a sign. -/
private theorem range_of_digits {base : Nat} {digits : List Char} {value : Int}
    (h : ((natOfDigits? base digits).bind fun n => signed64? n) = some value) :
    0 ≤ value ∧ value < 2 ^ 63 := by
  obtain ⟨-, -, hbound, rfl⟩ := bind_signed64?_eq_some_iff.mp h
  omega

/-- What is read without its minus fits 64 bits. It can be below zero only behind a `0x`, where
it has a sign of its own. -/
theorem literalBody?_range {body : List Char} {value : Int} (h : literalBody? body = some value) :
    (0 ≤ value ∨ -2 ^ 63 ≤ value ∧ ∃ digits n, body = '0' :: 'x' :: '-' :: digits
        ∧ natOfDigits? 16 digits = some n ∧ value = -n)
      ∧ value < 2 ^ 63 := by
  unfold literalBody? hexBody? at h
  split at h
  · split at h
    · obtain ⟨hlow, hhigh⟩ := range_of_digits h
      exact ⟨.inl hlow, hhigh⟩
    · rename_i digits
      obtain ⟨n, hn, hvalue⟩ := Option.bind_eq_some_iff.mp h
      obtain ⟨⟨hlow, hhigh⟩, rfl⟩ := signed64?_eq_some_iff.mp hvalue
      exact ⟨.inr ⟨hlow, digits, n, rfl, hn, rfl⟩, hhigh⟩
    · obtain ⟨hlow, hhigh⟩ := range_of_digits h
      exact ⟨.inl hlow, hhigh⟩
  · obtain ⟨hlow, hhigh⟩ := range_of_digits h
    exact ⟨.inl hlow, hhigh⟩

/-- A negation overflows at the least value. -/
theorem negOverflow_ofInt_iff {value : Int} (hlow : -2 ^ 63 ≤ value) (hhigh : value < 2 ^ 63) :
    (BitVec.ofInt 64 value).negOverflow ↔ value = -2 ^ 63 := by
  rw [BitVec.negOverflow, beq_iff_eq, BitVec.toInt_ofInt_eq_self (by decide) hlow hhigh]

/-- A value that fits 64 bits does not come from an overflow. -/
theorem in64_ne_overflow (token : String) (value : Option Int) :
    in64 token value ≠ .error .overflow := by
  cases value <;> simp [in64]

/-- The tokens for which the negation overflows. -/
theorem literal64_eq_overflow_iff {token : String} :
    literal64 token = .error .overflow ↔
      ∃ digits, token.toList = '-' :: '0' :: 'x' :: '-' :: digits
        ∧ natOfDigits? 16 digits = some (2 ^ 63) := by
  unfold literal64
  constructor
  · intro h
    split at h
    · rename_i body htoken
      cases hbody : literalBody? body with
      | none => simp [hbody, in64, Except.bind] at h
      | some value =>
        obtain ⟨hlow, hhigh⟩ := literalBody?_range hbody
        simp only [hbody, in64, Except.bind, negate64] at h
        split at h
        · rename_i hoverflow
          have hvalue := (negOverflow_ofInt_iff (by omega) hhigh).mp hoverflow
          -- Only the least value cannot be negated, and a body below zero has a second sign
          -- behind its mark.
          rcases hlow with hnonneg | ⟨-, digits, n, rfl, hn, hsign⟩
          · omega
          · obtain rfl : n = 2 ^ 63 := by omega
            exact ⟨digits, htoken, hn⟩
        · cases h
    · exact absurd h (in64_ne_overflow _ _)
  · rintro ⟨digits, htoken, hn⟩
    have hbody : literalBody? ('0' :: 'x' :: '-' :: digits) = some (-2 ^ 63) := by
      show ((natOfDigits? 16 digits).bind fun n => signed64? (-n)) = _
      rw [hn]
      decide
    rw [htoken]
    simp only [hbody]
    show negate64 (BitVec.ofInt 64 (-2 ^ 63)) = _
    decide

/-- No shape admits such a token. -/
theorem not_accepts_of_overflow {token : String} (h : literal64 token = .error .overflow)
    (shape : Shape) : ¬shape.accepts token := by
  obtain ⟨digits, htoken, hn⟩ := literal64_eq_overflow_iff.mp h
  cases shape with
  | register => simp [Shape.accepts, htoken, isRegisterToken]
  | unsigned =>
    intro hshape
    exact ne_minus_of_isUnsignedToken hshape _ htoken
  | signed =>
    -- The second sign stands among the digits.
    have hdigit : ¬isHexDigit '-' := by decide
    simp [Shape.accepts, htoken, isSignedToken, dropMinus, isUnsignedToken, dropHexMark, hdigit]
  | memory =>
    -- And there is no parenthesis among them.
    intro hshape
    obtain ⟨⟨offset, base⟩, hsplit⟩ := Option.isSome_iff_exists.mp hshape
    obtain ⟨hparts, -, -⟩ := splitMemory?_eq_some_iff.mp hsplit
    have hmem : '(' ∈ token.toList := by
      rw [hparts]
      simp
    obtain ⟨-, hvalid, -⟩ := natOfDigits?_eq_some_iff.mp hn
    have hparen : '(' ∈ digits := by simpa [htoken] using hmem
    exact absurd (hvalid '(' hparen) (by decide)

/-! ### Literals of a shape -/

/-- A token of the unsigned shape has the signed shape. -/
theorem isSignedToken_of_isUnsignedToken {token : String} (h : isUnsignedToken token.toList) :
    isSignedToken token.toList :=
  isSignedToken_iff.mpr (.plain (isUnsignedToken_iff.mp h))

/-- The bound on a number is part of the grammar. -/
theorem UnsignedToken.lt {token : String} {n : Nat} (h : UnsignedToken token n) : n < 2 ^ 63 := by
  cases h with
  | decimal _ _ hbound => exact hbound
  | hexadecimal _ _ hbound => exact hbound

/-- The negation of a literal of the signed shape does not overflow. -/
theorem negate64_of_isUnsignedToken {body : List Char} (h : isUnsignedToken body) {value : Int}
    (hbody : literalBody? body = some value) :
    negate64 (BitVec.ofInt 64 value) = .ok (BitVec.ofInt 64 (-value)) := by
  -- Behind the minus stands a number without a sign.
  obtain ⟨n, hn, rfl⟩ := (literalBody?_eq_some_iff h).mp hbody
  have hlt := hn.lt
  have hfits : ¬(BitVec.ofInt 64 n).negOverflow := by
    rw [negOverflow_ofInt_iff (by omega) (by omega)]
    omega
  rw [negate64, if_neg hfits, BitVec.ofInt_neg]

/-- A literal of the signed shape has the same value in 64 bits. -/
theorem literal64_of_isSignedToken {token : String} (h : isSignedToken token.toList) :
    literal64 token = in64 token (literal? token) := by
  unfold literal64
  split
  · rename_i body htoken
    rw [htoken] at h
    rw [literal?_of_minus htoken]
    cases hbody : literalBody? body with
    | none => rfl
    | some value => exact negate64_of_isUnsignedToken h hbody
  · rename_i hminus
    rw [literal?_of_ne_minus hminus]

/-- The magnitude of a literal is at most the largest value of 64 bits with a sign. -/
theorem SignedToken.natAbs_le {token : String} {z : Int} (h : SignedToken token z) :
    z.natAbs ≤ 2 ^ 63 - 1 := by
  cases h with
  | plain body => exact Nat.le_pred_of_lt body.lt
  | minus body =>
    rw [Int.natAbs_neg]
    exact Nat.le_pred_of_lt body.lt

/-! ### Masks -/

variable {width : Nat}

/-- A residue modulo a larger power of two is enough for one modulo a smaller. -/
private theorem toNat_emod_two_pow (z : Int) {bits : Nat} (h : width ≤ bits) :
    (((z % (2 ^ bits : Nat)).toNat % 2 ^ width : Nat) : Int) = z % 2 ^ width := by
  have hpos : (0 : Int) < (2 ^ bits : Nat) := Int.natCast_pos.mpr (Nat.two_pow_pos bits)
  have hdvd : ((2 ^ width : Nat) : Int) ∣ (2 ^ bits : Nat) :=
    Int.natCast_dvd_natCast.mpr (Nat.pow_dvd_pow 2 h)
  rw [Int.natCast_emod, Int.toNat_of_nonneg (Int.emod_nonneg z (Int.ne_of_gt hpos)),
    Int.emod_emod_of_dvd z hdvd, Int.natCast_pow]
  rfl

/-- The masked bits of a number are its residue, whatever its sign and its size. -/
theorem toNat_lowBits (z : Int) (h : width ≤ 32) :
    ((lowBits (BitVec.ofInt 64 z) (lowMask width)).toNat : Int) = z % 2 ^ width := by
  have hmask : (lowMask width).toNat = 2 ^ width - 1 := by
    have hle : 2 ^ width ≤ 2 ^ 32 := Nat.pow_le_pow_right (by decide) h
    rw [lowMask, BitVec.toNat_ofNat]
    exact Nat.mod_eq_of_lt (by omega)
  rw [lowBits, BitVec.toNat_and, hmask, Nat.and_two_pow_sub_one_eq_mod, BitVec.toNat_setWidth,
    BitVec.toNat_ofInt, Nat.mod_mod_of_dvd _ (Nat.pow_dvd_pow 2 h),
    toNat_emod_two_pow z (show width ≤ 64 by omega)]

/-- They are the bits of a field of that width. -/
theorem lowBits_ofInt (z : Int) (h : width ≤ 32) :
    lowBits (BitVec.ofInt 64 z) (lowMask width) = fieldBits 0 (BitVec.ofInt width z) := by
  have hfield : (BitVec.ofInt width z).toNat < 2 ^ 32 :=
    Nat.lt_of_lt_of_le (BitVec.isLt _) (Nat.pow_le_pow_right (by decide) h)
  have hresidue : ((fieldBits 0 (BitVec.ofInt width z)).toNat : Int) = z % 2 ^ width := by
    rw [fieldBits, BitVec.shiftLeft_zero, BitVec.toNat_setWidth, Nat.mod_eq_of_lt hfield,
      ← Nat.mod_eq_of_lt (BitVec.isLt _), BitVec.toNat_ofInt, toNat_emod_two_pow z le_rfl]
  exact BitVec.eq_of_toNat_eq (Int.ofNat.inj ((toNat_lowBits z h).trans hresidue.symm))

/-- The masked bits of a literal are the field that it is encoded in. -/
theorem packLiteral_eq {token : String} (hshape : isSignedToken token.toList) (h : width ≤ 32) :
    packLiteral token (lowMask width)
      = ((encodeLiteral width token).map (fieldBits 0)).mapError .refused := by
  rw [packLiteral, literal64_of_isSignedToken hshape, encodeLiteral]
  cases literal? token with
  | none => rfl
  | some z =>
    show Except.ok (lowBits (BitVec.ofInt 64 z) (lowMask width)) = _
    rw [lowBits_ofInt z h]
    rfl

/-! ### Lines of the right shapes -/

/-- An operand of the right shape is encoded in 64 bits as it is with integers. -/
theorem Slot.pack_eq {slot : Slot} {token : String} (h : slot.shape.accepts token) :
    slot.pack token = (slot.encode token).mapError .refused := by
  cases slot with
  | rd | rs | rt => rfl
  -- Of a literal the low bits are packed in place, or moved into place afterwards.
  | shamt =>
    rw [pack, packLiteral_eq (isSignedToken_of_isUnsignedToken h) (by decide), encode]
    cases encodeLiteral 5 token with
    | error => rfl
    | ok field =>
      show Except.ok (fieldBits 0 field <<< 6) = Except.ok (fieldBits 6 field)
      rw [fieldBits, fieldBits, BitVec.shiftLeft_zero]
  | target => exact packLiteral_eq (isSignedToken_of_isUnsignedToken h) (by decide)
  | immediate => exact packLiteral_eq h (by decide)
  | memory =>
    obtain ⟨⟨offset, base⟩, hsplit⟩ := Option.isSome_iff_exists.mp h
    obtain ⟨-, hoffset, -⟩ := splitMemory?_eq_some_iff.mp hsplit
    simp only [pack, encode, hsplit, packLiteral_eq hoffset (show 16 ≤ 32 by decide)]
    cases encodeRegister base with
    | error => rfl
    | ok r =>
      cases encodeLiteral 16 offset with
      | error => rfl
      | ok field => rfl

/-- So are the operands of a form. -/
theorem packOperands_eq {form : List Slot} {operands : List String} {word : Word}
    (h : formAccepts form operands) :
    packOperands word form operands = (encodeOperands word form operands).mapError .refused := by
  induction form generalizing operands word with
  | nil => rfl
  | cons slot slots ih =>
    cases operands with
    | nil => cases h
    | cons token tokens =>
      rw [formAccepts, Bool.and_eq_true] at h
      rw [packOperands, encodeOperands, Slot.pack_eq h.1]
      cases slot.encode token with
      | error => rfl
      | ok bits => exact ih h.2

/-- And so is a statement, since a form is only chosen for operands of its shapes. -/
theorem Statement.pack_eq (statement : Statement) :
    statement.pack = statement.encode.mapError .refused := by
  unfold Statement.pack Statement.encode
  cases Operation.ofMnemonic? statement.mnemonic with
  | none => rfl
  | some op =>
    cases hform : op.form? statement.operands with
    | none =>
      simp only [hform]
      rfl
    | some form =>
      simp only [hform]
      exact packOperands_eq (Operation.form?_eq_some_iff.mp hform).2

/-- A line is packed as it is encoded, and an operand never overflows on the way. -/
theorem pack_eq (line : String) : pack line = (encode line).mapError .refused := by
  unfold pack encode
  cases Statement.ofNormalized? (normalize line) with
  | none => rfl
  | some statement => exact statement.pack_eq

/-- Reading a literal is exact on every token of a numeric shape. It has a value exactly when
its digits are decimal, or hexadecimal behind a `0x`, and their number is below `2 ^ 63`, and the
value is that number with its sign. So it fits 64 bits together with its opposite, and its bits
under a mask are its residue. On no line does the negation overflow: it does so only for tokens
that have no shape at all. -/
theorem literal_exact :
    (∀ token : String, Shape.signed.accepts token ∨ Shape.unsigned.accepts token →
      (∀ z, literal? token = some z ↔ SignedToken token z)
        ∧ (literal? token = none ↔ SignedFlaw token)
        ∧ literal64 token = in64 token (literal? token)
        ∧ ∀ z, literal? token = some z →
          z.natAbs ≤ 2 ^ 63 - 1
            ∧ (BitVec.ofInt 64 z).toInt = z
            ∧ ∀ width ≤ 32, ∃ bits, packLiteral token (lowMask width) = .ok bits
              ∧ (bits.toNat : Int) = z % 2 ^ width)
      ∧ (∀ line, pack line = (encode line).mapError .refused)
      ∧ (∀ token, literal64 token = .error .overflow → ∀ shape : Shape, ¬shape.accepts token)
      ∧ ∀ base digits,
        natOfDigits base digits = Nat.ofDigits base (digits.reverse.map digitValue) := by
  refine ⟨?_, pack_eq, fun _ => not_accepts_of_overflow, natOfDigits_eq_ofDigits⟩
  intro token hshape
  -- The sign is optional, so a token of the unsigned shape has the signed one.
  have hsigned : isSignedToken token.toList := by
    rcases hshape with hsigned | hunsigned
    · exact hsigned
    · exact isSignedToken_of_isUnsignedToken hunsigned
  have hsome : ∀ z, literal? token = some z ↔ SignedToken token z := by
    intro z
    rw [← literal?_eq_some_iff_signed]
    exact (and_iff_right hsigned).symm
  have hnone : literal? token = none ↔ SignedFlaw token := by
    rw [← literal?_eq_none_iff_signed]
    exact (and_iff_right hsigned).symm
  refine ⟨hsome, hnone, literal64_of_isSignedToken hsigned, ?_⟩
  intro z hz
  -- Nothing is lost in 64 bits, so masking the machine integer is masking the number.
  have hbound := ((hsome z).mp hz).natAbs_le
  refine ⟨hbound, BitVec.toInt_ofInt_eq_self (by decide) (by omega) (by omega), ?_⟩
  intro width hwidth
  refine ⟨lowBits (BitVec.ofInt 64 z) (lowMask width), ?_, toNat_lowBits z hwidth⟩
  rw [packLiteral, literal64_of_isSignedToken hsigned, hz]
  rfl

/-- The least value of a literal, behind leading zeros, and the number below it, which only a
second sign could write. -/
theorem literal_exact_least :
    Shape.signed.accepts "-0x007fffffffffffffff"
      ∧ literal? "-0x007fffffffffffffff" = some (-0x7fffffffffffffff)
      ∧ (∃ bits, packLiteral "-0x007fffffffffffffff" (lowMask 16) = .ok bits
        ∧ (bits.toNat : Int) = 1)
      ∧ literal64 "-0x-8000000000000000" = .error .overflow
      ∧ ∀ shape : Shape, ¬shape.accepts "-0x-8000000000000000" := by
  have hshape : Shape.signed.accepts "-0x007fffffffffffffff" := by decide +kernel
  have hvalue : literal? "-0x007fffffffffffffff" = some (-0x7fffffffffffffff) := by
    decide +kernel
  have hnegation : literal64 "-0x-8000000000000000" = .error .overflow := by decide +kernel
  obtain ⟨htokens, -, hoverflow, -⟩ := literal_exact
  obtain ⟨-, -, -, hvalues⟩ := htokens _ (.inl hshape)
  obtain ⟨-, -, hbits⟩ := hvalues _ hvalue
  exact ⟨hshape, hvalue, hbits 16 (by decide), hnegation, hoverflow _ hnegation⟩

end MiniMips
