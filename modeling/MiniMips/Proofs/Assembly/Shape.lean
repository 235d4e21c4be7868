import MiniMips.Proofs.Assembly.Operand

/-!
# `MiniMips.Proofs.Assembly.Shape`: shapes of tokens, and literals without a value

The shape of a token is said here without the functions that look for it. A register or a
literal of the right shape can still mean nothing. For literals the two reasons are written
out: hexadecimal letters without a `0x`, and a number that does not fit 64 bits with a sign
(`UnsignedFlaw`, `SignedFlaw`). Shape, value and flaw fit together,

    UnsignedShape token ↔ (∃ n, UnsignedToken token n) ∨ UnsignedFlaw token

and no token has both a value and a flaw. The theorems:

* `Shape.accepts_iff`: the shapes are what their tests accept.
* `unsignedShape_iff`, `signedShape_iff`: a literal has a value or a flaw.
* `literal?_eq_none_iff_unsigned` and `literal?_eq_none_iff_signed`: so the literals without a
  value are those with a flaw.
-/

set_option autoImplicit false

namespace MiniMips

open Text

/-! ### Shapes -/

/-- `$` and at least one letter, digit or underscore of ASCII. -/
inductive RegisterShape : String → Prop where
  | name {chars : List Char} (nonempty : chars ≠ [])
      (valid : ∀ c ∈ chars, c.isAlphanum ∨ c = '_') : RegisterShape ("$" ++ String.ofList chars)

/-- At least one hexadecimal digit, after an optional `0x`. -/
inductive UnsignedShape : String → Prop where
  | plain {digits : List Char} (nonempty : digits ≠ []) (valid : ∀ c ∈ digits, isHexDigit c) :
      UnsignedShape (String.ofList digits)
  | hexadecimal {digits : List Char} (nonempty : digits ≠ [])
      (valid : ∀ c ∈ digits, isHexDigit c) : UnsignedShape ("0x" ++ String.ofList digits)

/-- The unsigned shape after an optional `-`. -/
inductive SignedShape : String → Prop where
  | plain {token : String} (body : UnsignedShape token) : SignedShape token
  | minus {token : String} (body : UnsignedShape token) : SignedShape ("-" ++ token)

/-- The signed shape with the register shape in parentheses behind it. -/
inductive MemoryShape : String → Prop where
  | place {offset base : String} (hoffset : SignedShape offset) (hbase : RegisterShape base) :
      MemoryShape (offset ++ "(" ++ base ++ ")")

/-- The tokens of a shape. -/
def Shape.Describes : Shape → String → Prop
  | register => RegisterShape
  | unsigned => UnsignedShape
  | signed => SignedShape
  | memory => MemoryShape

/-- The tokens of the register shape are those of its description. -/
theorem isRegisterToken_iff {token : String} :
    isRegisterToken token.toList ↔ RegisterShape token := by
  constructor
  · intro h
    unfold isRegisterToken at h
    split at h
    · rename_i chars hchars
      -- The description builds the token from its characters, so the token is taken apart
      -- first.
      have htoken : token = "$" ++ String.ofList chars := by
        simp [← String.toList_inj, hchars]
      rw [htoken]
      simp only [Bool.and_eq_true, Bool.not_eq_true', List.isEmpty_eq_false_iff, List.all_eq_true,
        isWordChar, Bool.or_eq_true, beq_iff_eq] at h
      exact .name h.1 h.2
    · cases h
  · rintro ⟨hne, hvalid⟩
    simpa [isRegisterToken, isWordChar] using And.intro hne hvalid

/-- Digits do not start with `0x`. -/
private theorem ne_hexMark_of_isHexDigit {digits : List Char}
    (valid : ∀ c ∈ digits, isHexDigit c) : ∀ ds, digits ≠ '0' :: 'x' :: ds := by
  rintro ds rfl
  exact absurd (valid 'x' (by simp)) (by decide)

/-- The tokens of the unsigned shape are those of its description. A mark without digits behind
it is no such token, and the digits of one without a mark start with no mark. -/
theorem isUnsignedToken_iff {token : String} :
    isUnsignedToken token.toList ↔ UnsignedShape token := by
  simp only [isUnsignedToken, Bool.and_eq_true, List.all_eq_true, Bool.not_eq_true',
    List.isEmpty_eq_false_iff]
  constructor
  · rintro ⟨hne, hvalid⟩
    -- The mark is dropped if it is there, and the digits of the other tokens start with no
    -- mark.
    by_cases hmark : ∃ ds, token.toList = '0' :: 'x' :: ds
    · obtain ⟨digits, hdigits⟩ := hmark
      have htoken : token = "0x" ++ String.ofList digits := by
        simp [← String.toList_inj, hdigits]
      rw [hdigits] at hne hvalid
      rw [htoken]
      exact .hexadecimal hne hvalid
    · rw [dropHexMark_of_ne (not_exists.mp hmark)] at hne hvalid
      rw [← String.ofList_toList (s := token)]
      exact .plain hne hvalid
  · intro h
    cases h with
    | plain hne hvalid =>
      rw [String.toList_ofList, dropHexMark_of_ne (ne_hexMark_of_isHexDigit hvalid)]
      exact ⟨hne, hvalid⟩
    | @hexadecimal digits hne hvalid =>
      have hlist : ("0x" ++ String.ofList digits).toList = '0' :: 'x' :: digits := by simp
      rw [hlist]
      exact ⟨hne, hvalid⟩

/-- A token of the unsigned shape does not start with a minus. -/
theorem UnsignedShape.ne_minus {token : String} (h : UnsignedShape token) :
    ∀ ds, token.toList ≠ '-' :: ds :=
  ne_minus_of_isUnsignedToken (isUnsignedToken_iff.mpr h)

/-- The tokens of the signed shape are those of its description, since no token without a sign
starts with a minus. -/
theorem isSignedToken_iff {token : String} :
    isSignedToken token.toList ↔ SignedShape token := by
  constructor
  · intro h
    unfold isSignedToken dropMinus at h
    split at h
    · rename_i rest hrest
      have htoken : token = "-" ++ String.ofList rest := by
        simp [← String.toList_inj, hrest]
      rw [← String.toList_ofList (l := rest), isUnsignedToken_iff] at h
      rw [htoken]
      exact .minus h
    · exact .plain (isUnsignedToken_iff.mp h)
  · intro h
    cases h with
    -- A token without a sign is not taken for one with a sign.
    | plain body =>
      unfold isSignedToken dropMinus
      split
      · rename_i rest hrest
        exact absurd hrest (body.ne_minus rest)
      · exact isUnsignedToken_iff.mpr body
    | @minus rest body =>
      have hlist : ("-" ++ rest).toList = '-' :: rest.toList := by simp
      rw [hlist]
      exact isUnsignedToken_iff.mpr body

/-- A token falls into the parts of a memory operand exactly if it is made of such parts. -/
theorem isSome_splitMemory?_iff {token : String} :
    (splitMemory? token).isSome ↔ MemoryShape token := by
  rw [Option.isSome_iff_exists]
  constructor
  · rintro ⟨⟨offset, base⟩, hsplit⟩
    obtain ⟨rfl, hoffset, hbase⟩ := splitMemory?_eq_some_iff.mp hsplit
    exact .place (isSignedToken_iff.mp hoffset) (isRegisterToken_iff.mp hbase)
  · rintro ⟨hoffset, hbase⟩
    exact ⟨_, splitMemory?_eq_some_iff.mpr
      ⟨rfl, isSignedToken_iff.mpr hoffset, isRegisterToken_iff.mpr hbase⟩⟩

/-- The shapes are what their tests accept. -/
theorem Shape.accepts_iff {shape : Shape} {token : String} :
    shape.accepts token ↔ shape.Describes token := by
  cases shape with
  | register => exact isRegisterToken_iff
  | unsigned => exact isUnsignedToken_iff
  | signed => exact isSignedToken_iff
  | memory => exact isSome_splitMemory?_iff

/-! ### Literals without a value -/

/-- A token of the unsigned shape that is no number. -/
inductive UnsignedFlaw : String → Prop where
  /-- It has a hexadecimal letter and no `0x`. -/
  | letter {digits : List Char} (valid : ∀ c ∈ digits, isHexDigit c)
      (hletter : ∃ c ∈ digits, ¬c.isDigit) : UnsignedFlaw (String.ofList digits)
  | decimal {digits : List Char} (valid : ∀ c ∈ digits, c.isDigit)
      (bound : 2 ^ 63 ≤ natOfDigits 10 digits) : UnsignedFlaw (String.ofList digits)
  | hexadecimal {digits : List Char} (valid : ∀ c ∈ digits, isHexDigit c)
      (bound : 2 ^ 63 ≤ natOfDigits 16 digits) : UnsignedFlaw ("0x" ++ String.ofList digits)

/-- The same after an optional `-`, so the bound is one of the magnitude. -/
inductive SignedFlaw : String → Prop where
  | plain {token : String} (body : UnsignedFlaw token) : SignedFlaw token
  | minus {token : String} (body : UnsignedFlaw token) : SignedFlaw ("-" ++ token)

/-- A large number has digits. -/
private theorem ne_nil_of_bound {base : Nat} {digits : List Char}
    (bound : 2 ^ 63 ≤ natOfDigits base digits) : digits ≠ [] := by
  rintro rfl
  have hzero : natOfDigits base [] = 0 := rfl
  omega

/-- A token of the unsigned shape has a value or a flaw. -/
theorem unsignedShape_iff {token : String} :
    UnsignedShape token ↔ (∃ n, UnsignedToken token n) ∨ UnsignedFlaw token := by
  constructor
  · intro h
    cases h with
    | @plain digits hne hvalid =>
      -- Without a mark the digits are decimal, so a letter is a flaw however small the number is.
      by_cases hletter : ∃ c ∈ digits, ¬c.isDigit
      · exact .inr (.letter hvalid hletter)
      · have hdigits : ∀ c ∈ digits, c.isDigit := by simpa using hletter
        rcases Nat.lt_or_ge (natOfDigits 10 digits) (2 ^ 63) with hlt | hge
        · exact .inl ⟨_, .decimal hne hdigits hlt⟩
        · exact .inr (.decimal hdigits hge)
    | @hexadecimal digits hne hvalid =>
      rcases Nat.lt_or_ge (natOfDigits 16 digits) (2 ^ 63) with hlt | hge
      · exact .inl ⟨_, .hexadecimal hne hvalid hlt⟩
      · exact .inr (.hexadecimal hvalid hge)
  · rintro (⟨n, h⟩ | h)
    · exact isUnsignedToken_iff.mp h.isUnsignedToken
    · cases h with
      | letter hvalid hletter =>
        obtain ⟨c, hc, -⟩ := hletter
        exact .plain (List.ne_nil_of_mem hc) hvalid
      | decimal hvalid hbound =>
        exact .plain (ne_nil_of_bound hbound) fun c hc => isHexDigit_of_isDigit (hvalid c hc)
      | hexadecimal hvalid hbound => exact .hexadecimal (ne_nil_of_bound hbound) hvalid

/-- And not both. -/
theorem UnsignedFlaw.not_unsignedToken {token : String} (h : UnsignedFlaw token) (n : Nat) :
    ¬UnsignedToken token n := by
  intro htoken
  -- A flaw is a letter where digits are decimal, or a number that is too large in its base.
  cases h with
  | letter hvalid hletter =>
    obtain ⟨c, hc, hdigit⟩ := hletter
    obtain ⟨-, hdigits, -, -⟩ :=
      (unsignedToken_iff_of_ne (ne_hexMark_of_isHexDigit hvalid)).mp htoken
    exact hdigit (hdigits c hc)
  | decimal hvalid hbound =>
    have hhex := fun c hc => isHexDigit_of_isDigit (hvalid c hc)
    obtain ⟨-, -, hlt, -⟩ := (unsignedToken_iff_of_ne (ne_hexMark_of_isHexDigit hhex)).mp htoken
    exact absurd hlt (Nat.not_lt.mpr hbound)
  | @hexadecimal digits hvalid hbound =>
    have hlist : "0x" ++ String.ofList digits = String.ofList ('0' :: 'x' :: digits) := by
      simp [← String.toList_inj]
    rw [hlist] at htoken
    obtain ⟨-, -, hlt, -⟩ := unsignedToken_hexMark_iff.mp htoken
    exact absurd hlt (Nat.not_lt.mpr hbound)

/-- A token of the signed shape has a value or a flaw. -/
theorem signedShape_iff {token : String} :
    SignedShape token ↔ (∃ z, SignedToken token z) ∨ SignedFlaw token := by
  -- The sign is the same on both sides, so each case is that of the token behind it.
  constructor
  · intro h
    cases h with
    | plain body =>
      rcases unsignedShape_iff.mp body with ⟨n, hn⟩ | hflaw
      · exact .inl ⟨_, .plain hn⟩
      · exact .inr (.plain hflaw)
    | minus body =>
      rcases unsignedShape_iff.mp body with ⟨n, hn⟩ | hflaw
      · exact .inl ⟨_, .minus hn⟩
      · exact .inr (.minus hflaw)
  · rintro (⟨z, h⟩ | h)
    · cases h with
      | plain body => exact .plain (unsignedShape_iff.mpr (.inl ⟨_, body⟩))
      | minus body => exact .minus (unsignedShape_iff.mpr (.inl ⟨_, body⟩))
    · cases h with
      | plain body => exact .plain (unsignedShape_iff.mpr (.inr body))
      | minus body => exact .minus (unsignedShape_iff.mpr (.inr body))

/-- And not both. -/
theorem SignedFlaw.not_signedToken {token : String} (h : SignedFlaw token) (z : Int) :
    ¬SignedToken token z := by
  intro htoken
  cases h with
  | plain body =>
    have hshape := unsignedShape_iff.mpr (.inr body)
    obtain ⟨n, hn, -⟩ := (signedToken_iff_of_ne hshape.ne_minus).mp htoken
    exact body.not_unsignedToken n hn
  | @minus rest body =>
    have hlist : "-" ++ rest = String.ofList ('-' :: rest.toList) := by
      simp
    rw [hlist, signedToken_minus_iff, String.ofList_toList] at htoken
    obtain ⟨n, hn, -⟩ := htoken
    exact body.not_unsignedToken n hn

/-- The literals of the unsigned shape without a value. -/
theorem literal?_eq_none_iff_unsigned {token : String} :
    isUnsignedToken token.toList ∧ literal? token = none ↔ UnsignedFlaw token := by
  rw [isUnsignedToken_iff]
  constructor
  · rintro ⟨hshape, hnone⟩
    -- A token of the shape has a value or a flaw, and here it has no value.
    rcases unsignedShape_iff.mp hshape with ⟨n, hn⟩ | hflaw
    · obtain ⟨-, hvalue⟩ := literal?_eq_some_iff_unsigned.mpr ⟨n, hn, rfl⟩
      rw [hnone] at hvalue
      cases hvalue
    · exact hflaw
  · intro hflaw
    have hshape := unsignedShape_iff.mpr (.inr hflaw)
    refine ⟨hshape, Option.eq_none_iff_forall_ne_some.mpr ?_⟩
    intro z hvalue
    obtain ⟨n, hn, -⟩ :=
      literal?_eq_some_iff_unsigned.mp ⟨isUnsignedToken_iff.mpr hshape, hvalue⟩
    exact hflaw.not_unsignedToken n hn

/-- The literals of the signed shape without a value. -/
theorem literal?_eq_none_iff_signed {token : String} :
    isSignedToken token.toList ∧ literal? token = none ↔ SignedFlaw token := by
  rw [isSignedToken_iff]
  constructor
  · rintro ⟨hshape, hnone⟩
    -- As without a sign, the shape leaves a value or a flaw.
    rcases signedShape_iff.mp hshape with ⟨z, hz⟩ | hflaw
    · obtain ⟨-, hvalue⟩ := literal?_eq_some_iff_signed.mpr hz
      rw [hnone] at hvalue
      cases hvalue
    · exact hflaw
  · intro hflaw
    have hshape := signedShape_iff.mpr (.inr hflaw)
    refine ⟨hshape, Option.eq_none_iff_forall_ne_some.mpr ?_⟩
    intro z hvalue
    exact hflaw.not_signedToken z
      (literal?_eq_some_iff_signed.mp ⟨isSignedToken_iff.mpr hshape, hvalue⟩)

end MiniMips
