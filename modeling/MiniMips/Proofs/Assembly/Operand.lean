import Mathlib.Data.List.Basic
import MiniMips.Assembly.Encode
import MiniMips.Proofs.Assembly.Grammar
import MiniMips.Proofs.Registers
import MiniMips.Proofs.Text.Numeral

/-!
# `MiniMips.Proofs.Assembly.Operand`: reading operands follows the grammar

An operand is read in two stages: its shape is checked first, and its value is looked up
later. The two do not agree on every token, since `ff` has the shape of a literal and no
value, but together they accept exactly what the grammar allows. The theorems:

* `registerOfToken?_eq_some_iff`: the registers.
* `literal?_eq_some_iff_unsigned` and `literal?_eq_some_iff_signed`: the literals of the
  two numeric shapes.
* `splitMemory?_eq_some_iff`: the two parts of a memory operand.
* `Slot.reads_iff`: the bits of the operand in a slot.
-/

set_option autoImplicit false

namespace MiniMips

open Text

/-! ### Registers -/

/-- No register has the other name of `$t7` for its own. -/
private theorem Reg.spelling_ne_g7 : ∀ r ∈ Reg.all, r.spelling ≠ "$g7" := by
  decide +kernel

/-- The tokens that name a register. -/
theorem registerOfToken?_eq_some_iff {token : String} {r : Reg} :
    registerOfToken? token = some r ↔ RegisterToken token r := by
  unfold registerOfToken?
  constructor
  · intro h
    split at h
    · rename_i hg7
      rw [eq_of_beq hg7]
      cases h
      exact .g7
    · rw [Reg.ofName?_eq_some_iff, r.name_eq_spelling] at h
      rw [← h]
      exact .name r
  · intro h
    cases h with
    -- No register has the spelling of the extra name, so it does not hide one.
    | name =>
      have hne : ¬(r.spelling == "$g7") := by simpa using r.spelling_ne_g7 r.mem_all
      rw [if_neg hne]
      exact Reg.ofName?_eq_some_iff.mpr r.name_eq_spelling
    | g7 => rfl

/-- A dollar sign and letters or digits behind it: each name has the shape of a register. -/
private theorem Reg.isRegisterToken_spelling :
    ∀ r ∈ Reg.all, isRegisterToken r.spelling.toList := by
  decide +kernel

/-- A token that names a register has the shape of a register. -/
theorem RegisterToken.isRegisterToken {token : String} {r : Reg} (h : RegisterToken token r) :
    isRegisterToken token.toList := by
  cases h with
  | name => exact r.isRegisterToken_spelling r.mem_all
  | g7 => decide +kernel

/-- A register operand is encoded if the grammar knows its name. -/
theorem encodeRegister_eq_ok_iff {token : String} {r : Reg} :
    encodeRegister token = .ok r ↔ RegisterToken token r := by
  rw [← registerOfToken?_eq_some_iff, encodeRegister]
  cases registerOfToken? token <;> simp

/-! ### Literals -/

/-- The numbers that fit 64 signed bits. -/
theorem signed64?_eq_some_iff {i z : Int} :
    signed64? i = some z ↔ (-0x8000000000000000 ≤ i ∧ i < 0x8000000000000000) ∧ z = i := by
  unfold signed64?
  split <;> simp <;> omega

/-- Reading digits into 64 signed bits. -/
theorem bind_signed64?_eq_some_iff {base : Nat} {digits : List Char} {z : Int} :
    ((natOfDigits? base digits).bind fun n => signed64? n) = some z ↔
      digits ≠ [] ∧ (∀ c ∈ digits, isDigitIn base c) ∧ natOfDigits base digits < 2 ^ 63
        ∧ z = natOfDigits base digits := by
  rw [Option.bind_eq_some_iff]
  constructor
  · rintro ⟨n, hn, hz⟩
    obtain ⟨hne, hvalid, rfl⟩ := natOfDigits?_eq_some_iff.mp hn
    obtain ⟨⟨-, hbound⟩, hz⟩ := signed64?_eq_some_iff.mp hz
    exact ⟨hne, hvalid, by omega, hz⟩
  · rintro ⟨hne, hvalid, hbound, hz⟩
    exact ⟨_, natOfDigits?_eq_some_iff.mpr ⟨hne, hvalid, rfl⟩,
      signed64?_eq_some_iff.mpr ⟨by omega, hz⟩⟩

/-- Behind `0x`, hexadecimal digits are read without a sign. -/
private theorem hexBody?_of_isHexDigit {digits : List Char} (h : ∀ c ∈ digits, isHexDigit c) :
    hexBody? digits = (natOfDigits? 16 digits).bind fun n => signed64? n := by
  unfold hexBody?
  split
  · exact absurd (h '+' (by simp)) (by decide)
  · exact absurd (h '-' (by simp)) (by decide)
  · rfl

/-- Decimal digits are hexadecimal ones. -/
theorem isHexDigit_of_isDigit {c : Char} (h : c.isDigit) : isHexDigit c := by
  simp [isHexDigit, h]

/-- The number behind a `0x`. -/
theorem unsignedToken_hexMark_iff {digits : List Char} {n : Nat} :
    UnsignedToken (String.ofList ('0' :: 'x' :: digits)) n ↔
      digits ≠ [] ∧ (∀ c ∈ digits, isHexDigit c) ∧ natOfDigits 16 digits < 2 ^ 63
        ∧ n = natOfDigits 16 digits := by
  constructor
  · generalize htoken : String.ofList ('0' :: 'x' :: digits) = token
    intro h
    cases h with
    | decimal hne hvalid hbound =>
      obtain rfl := String.ofList_injective htoken
      -- The mark is no decimal digit, so the digits behind it are hexadecimal.
      exact absurd (hvalid 'x' (by simp)) (by decide)
    | hexadecimal hne hvalid hbound =>
      obtain rfl : digits = _ := by simpa [← String.toList_inj] using htoken
      exact ⟨hne, hvalid, hbound, rfl⟩
  · rintro ⟨hne, hvalid, hbound, rfl⟩
    have htoken : String.ofList ('0' :: 'x' :: digits) = "0x" ++ String.ofList digits := by
      simp [← String.toList_inj]
    rw [htoken]
    exact .hexadecimal hne hvalid hbound

/-- The number in a text without a `0x`. -/
theorem unsignedToken_iff_of_ne {cs : List Char} (hmark : ∀ ds, cs ≠ '0' :: 'x' :: ds)
    {n : Nat} :
    UnsignedToken (String.ofList cs) n ↔
      cs ≠ [] ∧ (∀ c ∈ cs, c.isDigit) ∧ natOfDigits 10 cs < 2 ^ 63 ∧ n = natOfDigits 10 cs := by
  constructor
  · generalize htoken : String.ofList cs = token
    intro h
    cases h with
    | decimal hne hvalid hbound =>
      obtain rfl := String.ofList_injective htoken
      exact ⟨hne, hvalid, hbound, rfl⟩
    | @hexadecimal digits =>
      refine absurd ?_ (hmark digits)
      rw [← String.toList_ofList (l := cs), htoken]
      simp
  · rintro ⟨hne, hvalid, hbound, rfl⟩
    exact .decimal hne hvalid hbound

/-- A text that does not start with `0x` has no mark to drop. -/
theorem dropHexMark_of_ne {cs : List Char} (hmark : ∀ ds, cs ≠ '0' :: 'x' :: ds) :
    dropHexMark cs = cs := by
  unfold dropHexMark
  split
  · exact absurd rfl (hmark _)
  · rfl

/-- A number has the unsigned shape. -/
theorem UnsignedToken.isUnsignedToken {token : String} {n : Nat} (h : UnsignedToken token n) :
    isUnsignedToken token.toList := by
  rw [← String.ofList_toList (s := token)] at h
  simp only [MiniMips.isUnsignedToken, Bool.and_eq_true, List.all_eq_true, Bool.not_eq_true',
    List.isEmpty_eq_false_iff]
  by_cases hmark : ∃ ds, token.toList = '0' :: 'x' :: ds
  · obtain ⟨ds, hds⟩ := hmark
    rw [hds, unsignedToken_hexMark_iff] at h
    rw [hds]
    exact ⟨h.1, h.2.1⟩
  · have hmark' := not_exists.mp hmark
    rw [unsignedToken_iff_of_ne hmark'] at h
    rw [dropHexMark_of_ne hmark']
    exact ⟨h.1, fun c hc => isHexDigit_of_isDigit (h.2.1 c hc)⟩

/-- The value of a text in the unsigned shape. -/
theorem literalBody?_eq_some_iff {cs : List Char} (h : isUnsignedToken cs) {z : Int} :
    literalBody? cs = some z ↔ ∃ n : Nat, UnsignedToken (String.ofList cs) n ∧ z = n := by
  simp only [isUnsignedToken, Bool.and_eq_true, List.all_eq_true] at h
  -- The base is decided by the mark alone; the digits of the shape are digits in that base.
  by_cases hmark : ∃ ds, cs = '0' :: 'x' :: ds
  · obtain ⟨digits, rfl⟩ := hmark
    have hhex : ∀ c ∈ digits, isHexDigit c := h.2
    have hbody : literalBody? ('0' :: 'x' :: digits) = hexBody? digits := rfl
    rw [hbody, hexBody?_of_isHexDigit hhex, bind_signed64?_eq_some_iff]
    simp only [unsignedToken_hexMark_iff, isDigitIn_sixteen]
    constructor
    · rintro ⟨hne, hvalid, hbound, hz⟩
      exact ⟨_, ⟨hne, hvalid, hbound, rfl⟩, hz⟩
    · rintro ⟨n, ⟨hne, hvalid, hbound, rfl⟩, hz⟩
      exact ⟨hne, hvalid, hbound, hz⟩
  · have hmark' := not_exists.mp hmark
    have hbody : literalBody? cs = (natOfDigits? 10 cs).bind fun n => signed64? n := by
      unfold literalBody?
      split
      · exact absurd rfl (hmark' _)
      · rfl
    rw [hbody, bind_signed64?_eq_some_iff]
    simp only [unsignedToken_iff_of_ne hmark', isDigitIn_ten]
    constructor
    · rintro ⟨hne, hvalid, hbound, hz⟩
      exact ⟨_, ⟨hne, hvalid, hbound, rfl⟩, hz⟩
    · rintro ⟨n, ⟨hne, hvalid, hbound, rfl⟩, hz⟩
      exact ⟨hne, hvalid, hbound, hz⟩

/-- A text in the unsigned shape does not start with a minus. -/
theorem ne_minus_of_isUnsignedToken {cs : List Char} (h : isUnsignedToken cs) :
    ∀ ds, cs ≠ '-' :: ds := by
  rintro ds rfl
  simp only [isUnsignedToken, Bool.and_eq_true, List.all_eq_true] at h
  exact absurd (h.2 '-' (by simp [dropHexMark])) (by decide)

/-- The value behind a minus. -/
theorem literal?_of_minus {token : String} {body : List Char} (h : token.toList = '-' :: body) :
    literal? token = (literalBody? body).map fun value => -value := by
  rw [literal?, h]
  rfl

/-- The value of a text that does not start with a minus. -/
theorem literal?_of_ne_minus {token : String} (h : ∀ ds, token.toList ≠ '-' :: ds) :
    literal? token = literalBody? token.toList := by
  unfold literal? literalChars?
  split
  · rename_i hminus
    exact absurd hminus (h _)
  · rfl

/-- The literals of the unsigned shape. -/
theorem literal?_eq_some_iff_unsigned {token : String} {z : Int} :
    isUnsignedToken token.toList ∧ literal? token = some z ↔
      ∃ n : Nat, UnsignedToken token n ∧ z = n := by
  constructor
  · rintro ⟨hshape, hvalue⟩
    rw [literal?_of_ne_minus (ne_minus_of_isUnsignedToken hshape), literalBody?_eq_some_iff hshape,
      String.ofList_toList] at hvalue
    exact hvalue
  · rintro ⟨n, htoken, hz⟩
    have hshape := htoken.isUnsignedToken
    rw [literal?_of_ne_minus (ne_minus_of_isUnsignedToken hshape), literalBody?_eq_some_iff hshape,
      String.ofList_toList]
    exact ⟨hshape, n, htoken, hz⟩

/-- The number behind a minus. -/
theorem signedToken_minus_iff {ds : List Char} {z : Int} :
    SignedToken (String.ofList ('-' :: ds)) z ↔
      ∃ n : Nat, UnsignedToken (String.ofList ds) n ∧ z = -n := by
  constructor
  · generalize htoken : String.ofList ('-' :: ds) = token
    intro h
    cases h with
    -- An unsigned literal never begins with the sign.
    | plain body =>
      have hshape := body.isUnsignedToken
      rw [← htoken, String.toList_ofList] at hshape
      exact absurd rfl (ne_minus_of_isUnsignedToken hshape ds)
    | @minus rest n body =>
      obtain rfl : ds = rest.toList := by simpa [← String.toList_inj] using htoken
      rw [String.ofList_toList]
      exact ⟨n, body, rfl⟩
  · rintro ⟨n, body, rfl⟩
    have htoken : String.ofList ('-' :: ds) = "-" ++ String.ofList ds := by
      simp
    rw [htoken]
    exact .minus body

/-- The number in a text that does not start with a minus. -/
theorem signedToken_iff_of_ne {token : String} (hminus : ∀ ds, token.toList ≠ '-' :: ds)
    {z : Int} : SignedToken token z ↔ ∃ n : Nat, UnsignedToken token n ∧ z = n := by
  constructor
  · intro h
    cases h with
    | plain body => exact ⟨_, body, rfl⟩
    | @minus rest n body => exact absurd (by simp) (hminus rest.toList)
  · rintro ⟨n, body, rfl⟩
    exact .plain body

/-- The literals of the signed shape. -/
theorem literal?_eq_some_iff_signed {token : String} {z : Int} :
    isSignedToken token.toList ∧ literal? token = some z ↔ SignedToken token z := by
  -- The sign is taken off once, and the rest is read as an unsigned literal on both sides.
  by_cases hminus : ∃ ds, token.toList = '-' :: ds
  · obtain ⟨ds, hds⟩ := hminus
    have hshape : isSignedToken token.toList = isUnsignedToken ds := by
      rw [hds]
      rfl
    rw [← String.ofList_toList (s := token), hds, signedToken_minus_iff, ← hds,
      String.ofList_toList, hshape, literal?_of_minus hds, Option.map_eq_some_iff]
    constructor
    · rintro ⟨hbody, value, hvalue, rfl⟩
      obtain ⟨n, htoken, rfl⟩ := (literalBody?_eq_some_iff hbody).mp hvalue
      exact ⟨n, htoken, rfl⟩
    · rintro ⟨n, htoken, rfl⟩
      have hbody := htoken.isUnsignedToken
      rw [String.toList_ofList] at hbody
      exact ⟨hbody, n, (literalBody?_eq_some_iff hbody).mpr ⟨n, htoken, rfl⟩, rfl⟩
  · have hminus' := not_exists.mp hminus
    have hshape : isSignedToken token.toList = isUnsignedToken token.toList := by
      unfold isSignedToken dropMinus
      split
      · rename_i hds
        exact absurd hds (hminus' _)
      · rfl
    rw [signedToken_iff_of_ne hminus', hshape, literal?_eq_some_iff_unsigned]

/-! ### Memory operands -/

/-- An offset ends before the first parenthesis. -/
private theorem paren_notMem_of_isSignedToken {cs : List Char} (h : isSignedToken cs) :
    ∀ c ∈ cs, c ≠ '(' := by
  -- What follows a sign or a mark has digits only, and a parenthesis is not one of them.
  have hbody : ∀ body : List Char, isUnsignedToken body → '(' ∉ body := by
    intro body hshape hmem
    simp only [isUnsignedToken, Bool.and_eq_true, List.all_eq_true] at hshape
    by_cases hmark : ∃ ds, body = '0' :: 'x' :: ds
    · obtain ⟨ds, rfl⟩ := hmark
      have hds : '(' ∈ ds := by simpa using hmem
      exact absurd (hshape.2 '(' hds) (by decide)
    · rw [dropHexMark_of_ne (not_exists.mp hmark)] at hshape
      exact absurd (hshape.2 '(' hmem) (by decide)
  rintro c hc rfl
  unfold isSignedToken dropMinus at h
  split at h
  · rename_i ds
    have hds : '(' ∈ ds := by simpa using hc
    exact hbody ds h hds
  · exact hbody cs h hc

/-- A memory operand falls into an offset and a base register in parentheses. -/
private theorem splitMemoryChars?_eq_some_iff {cs offset base : List Char} :
    splitMemoryChars? cs = some (offset, base) ↔
      cs = offset ++ '(' :: (base ++ [')']) ∧ isSignedToken offset ∧ isRegisterToken base := by
  unfold splitMemoryChars?
  constructor
  · intro h
    dsimp only at h
    split at h
    · rename_i hparts
      obtain ⟨hclose, hoffset, hbase⟩ := hparts
      cases h
      refine ⟨?_, hoffset, hbase⟩
      -- The text behind the offset starts with a parenthesis, which the split drops.
      cases hrest : cs.dropWhile (· != '(') with
      | nil => simp [hrest] at hclose
      | cons c rest =>
        have hopen : c = '(' := by
          simpa [hrest] using List.head?_dropWhile_not (· != '(') cs
        have hbase : rest.dropLast ++ [')'] = rest :=
          List.dropLast_append_getLast? ')' (by simpa [hrest] using hclose)
        calc cs = cs.takeWhile (· != '(') ++ cs.dropWhile (· != '(') :=
              List.takeWhile_append_dropWhile.symm
          _ = _ := by rw [hrest, hopen, List.drop_one, List.tail_cons, hbase]
    · cases h
  · rintro ⟨rfl, hoffset, hbase⟩
    have hparen := paren_notMem_of_isSignedToken hoffset
    -- The offset holds no parenthesis, so the split ends exactly behind it.
    have htake : (offset ++ '(' :: (base ++ [')'])).takeWhile (· != '(') = offset := by
      rw [List.takeWhile_append_of_pos (by simpa using hparen)]
      simp
    have hdrop : (offset ++ '(' :: (base ++ [')'])).dropWhile (· != '(')
        = '(' :: (base ++ [')']) := by
      rw [List.dropWhile_append_of_pos (by simpa using hparen)]
      simp
    simp [htake, hdrop, hoffset, hbase]

/-- The parts of a memory operand. -/
theorem splitMemory?_eq_some_iff {token offset base : String} :
    splitMemory? token = some (offset, base) ↔
      token = offset ++ "(" ++ base ++ ")" ∧ isSignedToken offset.toList
        ∧ isRegisterToken base.toList := by
  have htoken : token = offset ++ "(" ++ base ++ ")" ↔
      token.toList = offset.toList ++ '(' :: (base.toList ++ [')']) := by
    rw [← String.toList_inj]
    simp
  rw [htoken, ← splitMemoryChars?_eq_some_iff, splitMemory?, Option.map_eq_some_iff]
  constructor
  · rintro ⟨⟨cs, ds⟩, hparts, heq⟩
    obtain ⟨rfl, rfl⟩ := Prod.mk.inj heq
    rw [String.toList_ofList, String.toList_ofList]
    exact hparts
  · intro hparts
    exact ⟨_, hparts, by simp⟩

/-- A memory operand is split into a literal and a register. -/
theorem memoryToken_iff {token : String} {z : Int} {r : Reg} :
    MemoryToken token z r ↔
      ∃ offset base, splitMemory? token = some (offset, base) ∧ literal? offset = some z
        ∧ RegisterToken base r := by
  constructor
  · intro h
    cases h with
    | place hoffset hbase =>
      obtain ⟨hshape, hvalue⟩ := literal?_eq_some_iff_signed.mpr hoffset
      exact ⟨_, _, splitMemory?_eq_some_iff.mpr ⟨rfl, hshape, hbase.isRegisterToken⟩, hvalue,
        hbase⟩
  · rintro ⟨offset, base, hsplit, hvalue, hbase⟩
    obtain ⟨rfl, hshape, -⟩ := splitMemory?_eq_some_iff.mp hsplit
    exact .place (literal?_eq_some_iff_signed.mp ⟨hshape, hvalue⟩) hbase

/-! ### Slots -/

/-- What the token in a slot may be, with the bits that it stands for. -/
def Slot.Reads (slot : Slot) (token : String) (bits : Word) : Prop :=
  match slot with
  | rd => ∃ r, RegisterToken token r ∧ bits = fieldBits 11 r
  | rs => ∃ r, RegisterToken token r ∧ bits = fieldBits 21 r
  | rt => ∃ r, RegisterToken token r ∧ bits = fieldBits 16 r
  | shamt => ∃ n, UnsignedToken token n ∧ bits = fieldBits 6 (BitVec.ofNat 5 n)
  | target => ∃ n, UnsignedToken token n ∧ bits = fieldBits 0 (BitVec.ofNat 26 n)
  | immediate => ∃ z, SignedToken token z ∧ bits = fieldBits 0 (BitVec.ofInt 16 z)
  | memory =>
    ∃ z r, MemoryToken token z r ∧ bits = fieldBits 21 r ||| fieldBits 0 (BitVec.ofInt 16 z)

/-- A literal is encoded by its low bits if it has a value. -/
theorem encodeLiteral_eq_ok_iff {width : Nat} {token : String} {bits : BitVec width} :
    encodeLiteral width token = .ok bits ↔
      ∃ z, literal? token = some z ∧ bits = BitVec.ofInt width z := by
  unfold encodeLiteral
  cases literal? token with
  | none => simp
  | some z => simp [eq_comm]

/-- An encoding that goes through a map succeeds when the encoding itself does. -/
private theorem map_eq_ok_iff {α β : Type} {e : Except EncodeError α} {f : α → β} {b : β} :
    e.map f = .ok b ↔ ∃ a, e = .ok a ∧ b = f a := by
  cases e with
  | error err => simp [Except.map]
  | ok a => simp [Except.map, eq_comm]

/-- Two encodings one after the other succeed when both do. -/
theorem bind_eq_ok_iff {α β : Type} {e : Except EncodeError α} {f : α → Except EncodeError β}
    {b : β} : e.bind f = .ok b ↔ ∃ a, e = .ok a ∧ f a = .ok b := by
  cases e with
  | error err => simp [Except.bind]
  | ok a => simp [Except.bind]

/-- A register operand, put into a field. -/
private theorem register_reads_iff {token : String} {shift : Nat} {bits : Word} :
    isRegisterToken token.toList ∧ (encodeRegister token).map (fieldBits shift) = .ok bits ↔
      ∃ r, RegisterToken token r ∧ bits = fieldBits shift r := by
  simp only [map_eq_ok_iff, encodeRegister_eq_ok_iff]
  constructor
  · exact And.right
  · rintro ⟨r, hr, hbits⟩
    exact ⟨hr.isRegisterToken, r, hr, hbits⟩

/-- An operand without a sign, put into a field. -/
private theorem unsigned_reads_iff {token : String} {width shift : Nat} {bits : Word} :
    isUnsignedToken token.toList
        ∧ (encodeLiteral width token).map (fieldBits shift) = .ok bits ↔
      ∃ n, UnsignedToken token n ∧ bits = fieldBits shift (BitVec.ofNat width n) := by
  simp only [map_eq_ok_iff, encodeLiteral_eq_ok_iff]
  constructor
  · rintro ⟨hshape, field, ⟨z, hvalue, rfl⟩, hbits⟩
    obtain ⟨n, htoken, rfl⟩ := literal?_eq_some_iff_unsigned.mp ⟨hshape, hvalue⟩
    exact ⟨n, htoken, by rw [hbits, BitVec.ofInt_natCast]⟩
  · rintro ⟨n, htoken, hbits⟩
    obtain ⟨hshape, hvalue⟩ := literal?_eq_some_iff_unsigned.mpr ⟨n, htoken, rfl⟩
    exact ⟨hshape, _, ⟨n, hvalue, rfl⟩, by rw [hbits, BitVec.ofInt_natCast]⟩

/-- An operand of the right shape is encoded as what the grammar says it means. -/
theorem Slot.reads_iff {slot : Slot} {token : String} {bits : Word} :
    slot.shape.accepts token ∧ slot.encode token = .ok bits ↔ slot.Reads token bits := by
  cases slot with
  | rd => exact register_reads_iff
  | rs => exact register_reads_iff
  | rt => exact register_reads_iff
  | shamt => exact unsigned_reads_iff
  | target => exact unsigned_reads_iff
  | immediate =>
    simp only [Slot.Reads, Slot.encode, map_eq_ok_iff, encodeLiteral_eq_ok_iff,
      ← literal?_eq_some_iff_signed]
    constructor
    · rintro ⟨hshape, field, ⟨z, hvalue, rfl⟩, hbits⟩
      exact ⟨z, ⟨hshape, hvalue⟩, hbits⟩
    · rintro ⟨z, ⟨hshape, hvalue⟩, hbits⟩
      exact ⟨hshape, _, ⟨z, hvalue, rfl⟩, hbits⟩
  -- A memory operand is split at its parenthesis first; both parts are then operands of their
  -- own.
  | memory =>
    simp only [Slot.Reads, memoryToken_iff, Slot.shape, Shape.accepts, Slot.encode]
    cases hsplit : splitMemory? token with
    | none => simp
    | some parts =>
      obtain ⟨offset, base⟩ := parts
      simp only [bind_eq_ok_iff, map_eq_ok_iff, encodeRegister_eq_ok_iff,
        encodeLiteral_eq_ok_iff]
      constructor
      · rintro ⟨-, r, hbase, field, ⟨z, hvalue, rfl⟩, hbits⟩
        exact ⟨z, r, ⟨offset, base, rfl, hvalue, hbase⟩, hbits⟩
      · rintro ⟨z, r, ⟨_, _, hparts, hvalue, hbase⟩, hbits⟩
        cases hparts
        exact ⟨rfl, r, hbase, _, ⟨z, hvalue, rfl⟩, hbits⟩

end MiniMips
