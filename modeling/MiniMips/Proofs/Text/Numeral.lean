import MiniMips.Text.Numeral

/-!
# `MiniMips.Proofs.Text.Numeral`: digits, written and read

The theorems:

* `isDigitIn_ten` and `isDigitIn_sixteen`: the digits of the two bases in use.
* `natOfDigits?_eq_some_iff`: which texts are numbers, and which number they are.
* `natOfDigits_toDigits`: a written number is read back.
* `isDigitIn_of_mem_toDigits`: written numbers hold only digits.
-/

set_option autoImplicit false

namespace MiniMips.Text

/-! ### The digits of a base -/

/-- The hexadecimal digits by their codes. -/
theorem isHexDigit_iff_toNat {c : Char} :
    isHexDigit c ↔ 48 ≤ c.toNat ∧ c.toNat ≤ 57 ∨ 97 ≤ c.toNat ∧ c.toNat ≤ 102
      ∨ 65 ≤ c.toNat ∧ c.toNat ≤ 70 := by
  simp only [isHexDigit, Bool.or_eq_true, Bool.and_eq_true, decide_eq_true_eq,
    Char.isDigit_iff_toNat, Char.le_def, UInt32.le_iff_toNat_le, or_assoc]
  rfl

/-- The value of a digit by its code point. -/
private theorem digitValue_eq (c : Char) :
    digitValue c = if 48 ≤ c.toNat ∧ c.toNat ≤ 57 then c.toNat - 48
      else if 97 ≤ c.toNat then c.toNat - 97 + 10 else c.toNat - 65 + 10 := by
  simp only [digitValue, Char.isDigit_iff_toNat, Char.le_def, UInt32.le_iff_toNat_le]
  rfl

/-- A decimal digit is a digit of base ten, and no other character is. -/
theorem isDigitIn_ten (c : Char) : isDigitIn 10 c = c.isDigit := by
  rw [Bool.eq_iff_iff, isDigitIn, Bool.and_eq_true, isHexDigit_iff_toNat, decide_eq_true_eq,
    digitValue_eq, Char.isDigit_iff_toNat]
  show _ ↔ 48 ≤ c.toNat ∧ c.toNat ≤ 57
  split
  · omega
  · split <;> omega

/-- The hexadecimal digits are the digits of base sixteen. -/
theorem isDigitIn_sixteen (c : Char) : isDigitIn 16 c = isHexDigit c := by
  rw [Bool.eq_iff_iff, isDigitIn, Bool.and_eq_true, isHexDigit_iff_toNat, decide_eq_true_eq,
    digitValue_eq]
  split
  · omega
  · split <;> omega

/-- The texts that are numbers of a base, with their values. -/
theorem natOfDigits?_eq_some_iff {base : Nat} {digits : List Char} {n : Nat} :
    natOfDigits? base digits = some n ↔
      digits ≠ [] ∧ (∀ c ∈ digits, isDigitIn base c) ∧ natOfDigits base digits = n := by
  simp [natOfDigits?, and_assoc]

/-! ### Written numbers -/

/-- The character of a digit is a hexadecimal digit of that value. -/
private theorem digitChar_lt_sixteen :
    ∀ d < 16, isHexDigit d.digitChar ∧ digitValue d.digitChar = d := by
  decide

/-- The last digit counts once, and the others the base times. -/
theorem natOfDigits_append_singleton (base : Nat) (digits : List Char) (c : Char) :
    natOfDigits base (digits ++ [c]) = natOfDigits base digits * base + digitValue c := by
  simp [natOfDigits]

/-- The digits that write a number are read back as the number. -/
theorem natOfDigits_toDigits {base : Nat} (hlow : 1 < base) (hhigh : base ≤ 16) (n : Nat) :
    natOfDigits base (Nat.toDigits base n) = n := by
  induction n using Nat.strongRecOn with
  | ind n ih =>
    rw [Nat.toDigits_eq_if hlow]
    split
    · rename_i hn
      have hvalue := (digitChar_lt_sixteen n (by omega)).2
      rw [← List.nil_append [n.digitChar], natOfDigits_append_singleton, hvalue]
      simp [natOfDigits]
    · rename_i hn
      -- The last digit is the remainder, the digits before it write the quotient.
      have hlt : n / base < n := Nat.div_lt_self (by omega) hlow
      have hmod : n % base < base := Nat.mod_lt n (by omega)
      have hvalue := (digitChar_lt_sixteen (n % base) (by omega)).2
      rw [natOfDigits_append_singleton, ih _ hlt, hvalue, Nat.mul_comm, Nat.div_add_mod]

/-- What holds of all digits of a base holds of the digits that write a number. -/
theorem forall_mem_toDigits {base : Nat} {P : Char → Prop} (hlow : 1 < base)
    (h : ∀ d < base, P d.digitChar) (n : Nat) : ∀ c ∈ Nat.toDigits base n, P c := by
  induction n using Nat.strongRecOn with
  | ind n ih =>
    rw [Nat.toDigits_eq_if hlow]
    split
    · simpa using h n ‹_›
    · rename_i hn
      have hlt : n / base < n := Nat.div_lt_self (by omega) hlow
      have hmod : n % base < base := Nat.mod_lt n (by omega)
      intro c hc
      rcases List.mem_append.mp hc with hc | hc
      · exact ih _ hlt c hc
      · simpa [List.mem_singleton.mp hc] using h _ hmod

/-- The digits of a number in a base are digits in this base. -/
theorem isDigitIn_of_mem_toDigits {base : Nat} (hlow : 1 < base) (hhigh : base ≤ 16) (n : Nat) :
    ∀ c ∈ Nat.toDigits base n, isDigitIn base c := by
  refine forall_mem_toDigits hlow (fun d hd => ?_) n
  obtain ⟨hhex, hvalue⟩ := digitChar_lt_sixteen d (by omega)
  simp [isDigitIn, hhex, hvalue, hd]

end MiniMips.Text
