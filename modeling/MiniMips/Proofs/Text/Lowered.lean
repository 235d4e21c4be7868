import MiniMips.Proofs.Text.Lowercase

/-!
# `MiniMips.Proofs.Text.Lowered`: text lowered twice, and in ASCII first

Lowering a text once is enough: the table leads to no character that it leads away from, as
the runs of the table show when each is held against the others. And it does not matter
whether the letters of ASCII are capital letters, for the sigmas between them either. The
theorems:

* `CaseRun.lower?_eq_none_of_avoids`: when the characters of one run lead to none of another.
* `isLowered_of_mem_lowerChar`: every lowercase form is its own.
* `lowercase_lowercase`: so a text in lowercase is its own lowercase form.
* `lowercase_map_toLower`: a text has the lowercase form of the same text with its ASCII
  letters in lowercase.
-/

set_option autoImplicit false

namespace MiniMips.Text

/-! ### Lowercase forms have no other lowercase form -/

/-- Whether no lowercase form of `run` is a character of `other`. The two lie apart, or
`other` holds every second character and the lowercase forms of `run` are between them. -/
def CaseRun.avoids (run other : CaseRun) : Bool :=
  Nat.blt run.lastImage other.first || Nat.blt other.last run.image
    || (other.step == 2 && (run.step == 2 || run.first == run.last)
      && (run.image + other.first) % 2 == 1)

/-- A run that avoids the images of another one has nothing to lower in them. -/
theorem CaseRun.lower?_eq_none_of_avoids {run other : CaseRun} (h : run.avoids other)
    {code image : Nat} (himage : run.lower? code = some image) : other.lower? image = none := by
  obtain ⟨hle, hlast⟩ := CaseRun.image_bounds himage
  obtain ⟨⟨hfirst, hend, hstep⟩, hcode⟩ := CaseRun.lower?_eq_some_iff.mp himage
  refine if_neg fun ⟨hother, hotherEnd, hotherStep⟩ => ?_
  simp only [CaseRun.avoids, Bool.or_eq_true, Bool.and_eq_true, Nat.blt_eq, beq_iff_eq] at h
  rcases h with (hbefore | hbehind) | ⟨⟨htwo, hevery⟩, hodd⟩
  · omega
  · omega
  · rw [htwo] at hotherStep
    -- The steps of `run` are even, so `image` has the parity of the first lowercase form.
    have heven : (code - run.first) % 2 = 0 := by
      rcases hevery with hrun | hsingle
      · rwa [hrun] at hstep
      · omega
    omega

/-- U+0130 as a run: behind ASCII, the one character whose lowercase form is not in the table. -/
private def dottedCapital : CaseRun :=
  ⟨0x0130, 0x0130, 1, 0x0069⟩

/-- The runs of the table avoid the images of each other, and of the one letter with its own
rule. -/
private theorem lowercaseRuns_avoid : lowercaseRuns.all fun run =>
    (dottedCapital :: lowercaseRuns).all fun other => run.avoids other := by
  decide +kernel

/-- A lowercase form of the table has none in the table, and is not U+0130 either. -/
private theorem lower?_eq_none_of_image {run other : CaseRun} (hrun : run ∈ lowercaseRuns)
    (hother : other ∈ dottedCapital :: lowercaseRuns) {code image : Nat}
    (himage : run.lower? code = some image) : other.lower? image = none :=
  CaseRun.lower?_eq_none_of_avoids
    (List.all_eq_true.mp (List.all_eq_true.mp lowercaseRuns_avoid run hrun) other hother) himage

/-- The images of the table are lowered characters. -/
private theorem isLowered_of_image {run : CaseRun} (hrun : run ∈ lowercaseRuns) {code : Nat}
    {d : Char} (himage : run.lower? code = some d.toNat) : IsLowered d := by
  unfold IsLowered lowerChar
  by_cases hascii : d.toNat < 0x80
  · have hcapital : 0x5A < d.toNat :=
      Nat.lt_of_lt_of_le (capital_lt_image hrun) (CaseRun.image_bounds himage).1
    rw [if_pos hascii, toLower_of_not_capital (.inr hcapital)]
  · have hdotted : d ≠ '\u0130' := by
      rintro rfl
      cases lower?_eq_none_of_image hrun List.mem_cons_self himage
    have hnone : lowercaseRuns.findSome? (·.lower? d.toNat) = none :=
      List.findSome?_eq_none_iff.mpr fun other hother =>
        lower?_eq_none_of_image hrun (List.mem_cons_of_mem _ hother) himage
    rw [if_neg hascii, if_neg hdotted, hnone]

/-- Lowering ASCII leaves only lowered characters. -/
private theorem isLowered_toLower {c : Char} (h : c.toNat < 0x80) : IsLowered c.toLower := by
  have hascii : ∀ n < 0x80, (Char.ofNat n).toLower.toNat < 0x80
      ∧ (Char.ofNat n).toLower.toLower = (Char.ofNat n).toLower := by
    decide +kernel
  obtain ⟨hlt, hidem⟩ := hascii c.toNat h
  rw [Char.ofNat_toNat] at hlt hidem
  rw [IsLowered, lowerChar, if_pos hlt, hidem]

/-- The lowercase forms of a character stay as they are. -/
theorem isLowered_of_mem_lowerChar {c d : Char} (h : d ∈ lowerChar c) : IsLowered d := by
  -- The four ways a character is lowered: ASCII, the dotted capital I, a run of the table,
  -- none.
  rcases lowerChar_cases c with ⟨hascii, heq⟩ | heq | ⟨run, hrun, image, himage, heq⟩ | heq
  · rw [heq, List.mem_singleton] at h
    exact h ▸ isLowered_toLower hascii
  · have hforms : IsLowered 'i' ∧ IsLowered '\u0307' := by
      decide +kernel
    rw [heq, List.mem_cons, List.mem_singleton] at h
    rcases h with rfl | rfl
    · exact hforms.1
    · exact hforms.2
  · rw [heq, List.mem_singleton] at h
    exact h ▸ isLowered_of_image hrun himage
  · have hd := h
    rw [heq, List.mem_singleton] at hd
    exact hd ▸ heq

/-- A text in lowercase is its own lowercase form. -/
theorem lowercase_lowercase (cs : List Char) : lowercase (lowercase cs) = lowercase cs := by
  refine lowercase_of_isLowered fun d hd => ?_
  rcases mem_lowerAfter hd with rfl | ⟨c, -, hd⟩
  · decide +kernel
  · exact isLowered_of_mem_lowerChar hd

/-! ### The case of ASCII letters -/

/-- A character and its ASCII lower case are lowered alike. -/
theorem lowerChar_toLower (c : Char) : lowerChar c.toLower = lowerChar c := by
  by_cases hascii : c.toNat < 0x80
  · have hlower : lowerChar c = [c.toLower] := if_pos hascii
    rw [hlower]
    exact isLowered_toLower hascii
  · rw [toLower_of_not_capital (by omega)]

/-- Both cases of an ASCII letter count as letters. -/
private theorem cased_toLower (c : Char) :
    CodeRange.within cased c.toLower = CodeRange.within cased c :=
  apply_toLower (by decide +kernel) c

/-- No range of Case_Ignorable holds a letter of ASCII. -/
private theorem caseIgnorable_letters : ∀ range ∈ caseIgnorable,
    range.last < 0x41 ∨ (0x5A < range.first ∧ range.last < 0x61) ∨ 0x7A < range.first := by
  decide +kernel

/-- Neither case of an ASCII letter is looked through. -/
private theorem caseIgnorable_toLower (c : Char) :
    CodeRange.within caseIgnorable c.toLower = CodeRange.within caseIgnorable c := by
  have hcode : ∀ n < 26, (Char.ofNat (0x41 + n)).toNat = 0x41 + n
      ∧ (Char.ofNat (0x41 + n)).toLower.toNat = 0x61 + n := by
    decide +kernel
  refine apply_toLower (fun n hn => ?_) c
  obtain ⟨hcapital, hsmall⟩ := hcode n hn
  -- Neither the capital letter nor the small one is passed over.
  rw [CodeRange.within_eq_false, CodeRange.within_eq_false]
  all_goals
    intro range hrange
    have hletters := caseIgnorable_letters range hrange
    omega

/-- The letters of ASCII end and continue words as capital letters and as small ones. -/
theorem startsCased_map_toLower (cs : List Char) :
    startsCased (cs.map Char.toLower) = startsCased cs := by
  induction cs with
  | nil => rfl
  | cons c cs ih =>
    unfold startsCased at *
    rw [List.map_cons, List.dropWhile_cons, List.dropWhile_cons, caseIgnorable_toLower]
    cases CodeRange.within caseIgnorable c with
    | true => exact ih
    | false => exact cased_toLower c

/-- So the case of ASCII letters shows nowhere, not even around a sigma. -/
theorem lowerBetween_map_toLower (before : List Char) (c : Char) (after : List Char) :
    lowerBetween (before.map Char.toLower) c.toLower (after.map Char.toLower)
      = lowerBetween before c after := by
  have hsigma : (c.toLower == 'Σ') = (c == 'Σ') :=
    apply_toLower (f := (· == 'Σ')) (by decide +kernel) c
  have hiff : c.toLower = 'Σ' ↔ c = 'Σ' := by
    rw [← beq_iff_eq, hsigma, beq_iff_eq]
  unfold lowerBetween isFinalSigma
  rw [startsCased_map_toLower, startsCased_map_toLower, lowerChar_toLower]
  by_cases hc : c = 'Σ'
  · rw [if_pos (hiff.mpr hc), if_pos hc]
  · rw [if_neg (mt hiff.mp hc), if_neg hc]

/-- It does not matter whether the letters of ASCII are capital letters. -/
theorem lowercase_map_toLower (cs : List Char) :
    lowercase (cs.map Char.toLower) = lowercase cs := by
  suffices hafter : ∀ before, lowerAfter (before.map Char.toLower) (cs.map Char.toLower)
      = lowerAfter before cs from hafter []
  induction cs with
  | nil => exact fun _ => rfl
  | cons c cs ih =>
    intro before
    rw [List.map_cons, lowerAfter, lowerAfter, lowerBetween_map_toLower, ← List.map_cons, ih]

end MiniMips.Text
