import MiniMips.Proofs.Text.Pieces
import MiniMips.Text.Lowercase

/-!
# `MiniMips.Proofs.Text.Lowercase`: lowercase text, piece by piece

The lowercase form of a sigma depends on the letters around it, but no further than to
the next space: a space is neither a letter nor passed over. The theorems:

* `lowercase_append_space`: the text before a space and the text behind it are lowered on
  their own.
* `lowercase_joinSpaced`: so are pieces with spaces between them.
* `lowerChar_cases`: what the lowercase form of a character can be.
* `NotIntroduced.of_table`: when lowering brings in none of a set of characters, and
  `notIntroduced_space`: so it is with spaces.
* `pieces_lowercase_joinSpaced`: so the pieces of the lowered text are the lowered pieces.
* `lowercase_of_isLowered`: characters that lowering leaves as they are make up text that it
  leaves as it is.
* `lowercase_of_isLowerAscii`: so ASCII text without capital letters stays as it is.
-/

set_option autoImplicit false

namespace MiniMips.Text

/-! ### Spaces end words -/

/-- The search for a letter does not look through a space. -/
private theorem caseIgnorable_space : CodeRange.within caseIgnorable ' ' = false := by
  decide +kernel

/-- A space is no letter itself, so the search ends at it. -/
private theorem cased_space : CodeRange.within cased ' ' = false := by
  decide +kernel

/-- What stands behind a space does not matter for the letter before it. -/
theorem startsCased_append_space (xs ys : List Char) :
    startsCased (xs ++ ' ' :: ys) = startsCased xs := by
  unfold startsCased
  induction xs with
  | nil => simp [caseIgnorable_space, cased_space]
  | cons x xs ih =>
    rw [List.cons_append, List.dropWhile_cons, List.dropWhile_cons]
    -- A character that is passed over leaves the question to the rest.
    cases hx : CodeRange.within caseIgnorable x with
    | true => simpa using ih
    | false => rfl

/-- What stands before a space has no influence on a character behind it. -/
theorem lowerBetween_append_space (before context : List Char) (c : Char) (after : List Char) :
    lowerBetween (before ++ ' ' :: context) c after = lowerBetween before c after := by
  unfold lowerBetween isFinalSigma
  rw [startsCased_append_space]

/-- What stands behind a space has no influence on a character before it. -/
theorem lowerBetween_before_space (before : List Char) (c : Char) (after rest : List Char) :
    lowerBetween before c (after ++ ' ' :: rest) = lowerBetween before c after := by
  unfold lowerBetween isFinalSigma
  rw [startsCased_append_space]

/-- The characters before a space do not matter for the text behind it. -/
private theorem lowerAfter_append_space (before context cs : List Char) :
    lowerAfter (before ++ ' ' :: context) cs = lowerAfter before cs := by
  induction cs generalizing before with
  | nil => rfl
  | cons c cs ih =>
    rw [lowerAfter, lowerAfter, lowerBetween_append_space, ← List.cons_append, ih]

/-- The characters behind a space do not matter for the text before it. -/
private theorem lowerAfter_before_space (before cs rest : List Char) :
    lowerAfter before (cs ++ ' ' :: rest) = lowerAfter before cs ++ ' ' :: lowercase rest := by
  induction cs generalizing before with
  | nil =>
    show [' '] ++ lowerAfter ([] ++ ' ' :: before) rest = ' ' :: lowercase rest
    rw [lowerAfter_append_space]
    rfl
  | cons c cs ih =>
    rw [List.cons_append, lowerAfter, lowerAfter, lowerBetween_before_space, ih,
      List.append_assoc]

/-- The texts around a space are lowered on their own. -/
theorem lowercase_append_space (xs ys : List Char) :
    lowercase (xs ++ ' ' :: ys) = lowercase xs ++ ' ' :: lowercase ys :=
  lowerAfter_before_space [] xs ys

/-- Pieces with spaces between them are lowered on their own. -/
theorem lowercase_joinSpaced (ws : List (List Char)) :
    lowercase (joinSpaced ws) = joinSpaced (ws.map lowercase) := by
  induction ws with
  | nil => rfl
  | cons w ws ih =>
    cases ws with
    | nil => simp [joinSpaced]
    | cons v ws =>
      rw [joinSpaced_cons_cons, lowercase_append_space, ih]
      exact (joinSpaced_cons_cons _ _ _).symm

/-! ### The lowercase form of one character -/

/-- The last of the lowercase forms of a run. -/
def CaseRun.lastImage (run : CaseRun) : Nat :=
  run.image + (run.last - run.first)

/-- A run has an image for the codes in its range that its step meets, at the same distance
from its first image. -/
theorem CaseRun.lower?_eq_some_iff {run : CaseRun} {code image : Nat} :
    run.lower? code = some image ↔
      (run.first ≤ code ∧ code ≤ run.last ∧ (code - run.first) % run.step = 0)
        ∧ run.image + (code - run.first) = image := by
  unfold CaseRun.lower?
  rw [Option.ite_none_right_eq_some, Option.some_inj]

/-- The image is in the range of the images. -/
theorem CaseRun.image_bounds {run : CaseRun} {code image : Nat}
    (h : run.lower? code = some image) : run.image ≤ image ∧ image ≤ run.lastImage := by
  obtain ⟨⟨_, _, -⟩, rfl⟩ := CaseRun.lower?_eq_some_iff.mp h
  unfold CaseRun.lastImage
  omega

/-- The lowercase forms in the table are characters, and none is an ASCII capital letter. -/
private theorem lowercaseRuns_image : ∀ run ∈ lowercaseRuns, 0x5A < run.image ∧
    (run.lastImage < 0xD800 ∨ 0xDFFF < run.image ∧ run.lastImage < 0x110000) := by
  decide +kernel

/-- All images in the table are beyond the ASCII capitals. -/
theorem capital_lt_image {run : CaseRun} (hrun : run ∈ lowercaseRuns) : 0x5A < run.image :=
  (lowercaseRuns_image run hrun).1

/-- Images are valid characters, so that making a character of one loses nothing. -/
private theorem toNat_ofNat_image {run : CaseRun} (hrun : run ∈ lowercaseRuns)
    {code image : Nat} (h : run.lower? code = some image) :
    (Char.ofNat image).toNat = image := by
  have hbounds := CaseRun.image_bounds h
  have himage := (lowercaseRuns_image run hrun).2
  have hvalid : image.isValidChar := by
    unfold Nat.isValidChar
    omega
  have hchar : Char.ofNat image = Char.ofNatAux image hvalid := dif_pos hvalid
  rw [hchar]
  rfl

/-- The lowercase form of a character is that of ASCII, two characters for U+0130, or a
character of the table. All other characters stay as they are. -/
theorem lowerChar_cases (c : Char) :
    (c.toNat < 0x80 ∧ lowerChar c = [c.toLower])
      ∨ lowerChar c = ['i', '\u0307']
      ∨ (∃ run ∈ lowercaseRuns, ∃ d : Char,
          run.lower? c.toNat = some d.toNat ∧ lowerChar c = [d])
      ∨ lowerChar c = [c] := by
  unfold lowerChar
  split
  · rename_i hascii
    exact .inl ⟨hascii, rfl⟩
  · split
    · exact .inr (.inl rfl)
    · split
      · rename_i code hcode
        obtain ⟨run, hrun, hlower⟩ := List.exists_of_findSome?_eq_some hcode
        refine .inr (.inr (.inl ⟨run, hrun, Char.ofNat code, ?_, rfl⟩))
        rw [toNat_ofNat_image hrun hlower, hlower]
      · exact .inr (.inr (.inr rfl))

/-- In its context a character becomes what it becomes on its own, or a final sigma. -/
theorem mem_lowerBetween {before : List Char} {c : Char} {after : List Char} {d : Char}
    (h : d ∈ lowerBetween before c after) : d = 'ς' ∨ d ∈ lowerChar c := by
  unfold lowerBetween at h
  split at h
  · rename_i hsigma
    have hsmall : lowerChar 'Σ' = ['σ'] := by decide +kernel
    rw [hsigma, hsmall]
    split at h
    · exact .inl (List.mem_singleton.mp h)
    · exact .inr h
  · exact .inr h

/-- A character of a lowered text is the sigma of a word's end, or comes from one character of
the text. -/
theorem mem_lowerAfter {before cs : List Char} {d : Char} (h : d ∈ lowerAfter before cs) :
    d = 'ς' ∨ ∃ c ∈ cs, d ∈ lowerChar c := by
  induction cs generalizing before with
  | nil => cases h
  | cons c cs ih =>
    rcases List.mem_append.mp h with hfirst | hrest
    · rcases mem_lowerBetween hfirst with hsigma | hd
      · exact .inl hsigma
      · exact .inr ⟨c, List.mem_cons_self, hd⟩
    · rcases ih hrest with hsigma | ⟨x, hx, hd⟩
      · exact .inl hsigma
      · exact .inr ⟨x, List.mem_cons_of_mem c hx, hd⟩

/-- Only the capital letters of ASCII change with the case of ASCII. -/
theorem toLower_of_not_capital {c : Char} (h : c.toNat < 0x41 ∨ 0x5A < c.toNat) :
    c.toLower = c := by
  unfold Char.toLower
  refine dif_neg fun hupper => ?_
  have hge : 0x41 ≤ c.toNat := UInt32.le_iff_toNat_le.mp hupper.1
  have hle : c.toNat ≤ 0x5A := UInt32.le_iff_toNat_le.mp hupper.2
  omega

/-- What is the same for the 26 capital letters and for their small letters does not change
with the case of ASCII. -/
theorem apply_toLower {α : Type} {f : Char → α}
    (h : ∀ n < 26, f (Char.ofNat (0x41 + n)).toLower = f (Char.ofNat (0x41 + n))) (c : Char) :
    f c.toLower = f c := by
  by_cases hcapital : c.toNat < 0x41 ∨ 0x5A < c.toNat
  · rw [toLower_of_not_capital hcapital]
  · have hletter := h (c.toNat - 0x41) (by omega)
    rwa [Nat.add_sub_cancel' (by omega), Char.ofNat_toNat] at hletter

/-! ### Lowering brings in no spaces -/

/-- Whether no character that is not in `p` has a lowercase form in `p`. -/
structure NotIntroduced (p : Char → Bool) : Prop where
  finalSigma : p 'ς' = false
  lowerChar : ∀ c, p c = false → ∀ d ∈ lowerChar c, p d = false

/-- It is enough to look at ASCII, at the forms of U+0130 and sigma, and at the table. -/
theorem NotIntroduced.of_table {p : Char → Bool}
    (hascii : ∀ n < 26, p (Char.ofNat (0x41 + n)).toLower = p (Char.ofNat (0x41 + n)))
    (hforms : ['i', '\u0307', 'ς'].all (!p ·))
    (htable : ∀ run ∈ lowercaseRuns, ∀ d : Char, run.image ≤ d.toNat → d.toNat ≤ run.lastImage →
      p d = false) : NotIntroduced p := by
  simp only [List.all_cons, List.all_nil, Bool.and_true, Bool.and_eq_true,
    Bool.not_eq_true'] at hforms
  obtain ⟨hi, hdot, hsigma⟩ := hforms
  refine ⟨hsigma, fun c hc d hd => ?_⟩
  rcases lowerChar_cases c with ⟨-, heq⟩ | heq | ⟨run, hrun, image, himage, heq⟩ | heq
  all_goals rw [heq] at hd
  · rw [List.mem_singleton.mp hd, apply_toLower hascii, hc]
  · rcases List.mem_cons.mp hd with rfl | hd
    · exact hi
    · exact List.mem_singleton.mp hd ▸ hdot
  · obtain ⟨hle, hlast⟩ := CaseRun.image_bounds himage
    exact List.mem_singleton.mp hd ▸ htable run hrun image hle hlast
  · exact List.mem_singleton.mp hd ▸ hc

/-- Text without characters in `p` has a lowercase form without them. -/
theorem NotIntroduced.lowerAfter {p : Char → Bool} (h : NotIntroduced p) (before : List Char)
    {cs : List Char} (hcs : ∀ c ∈ cs, p c = false) :
    ∀ d ∈ lowerAfter before cs, p d = false := by
  intro d hd
  rcases mem_lowerAfter hd with rfl | ⟨c, hc, hd⟩
  · exact h.finalSigma
  · exact h.lowerChar c (hcs c hc) d hd

/-- Lowering brings in no spaces. -/
theorem notIntroduced_space : NotIntroduced (· == ' ') := by
  refine .of_table (by decide +kernel) (by decide) fun run hrun d hd _ => ?_
  have himage := capital_lt_image hrun
  rw [beq_eq_false_iff_ne]
  rintro rfl
  have hspace : run.image ≤ 0x20 := hd
  omega

/-- Every character is lowered to something. -/
theorem lowerBetween_ne_nil (before : List Char) (c : Char) (after : List Char) :
    lowerBetween before c after ≠ [] := by
  unfold lowerBetween lowerChar
  split
  · simp
  · repeat' split
    all_goals simp

/-- A text with characters is lowered to one with characters. -/
theorem lowercase_ne_nil {cs : List Char} (h : cs ≠ []) : lowercase cs ≠ [] := by
  obtain ⟨c, cs, rfl⟩ := List.exists_cons_of_ne_nil h
  simp [lowercase, lowerAfter, lowerBetween_ne_nil]

/-- The lowercase forms of pieces are pieces, too. -/
theorem NotIntroduced.lowercase_pieces {p : Char → Bool} (hp : NotIntroduced p)
    {ws : List (List Char)} (h : ∀ w ∈ ws, w ≠ [] ∧ ∀ c ∈ w, p c = false) :
    ∀ lowered ∈ ws.map lowercase, lowered ≠ [] ∧ ∀ c ∈ lowered, p c = false := by
  intro lowered hlowered
  obtain ⟨w, hw, rfl⟩ := List.mem_map.mp hlowered
  obtain ⟨hne, hnot⟩ := h w hw
  exact ⟨lowercase_ne_nil hne, hp.lowerAfter [] hnot⟩

/-- Cutting a lowered text at its spaces gives the lowered pieces. -/
theorem pieces_lowercase_joinSpaced {ws : List (List Char)}
    (h : ∀ w ∈ ws, w ≠ [] ∧ ' ' ∉ w) :
    pieces (· == ' ') (lowercase (joinSpaced ws)) = ws.map lowercase := by
  rw [lowercase_joinSpaced]
  refine pieces_joinSpaced (by decide) (notIntroduced_space.lowercase_pieces fun w hw => ?_)
  obtain ⟨hne, hspace⟩ := h w hw
  exact ⟨hne, fun c hc => beq_eq_false_iff_ne.mpr fun heq => hspace (heq ▸ hc)⟩

/-! ### Text that is lowercase already -/

/-- Whether lowering leaves a character as it is. -/
def IsLowered (c : Char) : Prop :=
  lowerChar c = [c]

instance : DecidablePred IsLowered :=
  fun c => inferInstanceAs (Decidable (lowerChar c = [c]))

/-- A sigma is left as it is only if it is a small one, so the letters around a character that
is left as it is do not matter. -/
theorem IsLowered.lowerBetween {c : Char} (h : IsLowered c) (before after : List Char) :
    lowerBetween before c after = [c] := by
  have hsigma : c ≠ 'Σ' := by
    rintro rfl
    exact absurd h (by decide +kernel)
  rw [Text.lowerBetween, if_neg hsigma]
  exact h

/-- Text of such characters stays as it is. -/
theorem lowercase_of_isLowered {cs : List Char} (h : ∀ c ∈ cs, IsLowered c) :
    lowercase cs = cs := by
  suffices hafter : ∀ before, lowerAfter before cs = cs from hafter []
  induction cs with
  | nil => exact fun _ => rfl
  | cons c cs ih =>
    intro before
    rw [lowerAfter, (h c List.mem_cons_self).lowerBetween,
      ih (fun d hd => h d (List.mem_cons_of_mem c hd))]
    rfl

/-- Whether `c` is an ASCII character and no capital letter. -/
def isLowerAscii (c : Char) : Bool :=
  c.toNat < 0x80 && !c.isUpper

/-- The ASCII characters of tokens are lowered already. -/
theorem isLowered_of_isLowerAscii {c : Char} (h : isLowerAscii c) : IsLowered c := by
  obtain ⟨hascii, hupper⟩ : c.toNat < 0x80 ∧ c.isUpper = false := by
    simpa [isLowerAscii] using h
  have hlower : c.toLower = c := by
    unfold Char.toLower
    rw [dif_neg (of_decide_eq_false hupper)]
  rw [IsLowered, lowerChar, if_pos hascii, hlower]

/-- ASCII text without capital letters stays as it is. -/
theorem lowercase_of_isLowerAscii {cs : List Char} (h : ∀ c ∈ cs, isLowerAscii c) :
    lowercase cs = cs :=
  lowercase_of_isLowered fun c hc => isLowered_of_isLowerAscii (h c hc)

end MiniMips.Text
