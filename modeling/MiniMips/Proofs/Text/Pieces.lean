import MiniMips.Text.Pieces

/-!
# `MiniMips.Proofs.Text.Pieces`: cutting a text and joining it again

`pieces` cuts a text at every separator and `joinSpaced` puts spaces between the parts.
The theorems:

* `pieces_append_cons`: a separator splits the pieces of a text. The others follow from
  this equation.
* `pieces_of_forall`: separators alone have no pieces.
* `mem_pieces`: a piece is not empty and holds no separator.
* `mem_joinSpaced`: joined pieces hold nothing but their characters and spaces.
* `pieces_joinSpaced`: joined pieces are found again, for any separators with the space
  among them.
* `pieces_eq_iff`: the pieces of a text are its runs, as `Runs` tells them apart.
* `betweenPieces_joinSpaced`: every space in joined pieces stands between two of them.
-/

set_option autoImplicit false

namespace MiniMips.Text

variable {p : Char → Bool}

/-- The empty text has no pieces. -/
@[simp] theorem pieces_nil : pieces p [] = [] := by
  simp [pieces]

/-- The pieces around a separator are those before it and those after it. -/
theorem pieces_append_cons {sep : Char} (hsep : p sep) (xs ys : List Char) :
    pieces p (xs ++ sep :: ys) = pieces p xs ++ pieces p ys := by
  unfold pieces
  rw [List.splitOnP_append_cons xs ys hsep, List.filter_append]

/-- A nonempty text without separators is one piece. -/
theorem pieces_of_forall_not {w : List Char} (hne : w ≠ []) (h : ∀ c ∈ w, p c = false) :
    pieces p w = [w] := by
  unfold pieces
  rw [List.splitOnP_eq_singleton h]
  simp [hne]

/-- Separators alone have no pieces. -/
theorem pieces_of_forall {cs : List Char} (h : ∀ c ∈ cs, p c) : pieces p cs = [] := by
  induction cs with
  | nil => exact pieces_nil
  | cons c cs ih =>
    show pieces p ([] ++ c :: cs) = []
    rw [pieces_append_cons (h c List.mem_cons_self), pieces_nil,
      ih fun d hd => h d (List.mem_cons_of_mem c hd)]
    rfl

/-- A separator at the end of a text is in no piece. -/
theorem pieces_append_singleton {sep : Char} (hsep : p sep) (cs : List Char) :
    pieces p (cs ++ [sep]) = pieces p cs := by
  rw [pieces_append_cons hsep, pieces_nil, List.append_nil]

/-- The parts of a split are free of separators. -/
private theorem eq_false_of_mem_splitOnP (cs : List Char) :
    ∀ w ∈ cs.splitOnP p, ∀ c ∈ w, p c = false := by
  induction cs with
  | nil => simp
  | cons c cs ih =>
    -- The first character is a separator or joins the first part of the rest.
    obtain ⟨head, rest, hsplit⟩ := List.exists_cons_of_ne_nil (List.splitOnP_ne_nil p cs)
    rw [hsplit] at ih
    rw [List.splitOnP_cons_eq_if_modifyHead, hsplit]
    cases hc : p c with
    | true => simpa using ih
    | false => simpa [hc] using ih

/-- A piece is not empty and holds no separator. -/
theorem mem_pieces {cs w : List Char} (h : w ∈ pieces p cs) :
    w ≠ [] ∧ ∀ c ∈ w, p c = false := by
  obtain ⟨hsplit, hne⟩ := List.mem_filter.mp h
  exact ⟨by simpa using hne, eq_false_of_mem_splitOnP cs w hsplit⟩

/-- Joining one more piece in front of others. -/
theorem joinSpaced_cons_cons (w v : List Char) (ws : List (List Char)) :
    joinSpaced (w :: v :: ws) = w ++ ' ' :: joinSpaced (v :: ws) := by
  simp [joinSpaced, List.intercalate_cons_cons]

/-- Joining pieces adds nothing but spaces. -/
theorem mem_joinSpaced {c : Char} {ws : List (List Char)} (h : c ∈ joinSpaced ws) :
    c = ' ' ∨ ∃ w ∈ ws, c ∈ w := by
  induction ws with
  | nil => cases h
  | cons w ws ih =>
    cases ws with
    | nil =>
      rw [joinSpaced, List.intercalate_singleton] at h
      exact .inr ⟨w, List.mem_cons_self, h⟩
    | cons v ws =>
      rw [joinSpaced_cons_cons, List.mem_append, List.mem_cons] at h
      rcases h with hfirst | hspace | hrest
      · exact .inr ⟨w, List.mem_cons_self, hfirst⟩
      · exact .inl hspace
      · rcases ih hrest with hspace | ⟨u, hu, hmem⟩
        · exact .inl hspace
        · exact .inr ⟨u, List.mem_cons_of_mem w hu, hmem⟩

/-- The first of the pieces stays in front. -/
theorem prefix_joinSpaced (w : List Char) (ws : List (List Char)) :
    w <+: joinSpaced (w :: ws) := by
  cases ws with
  | nil =>
    have hjoin : joinSpaced [w] = w := List.intercalate_singleton
    exact ⟨[], (List.append_nil w).trans hjoin.symm⟩
  | cons v ws =>
    rw [joinSpaced_cons_cons]
    exact List.prefix_append _ _

/-- Joined pieces are found again where the space is a separator. -/
theorem pieces_joinSpaced (hspace : p ' ') {ws : List (List Char)}
    (h : ∀ w ∈ ws, w ≠ [] ∧ ∀ c ∈ w, p c = false) : pieces p (joinSpaced ws) = ws := by
  induction ws with
  | nil => exact pieces_nil
  | cons w ws ih =>
    obtain ⟨hne, hw⟩ := h w (by simp)
    cases ws with
    | nil =>
      rw [joinSpaced, List.intercalate_singleton]
      exact pieces_of_forall_not hne hw
    | cons v ws =>
      -- The space between the first two pieces splits the text there.
      rw [joinSpaced_cons_cons, pieces_append_cons hspace, pieces_of_forall_not hne hw,
        ih fun u hu => h u (List.mem_cons_of_mem w hu)]
      rfl

/-! ### Runs -/

/-- The longest parts of a text without separators, in order. Such a part ends before a
separator or at the end of the text, and the next one starts behind the separators. -/
inductive Runs (p : Char → Bool) : List Char → List (List Char) → Prop where
  | nil : Runs p [] []
  | separator {c : Char} {cs : List Char} {ws : List (List Char)} (hc : p c)
      (hrest : Runs p cs ws) : Runs p (c :: cs) ws
  | last {w : List Char} (hne : w ≠ []) (hw : ∀ c ∈ w, p c = false) : Runs p w [w]
  | run {w : List Char} {sep : Char} {cs : List Char} {ws : List (List Char)} (hne : w ≠ [])
      (hw : ∀ c ∈ w, p c = false) (hsep : p sep) (hrest : Runs p cs ws) :
      Runs p (w ++ sep :: cs) (w :: ws)

/-- A text has no other runs than its pieces. -/
theorem Runs.pieces_eq {cs : List Char} {ws : List (List Char)} (h : Runs p cs ws) :
    pieces p cs = ws := by
  induction h with
  | nil => exact pieces_nil
  | @separator c cs ws hc _ ih =>
    show pieces p ([] ++ c :: cs) = ws
    rw [pieces_append_cons hc, pieces_nil, ih]
    rfl
  | last hne hw => exact pieces_of_forall_not hne hw
  | run hne hw hsep _ ih =>
    rw [pieces_append_cons hsep, pieces_of_forall_not hne hw, ih]
    rfl

/-- A text has runs: its first character is a separator, or it starts a run, or it joins the
run that starts behind it. -/
theorem exists_runs (p : Char → Bool) (cs : List Char) : ∃ ws, Runs p cs ws := by
  induction cs with
  | nil => exact ⟨[], .nil⟩
  | cons c cs ih =>
    obtain ⟨ws, h⟩ := ih
    cases hc : p c with
    | true => exact ⟨ws, .separator hc h⟩
    | false =>
      have hsingle : ∀ d ∈ [c], p d = false := by simpa using hc
      -- A character in front of the runs joins the first of them when that one begins right
      -- behind it, and is a run by itself otherwise.
      cases h with
      | nil => exact ⟨[[c]], .last (by simp) hsingle⟩
      | separator hd hrest => exact ⟨[c] :: ws, .run (by simp) hsingle hd hrest⟩
      | last _ hw => exact ⟨[c :: cs], .last (by simp) (by simpa [hc] using hw)⟩
      | @run w _ _ vs _ hw hsep hrest =>
        have hjoined : ∀ d ∈ c :: w, p d = false := by simpa [hc] using hw
        exact ⟨(c :: w) :: vs, .run (List.cons_ne_nil c w) hjoined hsep hrest⟩

/-- The pieces of a text are its runs. -/
theorem pieces_eq_iff {cs : List Char} {ws : List (List Char)} :
    pieces p cs = ws ↔ Runs p cs ws := by
  constructor
  · rintro rfl
    obtain ⟨ws, h⟩ := exists_runs p cs
    rwa [h.pieces_eq]
  · exact Runs.pieces_eq

/-- Every character is a separator or stands in a run. -/
theorem Runs.mem_or {cs : List Char} {ws : List (List Char)} (h : Runs p cs ws) :
    ∀ c ∈ cs, p c ∨ ∃ w ∈ ws, c ∈ w := by
  induction h with
  | nil => simp
  | separator hc _ ih =>
    intro c hmem
    rcases List.mem_cons.mp hmem with rfl | hrest
    · exact .inl hc
    · exact ih c hrest
  | last => simpa using fun c hc => .inr hc
  | @run w _ _ ws _ _ hsep _ ih =>
    intro c hmem
    rcases List.mem_append.mp hmem with hfirst | hmem
    · exact .inr ⟨w, List.mem_cons_self, hfirst⟩
    · rcases List.mem_cons.mp hmem with rfl | hrest
      · exact .inl hsep
      · rcases ih c hrest with hc | ⟨v, hv, hc⟩
        · exact .inl hc
        · exact .inr ⟨v, List.mem_cons_of_mem w hv, hc⟩

/-- A text without pieces holds separators alone. -/
theorem pieces_eq_nil_iff {cs : List Char} : pieces p cs = [] ↔ ∀ c ∈ cs, p c := by
  constructor
  · intro h c hc
    simpa using (pieces_eq_iff.mp h).mem_or c hc
  · exact pieces_of_forall

/-! ### Spaces between pieces -/

/-- Whether every space has a neighbour on each side that is no separator. So there are no two
spaces in a row, and none at the start or the end. -/
def BetweenPieces (p : Char → Bool) (cs : List Char) : Prop :=
  ∀ before after, cs = before ++ ' ' :: after →
    (∃ front c, before = front ++ [c] ∧ p c = false)
      ∧ ∃ c back, after = c :: back ∧ p c = false

/-- A text without separators holds no space at all. -/
theorem betweenPieces_of_forall_not (hspace : p ' ') {w : List Char}
    (hw : ∀ c ∈ w, p c = false) : BetweenPieces p w := by
  rintro before after rfl
  have hnot := hw ' ' (by simp)
  rw [hspace] at hnot
  cases hnot

/-- The space behind a piece stands between it and the next one. -/
theorem BetweenPieces.append_cons (hspace : p ' ') {w rest : List Char} (hne : w ≠ [])
    (hw : ∀ c ∈ w, p c = false) (hstart : ∃ c back, rest = c :: back ∧ p c = false)
    (h : BetweenPieces p rest) : BetweenPieces p (w ++ ' ' :: rest) := by
  have hend : ∃ front c, w = front ++ [c] ∧ p c = false := by
    have hlast := List.dropLast_concat_getLast hne
    exact ⟨_, _, hlast.symm, hw _ (List.getLast_mem hne)⟩
  have hnotMem : ' ' ∉ w := fun hmem => by simp [hw ' ' hmem] at hspace
  intro before after heq
  -- A space of the whole is the one put in or one of the rest; the first piece has none.
  rcases List.append_eq_append_iff.mp heq with ⟨middle, rfl, hmiddle⟩ | ⟨tail, rfl, htail⟩
  · cases middle with
    | nil =>
      obtain ⟨-, rfl⟩ := List.cons.inj hmiddle
      rw [List.append_nil]
      exact ⟨hend, hstart⟩
    | cons space middle =>
      obtain ⟨rfl, hrest⟩ := List.cons.inj hmiddle
      obtain ⟨⟨front, c, rfl, hc⟩, hafter⟩ := h middle after hrest
      exact ⟨⟨w ++ ' ' :: front, c, by simp, hc⟩, hafter⟩
  · cases tail with
    | nil =>
      obtain ⟨-, rfl⟩ := List.cons.inj htail
      rw [List.append_nil] at hend
      exact ⟨hend, hstart⟩
    | cons space tail =>
      obtain ⟨rfl, -⟩ := List.cons.inj htail
      exact absurd (by simp) hnotMem

/-- The spaces of joined pieces stand between them. -/
theorem betweenPieces_joinSpaced (hspace : p ' ') {ws : List (List Char)}
    (h : ∀ w ∈ ws, w ≠ [] ∧ ∀ c ∈ w, p c = false) : BetweenPieces p (joinSpaced ws) := by
  induction ws with
  | nil => exact betweenPieces_of_forall_not hspace (by simp [joinSpaced])
  | cons w ws ih =>
    obtain ⟨hne, hw⟩ := h w List.mem_cons_self
    cases ws with
    | nil =>
      rw [joinSpaced, List.intercalate_singleton]
      exact betweenPieces_of_forall_not hspace hw
    | cons v ws =>
      obtain ⟨hv, hvs⟩ := h v (by simp)
      -- The space put in stands before the first character of the next piece, which is no
      -- separator.
      obtain ⟨c, cs, rfl⟩ := List.exists_cons_of_ne_nil hv
      obtain ⟨rest, hjoin⟩ := prefix_joinSpaced (c :: cs) ws
      rw [joinSpaced_cons_cons]
      exact .append_cons hspace hne hw ⟨c, cs ++ rest, hjoin.symm, hvs c (by simp)⟩
        (ih fun u hu => h u (List.mem_cons_of_mem w hu))

end MiniMips.Text
