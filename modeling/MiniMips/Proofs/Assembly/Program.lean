import Mathlib.Data.List.TakeWhile
import MiniMips.Assembly.Program
import MiniMips.Proofs.Assembly.RoundTrip

/-!
# `MiniMips.Proofs.Assembly.Program`: programs line by line

A program is assembled in passes: its lines are numbered, the blank ones are dropped, and the
others are encoded up to the first error. `assembleLines` does the same in one walk over the
lines,

    assembleProgram source = assembleLines 1 (source.toList.splitOn '\n')

and it is this walk that proofs go by. The theorems:

* `assembleProgram_eq`: the equation above.
* `assembleLines_cons_of_isCodeLine`: a line with code and no comment.
* `isCodeLine_disassemble`: the text of a word is such a line.
* `assembleLines_disassemble`: the texts of words, up to the first that is no instruction.
-/

set_option autoImplicit false

namespace MiniMips

open Text

/-! ### One walk over the lines -/

/-- The words of some lines, of which the first has the given number. -/
def assembleLines (number : Nat) : List (List Char) → Except ProgramError (List Word)
  | [] => .ok []
  | line :: lines =>
    if (withoutComment line).all isWhiteSpace then assembleLines (number + 1) lines
    else do
      let word ← encodeLine number (String.ofList (withoutComment line))
      let words ← assembleLines (number + 1) lines
      return word :: words

/-- Numbering the lines, dropping the blank ones and encoding the others is one walk. -/
theorem mapM_encodeLine_eq (number : Nat) (lines : List (List Char)) :
    (((lines.map withoutComment).zipIdx number).filterMap fun (line, number) =>
        if line.all isWhiteSpace then none else some (number, String.ofList line)).mapM
          (fun (number, line) => encodeLine number line)
      = assembleLines number lines := by
  induction lines generalizing number with
  | nil => rfl
  | cons line lines ih =>
    rw [List.map_cons, List.zipIdx_cons, List.filterMap_cons, assembleLines, ← ih]
    -- A blank line has a number, too, so the other lines keep theirs.
    by_cases hblank : (withoutComment line).all isWhiteSpace
    · simp only [if_pos hblank]
    · simp only [if_neg hblank]
      exact List.mapM_cons

/-- A program is assembled line by line. -/
theorem assembleProgram_eq (source : String) :
    assembleProgram source = assembleLines 1 (source.toList.splitOn '\n') :=
  mapM_encodeLine_eq 1 _

/-! ### Lines with code -/

/-- A comment ends the code of a line, whatever it says. -/
theorem withoutComment_append_cons {code : List Char} (h : '#' ∉ code) (comment : List Char) :
    withoutComment (code ++ '#' :: comment) = code := by
  have hcode : ∀ c ∈ code, (c != '#') = true := by
    intro c hc
    rw [bne_iff_ne]
    exact ne_of_mem_of_not_mem hc h
  rw [withoutComment, List.takeWhile_append_of_pos hcode]
  simp

/-- A line without the comment sign is all code. -/
theorem withoutComment_of_comment_notMem {code : List Char} (h : '#' ∉ code) :
    withoutComment code = code := by
  refine List.takeWhile_eq_self_iff.mpr ?_
  intro c hc
  rw [bne_iff_ne]
  exact ne_of_mem_of_not_mem hc h

/-- Whether a text is one line with code and no comment. -/
structure IsCodeLine (line : List Char) : Prop where
  newline_notMem : '\n' ∉ line
  comment_notMem : '#' ∉ line
  exists_mem : ∃ c ∈ line, isWhiteSpace c = false

/-- Such a line is encoded as it stands. -/
theorem assembleLines_cons_of_isCodeLine {line : List Char} (h : IsCodeLine line)
    (number : Nat) (lines : List (List Char)) :
    assembleLines number (line :: lines) = do
      let word ← encodeLine number (String.ofList line)
      let words ← assembleLines (number + 1) lines
      return word :: words := by
  have hblank : line.all isWhiteSpace = false := by
    obtain ⟨c, hc, hwhite⟩ := h.exists_mem
    exact List.all_eq_false.mpr ⟨c, hc, by rw [hwhite]; exact Bool.false_ne_true⟩
  rw [assembleLines, withoutComment_of_comment_notMem h.comment_notMem, hblank]
  rfl

/-- Words with spaces between them are such a line. -/
theorem isCodeLine_intercalate {text : String} {texts : List String}
    (h : ∀ word ∈ text :: texts, IsWord word) :
    IsCodeLine (" ".intercalate (text :: texts)).toList := by
  rw [toList_intercalate_space]
  have hmem : ∀ c ∈ joinSpaced ((text :: texts).map String.toList),
      c = ' ' ∨ isSeparator c = false ∧ c ≠ '#' := by
    intro c hc
    rcases mem_joinSpaced hc with hspace | ⟨piece, hpiece, hmem⟩
    · exact .inl hspace
    · obtain ⟨word, hword, rfl⟩ := List.mem_map.mp hpiece
      exact .inr ⟨(h word hword).isSeparator c hmem, (h word hword).ne_comment c hmem⟩
  -- A line feed is a separator and a comment sign is not in any word, so neither is in the
  -- line.
  refine ⟨?_, ?_, ?_⟩
  · intro hnewline
    exact absurd (hmem _ hnewline) (by decide)
  · intro hcomment
    exact absurd (hmem _ hcomment) (by decide)
  · -- The first character of the first word is no separator, so it is not white space.
    have hfirst := h text List.mem_cons_self
    obtain ⟨c, hc⟩ := List.exists_mem_of_ne_nil _ (show text.toList ≠ [] by simpa using hfirst.1)
    refine ⟨c, (prefix_joinSpaced _ _).subset hc, ?_⟩
    have hseparator := hfirst.isSeparator c hc
    rw [isSeparator, Bool.or_eq_false_iff] at hseparator
    exact hseparator.2

/-! ### The texts of words -/

/-- The text of a word is a line with code. -/
theorem isCodeLine_disassemble (word : Word) : IsCodeLine (disassemble word).toList := by
  unfold disassemble
  cases decode word with
  | ok instruction =>
    refine isCodeLine_intercalate ?_
    intro text htext
    exact (instruction.isToken_of_mem_text text htext).isWord
  | error fault =>
    show IsCodeLine ("Unknown Instruction " ++ hex word.toNat).toList
    rw [unknown_eq_intercalate]
    exact isCodeLine_intercalate (isWord_of_mem_unknown (isToken_hex _))

/-- Whether a word holds no instruction. -/
def isUnknown (word : Word) : Bool :=
  match decode word with
  | .ok _ => false
  | .error _ => true

/-- The lines with the texts of words. The walk ends at the first word that is no
instruction. -/
theorem assembleLines_disassemble (number : Nat) (words : List Word) :
    assembleLines number (words.map fun word => (disassemble word).toList)
      = match words.findIdx? isUnknown with
        | none => .ok (words.map canonical)
        | some i => .error ⟨number + i, .unknownMnemonic "unknown"⟩ := by
  induction words generalizing number with
  | nil => rfl
  | cons word words ih =>
    rw [List.map_cons, assembleLines_cons_of_isCodeLine (isCodeLine_disassemble word), ih,
      List.findIdx?_cons, String.ofList_toList, encodeLine, isUnknown]
    cases hdecode : decode word with
    | ok instruction =>
      rw [encode_disassemble_of_decode hdecode]
      cases words.findIdx? isUnknown with
      | none => rfl
      | some i =>
        -- The walk over the other lines starts at the next number.
        show Except.error (ProgramError.mk (number + 1 + i) _) = _
        rw [Nat.add_right_comm]
        rfl
    | error fault =>
      rw [disassemble, hdecode]
      show ((encode ("Unknown Instruction " ++ hex word.toNat)).mapError _ >>= _) = _
      rw [encode_unknown (isToken_hex _)]
      rfl

/-- The texts of words, one on each line, are assembled to canonical words. Words that are
no instruction are refused, with the line of the first of them. -/
theorem assembleProgram_disassemble {words : List Word} (h : words ≠ []) :
    assembleProgram ("\n".intercalate (words.map disassemble))
      = match words.findIdx? isUnknown with
        | none => .ok (words.map canonical)
        | some i => .error ⟨1 + i, .unknownMnemonic "unknown"⟩ := by
  have hlines : ("\n".intercalate (words.map disassemble)).toList.splitOn '\n'
      = words.map fun word => (disassemble word).toList := by
    rw [String.toList_intercalate, List.map_map]
    refine List.splitOn_intercalate '\n' ?_ ?_
    · intro line hline
      obtain ⟨word, -, rfl⟩ := List.mem_map.mp hline
      exact (isCodeLine_disassemble word).newline_notMem
    · exact mt List.map_eq_nil_iff.mp h
  rw [assembleProgram_eq, hlines, assembleLines_disassemble]

end MiniMips
