import MiniMips.Proofs.Assembly.Program

/-!
# `MiniMips.Proofs.Assembly.Concatenation`: programs one behind the other

A program can be cut at any newline. Its parts are assembled on their own and the words are
put one behind the other,

    assembleLines number (lines ++ others)
      = assembleLines number lines, then assembleLines (number + lines.length) others

and a part that starts at a later line has the same errors, counted from there. It does not
matter how the text ends its lines: a carriage return before a newline is white space at the
end of a line, and a newline at the end of the text starts a blank line. The theorems:

* `assembleLines_append`: the lines of a program in two parts.
* `assembleLines_add`: the same lines further down.
* `assembleProgram_append`: two sources with a newline between them.
* `assembleProgram_of_newline_notMem`: a source of one line.
* `assembleProgram_eq_textLines`: the lines as text files end them.
* `assembleProgram_composed`: all of it.
-/

set_option autoImplicit false

namespace MiniMips

open Text

/-! ### Lines in two parts -/

/-- The error in a text that stands behind a number of other lines. -/
def ProgramError.behind (error : ProgramError) (lines : Nat) : ProgramError :=
  ⟨lines + error.line, error.error⟩

/-- A line further down in the source has the same word, or the same error with its own number. -/
theorem encodeLine_add (before number : Nat) (line : String) :
    encodeLine (before + number) line = (encodeLine number line).mapError (·.behind before) := by
  unfold encodeLine
  cases encode line <;> rfl

/-- Lines that stand further down have the same words, and the same errors further down. -/
theorem assembleLines_add (before number : Nat) (lines : List (List Char)) :
    assembleLines (before + number) lines
      = (assembleLines number lines).mapError (·.behind before) := by
  induction lines generalizing number with
  | nil => rfl
  | cons line lines ih =>
    rw [assembleLines, assembleLines, Nat.add_assoc, ih, encodeLine_add]
    by_cases hblank : (withoutComment line).all isWhiteSpace
    · rw [if_pos hblank, if_pos hblank]
    · rw [if_neg hblank, if_neg hblank]
      -- Whichever of the two fails first, its error is moved.
      cases encodeLine number (String.ofList (withoutComment line)) with
      | error error => rfl
      | ok word => cases assembleLines (number + 1) lines <;> rfl

/-- The lines of a program can be assembled in two parts, the first part first. -/
theorem assembleLines_append (number : Nat) (lines others : List (List Char)) :
    assembleLines number (lines ++ others) = do
      let words ← assembleLines number lines
      let rest ← assembleLines (number + lines.length) others
      return words ++ rest := by
  induction lines generalizing number with
  | nil =>
    rw [List.nil_append, List.length_nil, Nat.add_zero]
    cases assembleLines number others <;> rfl
  | cons line lines ih =>
    rw [List.cons_append, assembleLines, assembleLines, ih, List.length_cons,
      Nat.add_right_comm, Nat.add_assoc number]
    -- A blank line has no word and can have no error. Any other line fails first, or not at
    -- all.
    by_cases hblank : (withoutComment line).all isWhiteSpace
    · rw [if_pos hblank, if_pos hblank]
    · rw [if_neg hblank, if_neg hblank]
      cases encodeLine number (String.ofList (withoutComment line)) with
      | error error => rfl
      | ok word =>
        cases assembleLines (number + 1) lines with
        | error error => rfl
        | ok words => cases assembleLines (number + (lines.length + 1)) others <;> rfl

/-- A text has one line more than it has newlines. -/
theorem length_splitOn_newline (source : List Char) :
    (source.splitOn '\n').length = 1 + source.count '\n' := by
  induction source with
  | nil => rfl
  | cons c source ih =>
    rw [List.splitOn_cons_eq_if_modifyHead, List.count_cons]
    by_cases hnewline : c = '\n'
    · simp [hnewline, ih]
      omega
    · simp [hnewline, ih]

/-- Two sources with a newline between them. The first error of the first source comes first,
and the lines of the second source are counted on from the first. -/
theorem assembleProgram_append (source other : String) :
    assembleProgram (source ++ "\n" ++ other) = do
      let words ← assembleProgram source
      let rest ← (assembleProgram other).mapError
        (·.behind (1 + source.toList.count '\n'))
      return words ++ rest := by
  have hlines : (source ++ "\n" ++ other).toList.splitOn '\n'
      = source.toList.splitOn '\n' ++ other.toList.splitOn '\n' := by
    rw [String.toList_append, String.toList_append, List.append_assoc]
    exact List.splitOn_append_cons_self _ _
  rw [assembleProgram_eq, assembleProgram_eq, assembleProgram_eq, hlines, assembleLines_append,
    length_splitOn_newline, Nat.add_comm, assembleLines_add]

/-! ### One line -/

/-- A source of one line has at most one word, that of its code. -/
theorem assembleProgram_of_newline_notMem {source : String} (h : '\n' ∉ source.toList) :
    assembleProgram source =
      if (withoutComment source.toList).all isWhiteSpace then .ok []
      else (encodeLine 1 (String.ofList (withoutComment source.toList))).map ([·]) := by
  rw [assembleProgram_eq, List.splitOn_eq_singleton h, assembleLines]
  cases encodeLine 1 (String.ofList (withoutComment source.toList)) <;> rfl

/-- A line without a word is refused, unless it is blank. -/
theorem assembleProgram_of_forall_isSeparator {source : String} (h : '\n' ∉ source.toList)
    (hcode : ∀ c ∈ withoutComment source.toList, isSeparator c)
    (hcomma : ',' ∈ withoutComment source.toList) :
    assembleProgram source = .error ⟨1, .unknownMnemonic ""⟩ := by
  have hblank : ¬(withoutComment source.toList).all isWhiteSpace := by
    rw [List.all_eq_true]
    intro hall
    exact absurd (hall ',' hcomma) (by decide)
  rw [assembleProgram_of_newline_notMem h, if_neg hblank, encodeLine,
    encode_eq_of_tokens_eq_nil (tokens_of_forall_isSeparator hcode)]
  rfl

/-! ### Lines as text files end them -/

/-- A line without the carriage return at its end, if there is one. -/
def withoutReturn (line : List Char) : List Char :=
  if line.getLast? = some '\r' then line.dropLast else line

/-- The lines of a text, of which the characters `line` have been read. A newline ends a line,
and a carriage return before it belongs to the line end. Without any characters behind the last
newline there is no further line. -/
def linesAfter (line : List Char) : List Char → List (List Char)
  | [] => if line.isEmpty then [] else [line]
  | c :: cs =>
    if c = '\n' then withoutReturn line :: linesAfter [] cs else linesAfter (line ++ [c]) cs

/-- The lines of a text. -/
def textLines (source : List Char) : List (List Char) :=
  linesAfter [] source

/-- White space at the end of a line belongs to its comment, or separates nothing. -/
theorem assembleLines_cons_append_singleton {c : Char} (h : isWhiteSpace c) (number : Nat)
    (line : List Char) (lines : List (List Char)) :
    assembleLines number ((line ++ [c]) :: lines) = assembleLines number (line :: lines) := by
  rw [assembleLines, assembleLines]
  -- Within a comment the character is dropped. Else it is one more separator, for the test of
  -- a blank line as well as for the tokens.
  by_cases hcomment : '#' ∈ line
  · obtain ⟨code, comment, rfl, hcode⟩ := List.eq_append_cons_of_mem hcomment
    rw [List.append_assoc, List.cons_append, withoutComment_append_cons hcode,
      withoutComment_append_cons hcode]
  · have hcomment' : '#' ∉ line ++ [c] := by
      rw [List.mem_append, List.mem_singleton]
      rintro (hmem | rfl)
      · exact hcomment hmem
      · exact absurd h (by decide)
    have hseparator : isSeparator c := by
      simp [isSeparator, h]
    have hencode : encode (String.ofList (line ++ [c])) = encode (String.ofList line) :=
      encode_congr (tokens_append_singleton hseparator line)
    rw [withoutComment_of_comment_notMem hcomment, withoutComment_of_comment_notMem hcomment',
      encodeLine, encodeLine, hencode]
    simp [h]

/-- A carriage return at the end of a line is a separator, so it does not change the program. -/
theorem assembleLines_cons_withoutReturn (number : Nat) (line : List Char)
    (lines : List (List Char)) :
    assembleLines number (withoutReturn line :: lines) = assembleLines number (line :: lines) := by
  unfold withoutReturn
  by_cases hreturn : line.getLast? = some '\r'
  · rw [if_pos hreturn]
    have hline := List.dropLast_append_getLast? '\r' hreturn
    rw [← assembleLines_cons_append_singleton (show isWhiteSpace '\r' by decide), hline]
  · rw [if_neg hreturn]

/-- The lines that a reader collects, with the last one only if it is not empty, assemble as
the pieces between line feeds do. -/
theorem assembleLines_linesAfter (number : Nat) (line source : List Char) (h : '\n' ∉ line) :
    assembleLines number (linesAfter line source)
      = assembleLines number ((line ++ source).splitOn '\n') := by
  -- Induction on the text that is left to read, with the line that has been read so far.
  induction source generalizing number line with
  | nil =>
    rw [List.append_nil, List.splitOn_eq_singleton h, linesAfter]
    cases line with
    | nil => rfl
    | cons c line => rfl
  | cons c source ih =>
    rw [linesAfter]
    by_cases hnewline : c = '\n'
    · rw [if_pos hnewline, hnewline, List.splitOn_append_cons_self, List.splitOn_eq_singleton h,
        assembleLines_cons_withoutReturn, List.singleton_append, assembleLines, assembleLines,
        ih _ _ (List.not_mem_nil), List.nil_append]
    · rw [if_neg hnewline, ih, List.append_assoc]
      · rfl
      · simp [h, Ne.symm hnewline]

/-- Line ends and the end of the text make no difference. -/
theorem assembleProgram_eq_textLines (source : String) :
    assembleProgram source = assembleLines 1 (textLines source.toList) := by
  rw [assembleProgram_eq, textLines, assembleLines_linesAfter 1 [] _ List.not_mem_nil,
    List.nil_append]

/-! ### Programs put together -/

/-- Programs are put together at newlines. The first source comes first, with its words or its
error, and the errors of the other source are counted on from the lines before it. A source
without a newline has the word or the error of its code, which ends at the first `#`, and no
word if there is only white space. A comma is no white space, so a line of commas is refused.
How the text ends its lines makes no difference. -/
theorem assembleProgram_composed (source other : String) :
    assembleProgram (source ++ "\n" ++ other)
        = (match assembleProgram source, assembleProgram other with
          | .error error, _ => .error error
          | .ok _, .error error =>
            .error ⟨1 + source.toList.count '\n' + error.line, error.error⟩
          | .ok words, .ok rest => .ok (words ++ rest))
      ∧ ('\n' ∉ source.toList →
          let code := withoutComment source.toList
          assembleProgram source =
              (if code.all isWhiteSpace then .ok []
              else match encode (String.ofList code) with
                | .ok word => .ok [word]
                | .error error => .error ⟨1, error⟩)
            ∧ ((∀ c ∈ code, c = ',' ∨ isWhiteSpace c) → ',' ∈ code →
              assembleProgram source = .error ⟨1, .unknownMnemonic ""⟩))
      ∧ assembleProgram source = assembleLines 1 (textLines source.toList) := by
  refine ⟨?_, ?_, assembleProgram_eq_textLines source⟩
  · rw [assembleProgram_append]
    cases assembleProgram source with
    | error error => rfl
    | ok words => cases assembleProgram other <;> rfl
  · intro hline
    refine ⟨?_, ?_⟩
    · rw [assembleProgram_of_newline_notMem hline, encodeLine]
      cases encode (String.ofList (withoutComment source.toList)) <;> rfl
    · intro hcode hcomma
      refine assembleProgram_of_forall_isSeparator hline ?_ hcomma
      intro c hc
      simpa [isSeparator] using hcode c hc

/-- A line of commas before a comment, a line without a comment, and the first behind two lines
of which one ends with a carriage return. -/
theorem assembleProgram_composed_commas :
    '\n' ∉ " ,\t, # none".toList
      ∧ assembleProgram " ,\t, # none" = .error ⟨1, .unknownMnemonic ""⟩
      ∧ '\n' ∉ "ADD $t0,$t1,$q1".toList
      ∧ assembleProgram "ADD $t0,$t1,$q1" = .error ⟨1, .unknownRegister "$q1"⟩
      ∧ assembleProgram ("ori $v0, $zero, 10\r\nsyscall" ++ "\n" ++ " ,\t, # none")
        = .error ⟨3, .unknownMnemonic ""⟩ := by
  have hnone : '\n' ∉ " ,\t, # none".toList := by decide
  have hcode : withoutComment " ,\t, # none".toList = " ,\t, ".toList := by decide
  have hline : '\n' ∉ "ADD $t0,$t1,$q1".toList := by decide
  have hadd : withoutComment "ADD $t0,$t1,$q1".toList = "ADD $t0,$t1,$q1".toList := by decide
  have hencode : encode "ADD $t0,$t1,$q1" = .error (.unknownRegister "$q1") := by decide +kernel
  have hwords : assembleProgram "ori $v0, $zero, 10\r\nsyscall" = .ok [0x3402000A, 0x0000000C] := by
    decide +kernel
  obtain ⟨-, hcommas, -⟩ := assembleProgram_composed " ,\t, # none" ""
  obtain ⟨-, hregister, -⟩ := assembleProgram_composed "ADD $t0,$t1,$q1" ""
  obtain ⟨hboth, -, -⟩ := assembleProgram_composed "ori $v0, $zero, 10\r\nsyscall" " ,\t, # none"
  -- The second source is a line without tokens that is not blank, because of its commas.
  have hrefused : assembleProgram " ,\t, # none" = .error ⟨1, .unknownMnemonic ""⟩ := by
    have hseparators : " ,\t, ".toList.all isSeparator := by decide
    refine (hcommas hnone).2 ?_ ?_
    · intro c hc
      rw [hcode] at hc
      simpa [isSeparator] using List.all_eq_true.mp hseparators c hc
    · rw [hcode]
      decide
  refine ⟨hnone, hrefused, hline, ?_, ?_⟩
  · have hword := (hregister hline).1
    rw [hadd, String.ofList_toList, hencode] at hword
    exact hword
  · rw [hboth, hwords, hrefused]
    rfl

end MiniMips
