import Mathlib.Data.List.Forall2
import MiniMips.Proofs.Assembly.Tokens
import MiniMips.Proofs.Text.Lowered

/-!
# `MiniMips.Proofs.Assembly.Normalize`: what is left of a normalized line

Normalizing can be told in stages: commas become spaces, the line is cut at its white space,
the pieces are joined with single spaces, and the whole of it is lowered,

    normalize line
      = lowercase (joinSpaced (pieces isWhiteSpace (line with spaces for commas)))

and none of the stages disturbs another. The longest parts without separators come out of it
one by one, each as it is lowered on its own. The theorems:

* `normalize_eq_stages`: the stages.
* `toList_normalize`: the normalized line as its lowered pieces.
* `eq_space_of_mem_normalize`: it holds no separators but spaces.
* `normalize_normalize`: normalizing once is enough.
* `ofNormalized?_normalize_eq_none_iff`, `ofNormalized?_normalize_eq_some_iff`: the tokens of
  the normalized line.
* `encode_of_runs_sameLetters`: the word does not depend on the case of ASCII letters.
* `normalize_seesPieces`: all of it.
-/

set_option autoImplicit false

namespace MiniMips

open Text

/-! ### The stages -/

/-- A space for a comma. -/
def commaToSpace (c : Char) : Char :=
  if c = ',' then ' ' else c

/-- The separators are the white space of the line with spaces for commas. -/
theorem isWhiteSpace_commaToSpace (c : Char) :
    isWhiteSpace (commaToSpace c) = isSeparator c := by
  unfold commaToSpace isSeparator
  split
  · rename_i hcomma
    subst hcomma
    decide
  · rename_i hcomma
    rw [beq_eq_false_iff_ne.mpr hcomma, Bool.false_or]

/-- Text without separators holds no commas. -/
theorem map_commaToSpace {w : List Char} (hw : ∀ c ∈ w, isSeparator c = false) :
    w.map commaToSpace = w := by
  have hsame : ∀ c ∈ w, commaToSpace c = id c := by
    intro c hc
    refine if_neg ?_
    rintro rfl
    cases hw ',' hc
  rw [List.map_congr_left hsame, List.map_id]

/-- The runs of a line are those between the white space of the line with spaces for commas. -/
theorem runs_commaToSpace {cs : List Char} {ws : List (List Char)} (h : Runs isSeparator cs ws) :
    Runs isWhiteSpace (cs.map commaToSpace) ws := by
  have hwhite : ∀ {w : List Char}, (∀ c ∈ w, isSeparator c = false) →
      ∀ c ∈ w, isWhiteSpace c = false :=
    fun hw c hc => (Bool.or_eq_false_iff.mp (hw c hc)).2
  induction h with
  | nil => exact .nil
  | separator hc _ ih => exact .separator ((isWhiteSpace_commaToSpace _).trans hc) ih
  | last hne hw =>
    rw [map_commaToSpace hw]
    exact .last hne (hwhite hw)
  | run hne hw hsep _ ih =>
    rw [List.map_append, List.map_cons, map_commaToSpace hw]
    exact .run hne (hwhite hw) ((isWhiteSpace_commaToSpace _).trans hsep) ih

/-- A line is normalized in stages: spaces for commas, the pieces between white space, single
spaces between these, and lowercase for the whole. -/
theorem normalize_eq_stages (line : String) :
    normalize line = String.ofList
      (lowercase (joinSpaced (pieces isWhiteSpace (line.toList.map commaToSpace)))) := by
  obtain ⟨ws, h⟩ := exists_runs isSeparator line.toList
  rw [normalize, h.pieces_eq, (runs_commaToSpace h).pieces_eq]

/-! ### Separators in the normalized line -/

/-- No lowercase form in the table is white space. -/
private theorem lowercaseRuns_whiteSpace : ∀ run ∈ lowercaseRuns, ∀ range ∈ whiteSpace,
    run.lastImage < range.first ∨ range.last < run.image := by
  decide +kernel

/-- Lowering brings in no separators. -/
theorem notIntroduced_isSeparator : NotIntroduced isSeparator := by
  refine .of_table (by decide +kernel) (by decide) fun run hrun d hd hlast => ?_
  have hcomma : (d == ',') = false := by
    have himage := capital_lt_image hrun
    rw [beq_eq_false_iff_ne]
    rintro rfl
    have hle : run.image ≤ 0x2C := hd
    omega
  have hwhite : isWhiteSpace d = false := by
    refine CodeRange.within_eq_false fun range hrange => ?_
    have hapart := lowercaseRuns_whiteSpace run hrun range hrange
    omega
  rw [isSeparator, hcomma, hwhite]
  rfl

/-- The normalized line is made of the pieces of the line, each in lowercase. -/
theorem toList_normalize (line : String) :
    (normalize line).toList = joinSpaced ((pieces isSeparator line.toList).map lowercase) := by
  rw [normalize, String.toList_ofList, lowercase_joinSpaced]

/-- The pieces of a text are still words without separators after they are lowered, which is
what joining them again needs. -/
private theorem lowered_pieces (cs : List Char) :
    ∀ piece ∈ (pieces isSeparator cs).map lowercase,
      piece ≠ [] ∧ ∀ c ∈ piece, isSeparator c = false :=
  notIntroduced_isSeparator.lowercase_pieces fun _ => mem_pieces

/-- The separators of a normalized line are spaces. -/
theorem eq_space_of_mem_normalize {line : String} {c : Char} (h : c ∈ (normalize line).toList)
    (hsep : isSeparator c) : c = ' ' := by
  rw [toList_normalize] at h
  rcases mem_joinSpaced h with hspace | ⟨piece, hpiece, hc⟩
  · exact hspace
  · rw [(lowered_pieces _ piece hpiece).2 c hc] at hsep
    cases hsep

/-- The spaces of a normalized line are single and between words. -/
theorem betweenPieces_normalize (line : String) :
    BetweenPieces isSeparator (normalize line).toList := by
  rw [toList_normalize]
  exact betweenPieces_joinSpaced isSeparator_space (lowered_pieces _)

/-- The pieces of a normalized line are those of the line in lowercase. -/
theorem pieces_toList_normalize (line : String) :
    pieces isSeparator (normalize line).toList
      = (pieces isSeparator line.toList).map lowercase := by
  rw [toList_normalize]
  exact pieces_joinSpaced isSeparator_space (lowered_pieces _)

/-- Normalizing a line again changes nothing. -/
theorem normalize_normalize (line : String) : normalize (normalize line) = normalize line := by
  rw [← String.toList_inj, toList_normalize, pieces_toList_normalize, List.map_map,
    toList_normalize]
  congr 1
  exact List.map_congr_left fun piece _ => lowercase_lowercase piece

/-! ### The tokens of the normalized line -/

/-- The tokens of a line are its runs, each lowered on its own. -/
theorem tokens_eq_map_of_runs {line : String} {runs : List (List Char)}
    (h : Runs isSeparator line.toList runs) :
    tokens line = runs.map fun run => String.ofList (lowercase run) := by
  rw [tokens, h.pieces_eq]

/-- A normalized line has no statement exactly if the line has nothing but separators. -/
theorem ofNormalized?_normalize_eq_none_iff {line : String} :
    Statement.ofNormalized? (normalize line) = none ↔ ∀ c ∈ line.toList, isSeparator c := by
  rw [← pieces_eq_nil_iff, Statement.ofNormalized?, pieces_normalize, tokens]
  cases pieces isSeparator line.toList <;> simp

/-- The tokens are the runs of the line, each in lowercase. -/
theorem ofNormalized?_normalize_eq_some_iff {line : String} {statement : Statement} :
    Statement.ofNormalized? (normalize line) = some statement ↔
      ∃ runs, Runs isSeparator line.toList runs ∧ statement.mnemonic :: statement.operands
        = runs.map fun run => String.ofList (lowercase run) := by
  obtain ⟨runs, hruns⟩ := exists_runs isSeparator line.toList
  have honly : (∃ others, Runs isSeparator line.toList others ∧
      statement.mnemonic :: statement.operands
        = others.map fun run => String.ofList (lowercase run))
      ↔ tokens line = statement.mnemonic :: statement.operands := by
    constructor
    · rintro ⟨others, hothers, htokens⟩
      rw [tokens_eq_map_of_runs hothers, htokens]
    · exact fun htokens => ⟨runs, hruns, htokens ▸ tokens_eq_map_of_runs hruns⟩
  rw [honly, Statement.ofNormalized?, pieces_normalize]
  cases tokens line with
  | nil => simp
  | cons mnemonic operands => cases statement; simp

/-! ### The case of ASCII letters -/

/-- Whether two texts are equal up to the case of their ASCII letters. -/
def SameLetters (text other : List Char) : Prop :=
  text.map Char.toLower = other.map Char.toLower

/-- Texts that differ in the case of ASCII letters are lowered to the same text. -/
theorem SameLetters.lowercase_eq {text other : List Char} (h : SameLetters text other) :
    lowercase text = lowercase other := by
  rw [← lowercase_map_toLower text, h, lowercase_map_toLower]

/-- Lines whose runs are equal up to the case of ASCII letters have the same word, or are
refused with the same error. -/
theorem encode_of_runs_sameLetters {line other : String} {runs others : List (List Char)}
    (hruns : Runs isSeparator line.toList runs) (hothers : Runs isSeparator other.toList others)
    (h : List.Forall₂ SameLetters runs others) : encode line = encode other := by
  apply encode_congr
  rw [tokens_eq_map_of_runs hruns, tokens_eq_map_of_runs hothers]
  clear hruns hothers
  induction h with
  | nil => rfl
  | cons hfirst _ ih => rw [List.map_cons, List.map_cons, hfirst.lowercase_eq, ih]

/-- A normalized line is encoded like the line. -/
theorem encode_normalize (line : String) : encode (normalize line) = encode line := by
  rw [encode, encode, normalize_normalize]

/-- What normalizing makes of a line, and what the tokens behind it are. -/
structure SeesPieces (line : String) : Prop where
  /-- Commas become spaces, white space cuts the line, single spaces join the pieces again, and
  all of it is lowered. -/
  stages : normalize line = String.ofList
    (lowercase (joinSpaced (pieces isWhiteSpace (line.toList.map commaToSpace))))
  /-- No comma is left. -/
  comma : ',' ∉ (normalize line).toList
  /-- The only white space is the space. -/
  whiteSpace : ∀ c ∈ (normalize line).toList, isWhiteSpace c → c = ' '
  /-- Each space is on its own between two pieces, none is at an end. -/
  space : BetweenPieces isSeparator (normalize line).toList
  /-- Only a line of commas and white space has no tokens. -/
  blank : Statement.ofNormalized? (normalize line) = none ↔
    ∀ c ∈ line.toList, c = ',' ∨ isWhiteSpace c
  /-- The tokens are the runs of the line in order, each lowered on its own. -/
  tokens : ∀ statement, Statement.ofNormalized? (normalize line) = some statement ↔
    ∃ runs, Runs isSeparator line.toList runs ∧ statement.mnemonic :: statement.operands
      = runs.map fun run => String.ofList (lowercase run)
  /-- Normalizing again changes nothing. -/
  again : normalize (normalize line) = normalize line
  /-- The word of the line, or its error, is that of the normalized line. -/
  encode : encode line = encode (normalize line)

/-- Normalizing and cutting see the runs between separators and nothing else of a line, and of
these nothing that depends on the case of ASCII letters. -/
theorem normalize_seesPieces (line : String) :
    SeesPieces line ∧ ∀ other runs others, Runs isSeparator line.toList runs →
      Runs isSeparator other.toList others → List.Forall₂ SameLetters runs others →
      encode line = encode other := by
  refine ⟨⟨normalize_eq_stages line, fun hmem => ?_, fun c hmem hwhite => ?_,
    betweenPieces_normalize line, ?_, fun _ => ofNormalized?_normalize_eq_some_iff,
    normalize_normalize line, (encode_normalize line).symm⟩,
    fun _ _ _ => encode_of_runs_sameLetters⟩
  · exact absurd (eq_space_of_mem_normalize hmem (by decide)) (by decide)
  · exact eq_space_of_mem_normalize hmem (by rw [isSeparator, hwhite, Bool.or_true])
  · rw [ofNormalized?_normalize_eq_none_iff]
    simp only [isSeparator, Bool.or_eq_true, beq_iff_eq]

/-- One instruction in two spellings. -/
theorem normalize_seesPieces_spellings : encode "JR $rA" = encode ",jr\t$Ra " :=
  (normalize_seesPieces "JR $rA").2 ",jr\t$Ra "
    [['J', 'R'], ['$', 'r', 'A']] [['j', 'r'], ['$', 'R', 'a']]
    (pieces_eq_iff.mp (by decide +kernel)) (pieces_eq_iff.mp (by decide +kernel))
    (.cons rfl (.cons rfl .nil))

end MiniMips
