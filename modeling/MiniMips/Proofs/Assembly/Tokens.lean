import MiniMips.Assembly.Encode
import MiniMips.Proofs.Text.Lowercase

/-!
# `MiniMips.Proofs.Assembly.Tokens`: the tokens of a line

Normalizing a line and cutting it at its spaces is a detour: the tokens are the longest
parts of the line without separators, each lowered on its own. The theorems:

* `pieces_normalize`: the pieces of a normalized line are its tokens.
* `encode_eq_of_tokens`, `encode_congr`: so the word of a line depends on its tokens alone.
* `tokens_intercalate`: texts with spaces between them are the tokens of the line, up to
  capital letters.
* `tokens_intercalate_of_isToken`: and they are its tokens as they stand when they hold
  no capital letters.
-/

set_option autoImplicit false

namespace MiniMips

open Text

/-- The tokens of a line: its longest parts without separators, each in lowercase. -/
def tokens (line : String) : List String :=
  (pieces isSeparator line.toList).map fun piece => String.ofList (lowercase piece)

/-- A space separates tokens. -/
theorem isSeparator_space : isSeparator ' ' := by
  decide

/-- Cutting a normalized line at its spaces gives the tokens of the line. -/
theorem pieces_normalize (line : String) :
    (pieces (· == ' ') (normalize line).toList).map String.ofList = tokens line := by
  rw [normalize, String.toList_ofList, pieces_lowercase_joinSpaced, List.map_map]
  · rfl
  · intro piece hpiece
    obtain ⟨hne, hsep⟩ := mem_pieces hpiece
    refine ⟨hne, fun hspace => ?_⟩
    have hnot := hsep ' ' hspace
    rw [isSeparator_space] at hnot
    cases hnot

/-- A line with tokens is encoded as the statement that they make. -/
theorem encode_eq_of_tokens {line mnemonic : String} {operands : List String}
    (h : tokens line = mnemonic :: operands) :
    encode line = Statement.encode ⟨mnemonic, operands⟩ := by
  have hstatement : Statement.ofNormalized? (normalize line) = some ⟨mnemonic, operands⟩ := by
    unfold Statement.ofNormalized?
    rw [pieces_normalize, h]
  rw [encode, hstatement]

/-- A line without tokens is refused. -/
theorem encode_eq_of_tokens_eq_nil {line : String} (h : tokens line = []) :
    encode line = .error (.unknownMnemonic "") := by
  have hstatement : Statement.ofNormalized? (normalize line) = none := by
    unfold Statement.ofNormalized?
    rw [pieces_normalize, h]
  rw [encode, hstatement]

/-- Lines with the same tokens are encoded alike. -/
theorem encode_congr {line other : String} (h : tokens line = tokens other) :
    encode line = encode other := by
  cases htokens : tokens other with
  | nil => rw [encode_eq_of_tokens_eq_nil (h.trans htokens), encode_eq_of_tokens_eq_nil htokens]
  | cons mnemonic operands =>
    rw [encode_eq_of_tokens (h.trans htokens), encode_eq_of_tokens htokens]

/-- A line of separators has no tokens. -/
theorem tokens_of_forall_isSeparator {cs : List Char} (h : ∀ c ∈ cs, isSeparator c) :
    tokens (String.ofList cs) = [] := by
  rw [tokens, String.toList_ofList, pieces_of_forall h]
  rfl

/-- A separator at the end of a line is in no token. -/
theorem tokens_append_singleton {c : Char} (h : isSeparator c) (cs : List Char) :
    tokens (String.ofList (cs ++ [c])) = tokens (String.ofList cs) := by
  rw [tokens, tokens, String.toList_ofList, String.toList_ofList, pieces_append_singleton h]

/-! ### Lines made of texts -/

/-- A nonempty text without separators and without the mark of a comment, so a token up to
capital letters. -/
def IsWord (text : String) : Prop :=
  text ≠ "" ∧ text.toList.all fun c => !isSeparator c && c != '#'

instance (text : String) : Decidable (IsWord text) :=
  inferInstanceAs (Decidable (_ ∧ _))

/-- A word of ASCII characters without capital letters, so a token as it stands. -/
def IsToken (text : String) : Prop :=
  text ≠ "" ∧ text.toList.all fun c => (!isSeparator c && c != '#') && isLowerAscii c

instance (text : String) : Decidable (IsToken text) :=
  inferInstanceAs (Decidable (_ ∧ _))

/-- No character of a word separates. -/
theorem IsWord.isSeparator {text : String} (h : IsWord text) :
    ∀ c ∈ text.toList, isSeparator c = false := by
  intro c hc
  have hchar := List.all_eq_true.mp h.2 c hc
  rw [Bool.and_eq_true, Bool.not_eq_true'] at hchar
  exact hchar.1

/-- No character of a word starts a comment. -/
theorem IsWord.ne_comment {text : String} (h : IsWord text) : ∀ c ∈ text.toList, c ≠ '#' := by
  intro c hc
  have hchar := List.all_eq_true.mp h.2 c hc
  rw [Bool.and_eq_true, bne_iff_ne] at hchar
  exact hchar.2

/-- A token is a word. -/
theorem IsToken.isWord {text : String} (h : IsToken text) : IsWord text := by
  refine ⟨h.1, List.all_eq_true.mpr fun c hc => ?_⟩
  have hchar := List.all_eq_true.mp h.2 c hc
  rw [Bool.and_eq_true] at hchar
  exact hchar.1

/-- A token has no character to lower. -/
theorem IsToken.isLowerAscii {text : String} (h : IsToken text) :
    ∀ c ∈ text.toList, isLowerAscii c := by
  intro c hc
  have hchar := List.all_eq_true.mp h.2 c hc
  rw [Bool.and_eq_true] at hchar
  exact hchar.2

/-- The characters of a line of texts. -/
theorem toList_intercalate_space (texts : List String) :
    (" ".intercalate texts).toList = joinSpaced (texts.map String.toList) :=
  String.toList_intercalate

/-- Words with spaces between them are the tokens of the line in lowercase. -/
theorem tokens_intercalate {texts : List String} (h : ∀ text ∈ texts, IsWord text) :
    tokens (" ".intercalate texts) =
      texts.map fun text => String.ofList (lowercase text.toList) := by
  have hpieces : pieces isSeparator (" ".intercalate texts).toList
      = texts.map String.toList := by
    rw [toList_intercalate_space]
    refine pieces_joinSpaced isSeparator_space fun piece hpiece => ?_
    obtain ⟨text, htext, rfl⟩ := List.mem_map.mp hpiece
    have hword := h text htext
    exact ⟨by simpa using hword.1, hword.isSeparator⟩
  rw [tokens, hpieces, List.map_map]
  rfl

/-- Lowercase words with spaces between them are the tokens of the line. -/
theorem tokens_intercalate_of_isToken {texts : List String}
    (h : ∀ text ∈ texts, IsToken text) : tokens (" ".intercalate texts) = texts := by
  rw [tokens_intercalate fun text htext => (h text htext).isWord]
  calc texts.map (fun text => String.ofList (lowercase text.toList))
      = texts.map id := List.map_congr_left fun text htext => by
        rw [lowercase_of_isLowerAscii (h text htext).isLowerAscii, String.ofList_toList]
        rfl
    _ = texts := List.map_id texts

end MiniMips
