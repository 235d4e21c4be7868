import MiniMips.Text.CaseTable

/-!
# `MiniMips.Text.Lowercase`: lowercase text

Full Unicode lowercasing. Each character is replaced by its lowercase form on its own,
with two exceptions: U+0130 becomes `i` and a combining dot, and a capital sigma at the
end of a word becomes a final sigma.

- `lowerChar`: the form of one character out of context.
- `isFinalSigma`: the end of a word, as the letters around a sigma show it.
- `lowercase`: the form of a whole text.
-/

set_option autoImplicit false

namespace MiniMips.Text

/-- The lowercase form of a character. -/
def lowerChar (c : Char) : List Char :=
  if c.toNat < 0x80 then
    [c.toLower]
  else if c = '\u0130' then
    ['i', '\u0307']
  else
    match lowercaseRuns.findSome? (·.lower? c.toNat) with
    | some code => [Char.ofNat code]
    | none => [c]

/-- Whether the first character that is not ignored is a cased one. -/
def startsCased (cs : List Char) : Bool :=
  match cs.dropWhile (CodeRange.within caseIgnorable) with
  | [] => false
  | c :: _ => CodeRange.within cased c

/-- Whether a sigma ends a word: a cased letter stands before it and none after it, where
characters that do not matter for case are passed over. `before` is read backwards. -/
def isFinalSigma (before after : List Char) : Bool :=
  startsCased before && !startsCased after

/-- The lowercase form of `c` between the characters `before`, which are read backwards,
and `after`. -/
def lowerBetween (before : List Char) (c : Char) (after : List Char) : List Char :=
  if c = 'Σ' then
    [if isFinalSigma before after then 'ς' else 'σ']
  else
    lowerChar c

/-- The lowercase form of the characters that follow `before`, which is read backwards. -/
def lowerAfter (before : List Char) : List Char → List Char
  | [] => []
  | c :: after => lowerBetween before c after ++ lowerAfter (c :: before) after

/-- The lowercase form of a text. -/
def lowercase (cs : List Char) : List Char :=
  lowerAfter [] cs

end MiniMips.Text
