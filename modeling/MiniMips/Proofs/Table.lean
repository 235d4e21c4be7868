/-!
# `MiniMips.Proofs.Table`: finding the entry of a key

The names and codes of the instruction set are kept in lists of their owners and looked up
by the first match. Where no two entries share a key, the first match is the only one.
-/

set_option autoImplicit false

namespace MiniMips

variable {α κ : Type} [BEq κ] [LawfulBEq κ] {key : α → κ} {table : List α}

/-- A lookup finds the one entry with the key. -/
theorem find?_key_eq_some_iff
    (hkey : ∀ a ∈ table, ∀ b ∈ table, key a = key b → a = b) {a : α} (ha : a ∈ table) {k : κ} :
    table.find? (key · == k) = some a ↔ key a = k := by
  constructor
  · intro h
    exact eq_of_beq (List.find?_some (p := (key · == k)) h)
  · rintro rfl
    cases h : table.find? (key · == key a) with
    | none => exact absurd (beq_self_eq_true _) (List.find?_eq_none.mp h a ha)
    | some b =>
      have hb : key b = key a := eq_of_beq (List.find?_some (p := (key · == key a)) h)
      rw [hkey b (List.mem_of_find?_eq_some h) a ha hb]

end MiniMips
