import MiniMips.Proofs.Machine.Alignment
import MiniMips.Proofs.Memory.Load
import MiniMips.Proofs.Memory.View

/-!
# `MiniMips.Proofs.Range`: the words of a range, viewed and listed

A range of memory is given by its first and its last address, both included, wherever they
lie: they need not be aligned, the range can lead through several segments and the gaps between
them, and it can end with the address space. Its words are counted from the first address on,
every four bytes one,

    (memory.view first last).Yields found ↔ found = memory.rangeItems first last

and the listing keeps those of them that can be read. From an aligned address on these are the
mapped ones. The theorems:

* `items_view`: the items of a view, counted.
* `toNat_wordAddress_of_lt`: none of their addresses wraps.
* `map_item_filterMap_row?`: the rows of items are those that can be read.
* `Memory.exists_read_word_iff`: the aligned words that can be read are the mapped ones.
* `view_range`: the range in view and in the listing.
-/

set_option autoImplicit false

namespace MiniMips

/-! ### The words of a range -/

/-- How many words a range holds, with both of its ends. -/
def rangeLength (first last : Word) : Nat :=
  if last < first then 0 else (last.toNat - first.toNat) / 4 + 1

/-- The words of a range with their addresses. -/
def Memory.rangeItems (memory : Memory) (first last : Word) : List ViewItem :=
  (List.range (rangeLength first last)).map fun i =>
    ⟨wordAddress first i, memory.read (wordAddress first i) .word⟩

/-- The number of words between two addresses is the length of the view between them. -/
theorem rangeLength_eq (memory : Memory) (first last : Word) :
    (memory.view first last).length = rangeLength first last := by
  show (last.toNat + 4 - first.toNat) / 4 = _
  unfold rangeLength
  split
  · rename_i hlt
    have hlt : last.toNat < first.toNat := hlt
    omega
  · rename_i hle
    have hle : ¬last.toNat < first.toNat := hle
    omega

/-- The items of a view are the words of its range. -/
theorem items_view (memory : Memory) (first last : Word) :
    (memory.view first last).items = memory.rangeItems first last := by
  rw [View.items, rangeLength_eq]
  exact List.map_congr_left fun i _ => memory.item_view first last i

/-- The words of a range lie one behind the other, and the last of them does not lie behind the
end. So their addresses do not wrap, not even at the end of the address space. -/
theorem toNat_wordAddress_of_lt {first last : Word} {i : Nat} (h : i < rangeLength first last) :
    (wordAddress first i).toNat = first.toNat + 4 * i ∧ first.toNat + 4 * i ≤ last.toNat := by
  have hlast := last.isLt
  unfold rangeLength at h
  split at h
  · exact absurd h (Nat.not_lt_zero i)
  · rename_i hle
    have hle : ¬last.toNat < first.toNat := hle
    have hend : first.toNat + 4 * i ≤ last.toNat := by omega
    exact ⟨toNat_wordAddress (by omega), hend⟩

/-- Every fourth address of a range is that of one of its words. -/
theorem exists_wordAddress_iff {first last address : Word} :
    (∃ i < rangeLength first last, wordAddress first i = address)
      ↔ first ≤ address ∧ address ≤ last ∧ (address.toNat - first.toNat) % 4 = 0 := by
  constructor
  · rintro ⟨i, hi, rfl⟩
    obtain ⟨hnumber, hend⟩ := toNat_wordAddress_of_lt hi
    refine ⟨?_, ?_, by omega⟩
    · show first.toNat ≤ (wordAddress first i).toNat
      omega
    · show (wordAddress first i).toNat ≤ last.toNat
      omega
  -- The index is the distance in words.
  · rintro ⟨hfirst, hlast, hmod⟩
    have hfirst : first.toNat ≤ address.toNat := hfirst
    have hlast : address.toNat ≤ last.toNat := hlast
    have hi : (address.toNat - first.toNat) / 4 < rangeLength first last := by
      unfold rangeLength
      rw [if_neg (show ¬last < first from fun h => by
        have h : last.toNat < first.toNat := h
        omega)]
      omega
    refine ⟨_, hi, BitVec.eq_of_toNat_eq ?_⟩
    rw [(toNat_wordAddress_of_lt hi).1]
    omega

/-! ### The words that can be read -/

/-- An aligned word lies in a segment as soon as its first byte does. -/
theorem mappedAccess_word_iff {address : Word} (h : IsAligned address) :
    MappedAccess address .word ↔ Mapped address.toNat := by
  constructor
  · intro hmapped
    exact hmapped 0 (by decide)
  · intro hmapped i hi
    have hi : i < 4 := hi
    unfold IsAligned at h
    unfold Mapped at hmapped ⊢
    omega

/-- The aligned words that can be read are the mapped ones. -/
theorem Memory.exists_read_word_iff {memory : Memory} {address : Word} (h : IsAligned address) :
    (∃ word, memory.read address .word = .ok word) ↔ Mapped address.toNat :=
  Memory.exists_read_iff.trans (mappedAccess_word_iff h)

/-! ### The rows of a listing -/

/-- The item that a row of a listing shows. -/
def ListingRow.item (row : ListingRow) : ViewItem :=
  ⟨row.address, .ok row.word⟩

/-- The rows of items show those that can be read. -/
theorem map_item_filterMap_row? (items : List ViewItem) :
    (items.filterMap ViewItem.row?).map ListingRow.item
      = items.filter (·.content.isOk) := by
  induction items with
  | nil => rfl
  | cons item items ih =>
    obtain ⟨address, content⟩ := item
    cases content with
    | error fault => exact ih
    | ok word => exact congrArg _ ih

/-- And each has the text of its word. -/
theorem text_of_row?_eq_some {item : ViewItem} {row : ListingRow} (h : item.row? = some row) :
    row.text = disassemble row.word := by
  obtain ⟨address, content⟩ := item
  cases content with
  | error fault => cases h
  | ok word =>
    cases h
    rfl

/-- The addresses of the words of a range that can be read, by their numbers. -/
theorem mem_map_address_filter_isOk {memory : Memory} {first last address : Word} :
    address ∈ ((memory.rangeItems first last).filter (·.content.isOk)).map ViewItem.address
      ↔ (∃ i < rangeLength first last, wordAddress first i = address)
        ∧ ∃ word, memory.read address .word = .ok word := by
  have hreads : (memory.read address .word).isOk
      ↔ ∃ word, memory.read address .word = .ok word := by
    cases memory.read address .word <;> simp [Except.isOk, Except.toBool]
  simp only [Memory.rangeItems, List.mem_map, List.mem_filter, List.mem_range, ← hreads]
  constructor
  · rintro ⟨_, ⟨⟨i, hi, rfl⟩, hok⟩, rfl⟩
    exact ⟨⟨i, hi, rfl⟩, hok⟩
  · rintro ⟨⟨i, hi, rfl⟩, hok⟩
    exact ⟨_, ⟨⟨i, hi, rfl⟩, hok⟩, rfl⟩

/-- From an aligned address on, they are the aligned addresses of the range that are mapped. -/
theorem mem_map_address_filter_iff {memory : Memory} {first last address : Word}
    (h : IsAligned first) :
    address ∈ ((memory.rangeItems first last).filter (·.content.isOk)).map ViewItem.address
      ↔ first ≤ address ∧ address ≤ last ∧ IsAligned address ∧ Mapped address.toNat := by
  -- From an aligned start, a whole number of words away means aligned, and an aligned word is
  -- readable as soon as its first byte is mapped.
  have haligned : first ≤ address →
      ((address.toNat - first.toNat) % 4 = 0 ↔ IsAligned address) := by
    intro hfirst
    have hfirst : first.toNat ≤ address.toNat := hfirst
    unfold IsAligned at h ⊢
    omega
  rw [mem_map_address_filter_isOk, exists_wordAddress_iff]
  constructor
  · rintro ⟨⟨hfirst, hlast, hmod⟩, hread⟩
    have haddress := (haligned hfirst).mp hmod
    exact ⟨hfirst, hlast, haddress, (Memory.exists_read_word_iff haddress).mp hread⟩
  · rintro ⟨hfirst, hlast, haddress, hmapped⟩
    exact ⟨⟨hfirst, hlast, (haligned hfirst).mpr haddress⟩,
      (Memory.exists_read_word_iff haddress).mpr hmapped⟩

/-- A view gives the words of its range one after the other and then ends, wherever the range
lies. None of their addresses wraps, is left out or comes twice. The listing has a row for each
of the words that can be read, in the same order. From an aligned address on these are the
mapped words of the range. -/
theorem view_range (memory : Memory) (first last : Word) :
    let items := memory.rangeItems first last
    let rows := (disassembleRange memory first last).toList
    (∀ found, (memory.view first last).Yields found ↔ found = items)
      ∧ items.length = (if last < first then 0 else (last.toNat - first.toNat) / 4 + 1)
      ∧ (∀ i < items.length, (wordAddress first i).toNat = first.toNat + 4 * i)
      ∧ rows.map ListingRow.item = items.filter (·.content.isOk)
      ∧ (∀ row ∈ rows, row.text = disassemble row.word)
      ∧ (IsAligned first → ∀ address, address ∈ rows.map ListingRow.address
        ↔ first ≤ address ∧ address ≤ last ∧ IsAligned address ∧ Mapped address.toNat) := by
  intro items rows
  have hlength : items.length = rangeLength first last := by
    simp [items, Memory.rangeItems]
  have hrows : rows = items.filterMap ViewItem.row? :=
    (toList_disassembleRange memory first last).trans (congrArg _ (items_view memory first last))
  have hitems : rows.map ListingRow.item = items.filter (·.content.isOk) := by
    rw [hrows, map_item_filterMap_row?]
  refine ⟨?_, hlength, ?_, hitems, ?_, ?_⟩
  · intro found
    rw [View.yields_iff, items_view]
  · intro i hi
    exact (toNat_wordAddress_of_lt (hlength ▸ hi)).1
  · intro row hrow
    rw [hrows] at hrow
    obtain ⟨item, -, hitem⟩ := List.mem_filterMap.mp hrow
    exact text_of_row?_eq_some hitem
  · intro haligned address
    -- The rows are the readable items, so their addresses are too.
    have haddresses : rows.map ListingRow.address
        = (rows.map ListingRow.item).map ViewItem.address := by
      rw [List.map_map]
      rfl
    rw [haddresses, hitems]
    exact mem_map_address_filter_iff haligned

/-- A listing from the end of the program segment to the start of the data segment has a row for
words of both and none for the gap between them. A view of the last bytes of the address space
ends there, two items on. -/
theorem view_range_gap :
    let addresses :=
      (disassembleRange Memory.zeros 0x004FFFF8 0x10000003).toList.map ListingRow.address
    0x004FFFFC ∈ addresses ∧ 0x00500000 ∉ addresses ∧ 0x10000000 ∈ addresses
      ∧ (Memory.zeros.view 0xFFFFFFF8 0xFFFFFFFF).Yields
        [⟨0xFFFFFFF8, .error (.unmappedAddress 0xFFFFFFF8)⟩,
          ⟨0xFFFFFFFC, .error (.unmappedAddress 0xFFFFFFFC)⟩] := by
  intro addresses
  obtain ⟨-, -, -, -, -, hlisted⟩ := view_range Memory.zeros 0x004FFFF8 0x10000003
  have hlisted := hlisted (by decide)
  obtain ⟨hyields, -⟩ := view_range Memory.zeros 0xFFFFFFF8 0xFFFFFFFF
  exact ⟨(hlisted _).mpr (by decide), mt (hlisted _).mp (by decide), (hlisted _).mpr (by decide),
    (hyields _).mpr rfl⟩

end MiniMips
