import MiniMips.Listing

/-!
# `MiniMips.Proofs.Memory.View`: the items of a view by their numbers

A view is a cursor that moves on by four bytes with each item, up to a last address. The
items can be told without a cursor, each by its number, and a fold over the view is a fold
over their list:

    view.fold f limit init = (view.items.take limit).foldl f init

The theorems:

* `View.next?_cases`: the items of a view without and with a next one.
* `View.yields_iff`: the walk to the end gives these items and no others.
* `View.fold_eq`: the fold over a view.
* `Memory.item_view`: the items of a range of memory.
* `toList_disassembleRange`: the rows of a listing are those of the items of its range.
-/

set_option autoImplicit false

namespace MiniMips

namespace View

variable {view : View}

/-- The item with a number, from the cursor on. -/
def item (view : View) (i : Nat) : ViewItem :=
  let address := BitVec.ofNat 32 (view.cursor + 4 * i)
  ⟨address, view.memory.read address .word⟩

/-- All items in the order of their numbers. -/
def items (view : View) : List ViewItem :=
  (List.range view.length).map view.item

/-- The view behind its first item. -/
def rest (view : View) : View :=
  { view with cursor := view.cursor + 4 }

/-- A view whose cursor is behind its last address has no items. -/
theorem items_of_lt (h : view.last < view.cursor) : view.items = [] := by
  have hlength : view.length = 0 := by
    show (view.last + 4 - view.cursor) / 4 = 0
    omega
  rw [items, hlength]
  rfl

/-- Any other view has the item at its cursor, and then those of the rest. -/
theorem items_of_le (h : view.cursor ≤ view.last) :
    view.items = view.item 0 :: view.rest.items := by
  have hlength : view.length = view.rest.length + 1 := by
    show (view.last + 4 - view.cursor) / 4 = (view.last + 4 - (view.cursor + 4)) / 4 + 1
    omega
  have hitem : ∀ i, view.item (i + 1) = view.rest.item i := by
    intro i
    have haddress : view.cursor + 4 * (i + 1) = view.rest.cursor + 4 * i := by
      show _ = view.cursor + 4 + 4 * i
      omega
    rw [item, haddress]
    rfl
  rw [items, hlength, List.range_succ_eq_map, List.map_cons, List.map_map]
  exact congrArg _ (List.map_congr_left fun i _ => hitem i)

/-- A view is at its end and has no items, or the first of its items comes next and the others
are those of the rest. -/
theorem next?_cases (view : View) :
    view.next? = none ∧ view.items = []
      ∨ view.next? = some (view.item 0, view.rest)
        ∧ view.items = view.item 0 :: view.rest.items := by
  by_cases h : view.cursor ≤ view.last
  · exact .inr ⟨if_pos h, items_of_le h⟩
  · exact .inl ⟨if_neg h, items_of_lt (Nat.lt_of_not_le h)⟩

/-- What a walk gives, item after item, until there is no next one. -/
inductive Yields : View → List ViewItem → Prop where
  | done {view : View} (h : view.next? = none) : Yields view []
  | item {view rest : View} {item : ViewItem} {items : List ViewItem}
      (h : view.next? = some (item, rest)) (hrest : Yields rest items) :
      Yields view (item :: items)

/-- Every walk comes to its end, and gives the items on its way. -/
theorem yields_items (view : View) : view.Yields view.items := by
  induction hlength : view.items.length generalizing view with
  | zero =>
    rcases view.next?_cases with ⟨hnext, hitems⟩ | ⟨-, hitems⟩
    · rw [hitems]
      exact .done hnext
    · rw [hitems] at hlength
      cases hlength
  | succ length ih =>
    rcases view.next?_cases with ⟨-, hitems⟩ | ⟨hnext, hitems⟩
    · rw [hitems] at hlength
      cases hlength
    · rw [hitems] at hlength ⊢
      exact .item hnext (ih view.rest (Nat.succ.inj hlength))

/-- The walk to the end gives the items and nothing else. -/
theorem yields_iff {found : List ViewItem} : view.Yields found ↔ found = view.items := by
  constructor
  · intro h
    -- Induction on the items yielded: the view has one next item or none, and its list begins
    -- with it.
    induction h with
    | @done view hend =>
      rcases view.next?_cases with ⟨-, hitems⟩ | ⟨hnext, -⟩
      · exact hitems.symm
      · rw [hend] at hnext
        cases hnext
    | @item view rest item items hfirst _ ih =>
      rcases view.next?_cases with ⟨hnext, -⟩ | ⟨hnext, hitems⟩
      · rw [hfirst] at hnext
        cases hnext
      · rw [hfirst] at hnext
        cases hnext
        rw [ih, hitems]
  · rintro rfl
    exact view.yields_items

/-- The fold over a view goes over its items. -/
theorem fold_eq {β : Type} (f : β → ViewItem → β) (limit : Nat) (init : β) (view : View) :
    view.fold f limit init = (view.items.take limit).foldl f init := by
  -- An item in range is combined, and the rest of the view has one item less.
  induction limit generalizing init view with
  | zero => rfl
  | succ limit ih =>
    rcases view.next?_cases with ⟨hnext, hitems⟩ | ⟨hnext, hitems⟩
    · rw [fold, hnext, hitems]
      rfl
    · rw [fold, hnext, hitems]
      exact ih _ _

/-- A view has as many items as its length says. -/
theorem length_items (view : View) : view.items.length = view.length := by
  rw [items, List.length_map, List.length_range]

/-- Each item is at its own distance from the cursor. -/
theorem getElem_items (view : View) {i : Nat} (h : i < view.items.length) :
    view.items[i] = view.item i := by
  simp [items]

end View

/-- The items of a range are the words at its addresses. -/
theorem Memory.item_view (memory : Memory) (first last : Word) (i : Nat) :
    (memory.view first last).item i
      = ⟨first + BitVec.ofNat 32 (4 * i),
        memory.read (first + BitVec.ofNat 32 (4 * i)) .word⟩ := by
  have haddress : BitVec.ofNat 32 (first.toNat + 4 * i) = first + BitVec.ofNat 32 (4 * i) := by
    rw [BitVec.ofNat_add, BitVec.ofNat_toNat, BitVec.setWidth_eq]
  rw [← haddress]
  rfl

/-- The rows that are added for some items. -/
theorem toList_foldl_push_rows (items : List ViewItem) (rows : Array ListingRow) :
    (items.foldl (fun rows item => item.row?.elim rows rows.push) rows).toList
      = rows.toList ++ items.filterMap ViewItem.row? := by
  induction items generalizing rows with
  | nil => exact (List.append_nil _).symm
  | cons item items ih =>
    rw [List.foldl_cons, ih, List.filterMap_cons]
    cases item.row? with
    | none => rfl
    | some row =>
      show (rows.push row).toList ++ _ = _
      rw [Array.toList_push, List.append_assoc]
      rfl

/-- A listing has one row for each item of its range that can be read. -/
theorem toList_disassembleRange (memory : Memory) (first last : Word) :
    (disassembleRange memory first last).toList
      = (memory.view first last).items.filterMap ViewItem.row? := by
  rw [disassembleRange, View.fold_eq, List.take_of_length_le (Nat.le_of_eq (View.length_items _)),
    toList_foldl_push_rows]
  rfl

end MiniMips
