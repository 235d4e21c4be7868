import MiniMips.Proofs.Memory.Load

/-!
# `MiniMips.Proofs.Memory.Prefix`: the longest prefix that fits a segment

`Memory.loadWords` does not look at the length of its list before it writes. It writes word
after word, and the first that is refused ends it. Behind each segment lies a gap, so the
loading never comes to the next segment, and the words that are written are those that fit the
segment of the first one. A list is split there: its first part is loaded, and the word behind
it is refused,

    memory.loadWords address (first ++ word :: second) = (loaded, .error fault)

The fault tells how the segment was left. Words that end with the segment are followed by an
address that is not mapped. Otherwise the refused word lies across the end of the segment. The
theorems:

* `Memory.loadWords_append`: a list can be loaded in two parts.
* `Memory.Loaded.loadedAt`: what is loaded at a place is loaded at its address.
* `refusedWith_wordAddress_fitting`: the fault of the first word that does not fit.
* `Memory.loadWords_of_unmapped`, `Memory.exists_loadWords_of_fits` and
  `Memory.exists_loadWords_of_cut`: the three ways in which a loading goes.
* `loadWords_longest_prefix`: all of it for a machine.
-/

set_option autoImplicit false

namespace MiniMips

/-! ### Words that fit -/

/-- How many words fit between a place and the end of its segment. -/
def Place.fitting (place : Place) : Nat :=
  (Segment.size - place.offset) / 4

/-- Whether some words from an address on end in the segment in which they start. -/
def HasRoom (address : Word) (count : Nat) : Prop :=
  ∃ place, Place.ofAddress address = .ok place ∧ place.offset + 4 * count ≤ Segment.size

/-- Words have room exactly if they end in the segment in which they start. -/
theorem hasRoom_iff {address : Word} {place : Place} (hplace : Place.ofAddress address = .ok place)
    {count : Nat} : HasRoom address count ↔ place.offset + 4 * count ≤ Segment.size := by
  simp [HasRoom, hplace]

/-- There is no room at an address that is not mapped, not even for no words. -/
theorem not_hasRoom_of_unmapped {address : Word} (h : ¬Mapped address.toNat) (count : Nat) :
    ¬HasRoom address count := by
  rintro ⟨place, hplace, -⟩
  exact h (Place.exists_ofAddress_iff.mp ⟨place, hplace⟩)

namespace Memory

/-- Whether a memory holds words from an address on, and is another one at all other
addresses. -/
structure LoadedAt (memory : Memory) (address : Word) (words : List Word) (loaded : Memory) :
    Prop where
  read_word : ∀ i (hi : i < words.length),
    loaded.read (wordAddress address i) .word = .ok words[i]
  read_byte : ∀ a : Word, a.toNat < address.toNat ∨ address.toNat + 4 * words.length ≤ a.toNat →
    loaded.read a .byte = memory.read a .byte

/-- How the loading of words ends, and what it leaves. -/
structure LoadsPrefix (memory : Memory) (address : Word) (words : List Word) (loaded : Memory)
    (result : Except Fault Unit) : Prop where
  ok_iff : result = .ok () ↔ words = [] ∨ HasRoom address words.length
  loadedAt : result = .ok () → memory.LoadedAt address words loaded
  unmapped : words ≠ [] → ¬Mapped address.toNat →
    result = .error (.unmappedAddress address) ∧ loaded = memory
  /-- The words that fit are written, and the word behind them is refused. -/
  cut : ∀ place, Place.ofAddress address = .ok place →
    Segment.size < place.offset + 4 * words.length →
      place.fitting < words.length
        ∧ memory.LoadedAt address (words.take place.fitting) loaded
        ∧ result = .error (if place.offset % 4 = 0
            then .unmappedAddress (wordAddress address place.fitting)
            else .segmentOverrun (wordAddress address place.fitting) 4)

variable {memory loaded : Memory} {address : Word} {words : List Word} {place : Place}

/-! ### A list in two parts -/

/-- A list can be loaded in two parts, if the first part is loaded. -/
theorem loadWords_append {first : List Word} (second : List Word)
    (h : memory.loadWords address first = (loaded, .ok ())) :
    memory.loadWords address (first ++ second)
      = loaded.loadWords (wordAddress address first.length) second := by
  -- Each word of the first part moves the address by four.
  induction first generalizing memory address with
  | nil =>
    cases h
    rw [List.length_nil, wordAddress_zero]
    rfl
  | cons word first ih =>
    rw [List.cons_append, List.length_cons, loadWords, wordAddress_succ']
    rw [loadWords] at h
    cases hwrite : memory.write address .word word with
    | error fault =>
      rw [hwrite] at h
      cases h
    | ok written =>
      rw [hwrite] at h
      exact ih h

/-- A word that is refused ends the loading. -/
theorem loadWords_of_refused (memory : Memory) {fault : Fault} (word : Word) (words : List Word)
    (h : RefusedWith address .word fault) :
    memory.loadWords address (word :: words) = (memory, .error fault) := by
  rw [loadWords, write_eq_error_iff.mpr h]

/-! ### From places to addresses -/

/-- What is loaded at a place is loaded at its address. -/
theorem Loaded.loadedAt (h : memory.Loaded place words loaded)
    (haddress : address.toNat = place.segment.base.toNat + place.offset)
    (hfits : place.offset + 4 * words.length ≤ Segment.size) :
    memory.LoadedAt address words loaded where
  read_word i hi := by
    -- No segment ends behind the last address, so the address of no written word wraps.
    have hbase := place.segment.toNat_base_add_size_le
    have hword : (wordAddress address i).toNat
        = (place.add (4 * i)).segment.base.toNat + (place.add (4 * i)).offset := by
      show _ = place.segment.base.toNat + (place.offset + 4 * i)
      rw [toNat_wordAddress (by omega), haddress, Nat.add_assoc]
    have hend : (place.add (4 * i)).offset + AccessSize.word.bytes ≤ Segment.size := by
      show place.offset + 4 * i + 4 ≤ Segment.size
      omega
    exact read_eq_ok_iff.mpr ⟨_, Place.ofAccess_of_fits hword hend, h.get_word i hi⟩
  read_byte a houtside := by
    unfold Memory.read
    cases hfound : Place.ofAccess a .byte with
    | error fault => rfl
    | ok found =>
      obtain ⟨ha, -⟩ := Place.ofAddress_eq_ok_iff.mp (Place.ofAccess_eq_ok_iff.mp hfound).1
      rw [← Segment.toNat_base] at ha
      have hplace : place.Outside (4 * words.length) found .byte := by
        by_cases hsegment : place.segment = found.segment
        · -- Addresses in one segment are as far apart as their offsets.
          rw [ha, haddress, hsegment] at houtside
          refine .inr ?_
          show found.offset + 1 ≤ place.offset ∨ place.offset + 4 * words.length ≤ found.offset
          omega
        · exact .inl hsegment
      exact congrArg Except.ok (h.get_outside found .byte hplace)

/-! ### The three ways of a loading -/

/-- Words at an address that is not mapped are refused at the first of them. -/
theorem loadWords_of_unmapped (memory : Memory) (hne : words ≠ [])
    (hunmapped : ¬Mapped address.toNat) :
    memory.loadWords address words = (memory, .error (.unmappedAddress address)) := by
  obtain ⟨word, rest, rfl⟩ := List.exists_cons_of_ne_nil hne
  exact loadWords_of_refused memory word rest (.inl ⟨hunmapped, rfl⟩)

/-- Words that fit are all written. -/
theorem exists_loadWords_of_fits (memory : Memory)
    (hplace : Place.ofAddress address = .ok place)
    (hfits : place.offset + 4 * words.length ≤ Segment.size) :
    ∃ loaded, memory.loadWords address words = (loaded, .ok ())
      ∧ memory.LoadedAt address words loaded := by
  obtain ⟨haddress, -⟩ := Place.ofAddress_eq_ok_iff.mp hplace
  rw [← Segment.toNat_base] at haddress
  obtain ⟨loaded, hload, hloaded⟩ := memory.exists_loadWords place words haddress hfits
  exact ⟨loaded, hload, hloaded.loadedAt haddress hfits⟩

/-- The word behind the words that fit is refused. If they end with the segment, its address
is not mapped, and if not, the segment ends in it. -/
theorem refusedWith_wordAddress_fitting (hplace : Place.ofAddress address = .ok place) :
    RefusedWith (wordAddress address place.fitting) .word
      (if place.offset % 4 = 0 then .unmappedAddress (wordAddress address place.fitting)
        else .segmentOverrun (wordAddress address place.fitting) 4) := by
  obtain ⟨haddress, hoffset⟩ := Place.ofAddress_eq_ok_iff.mp hplace
  have hbase := place.segment.toNat_base_add_size_le
  have hsize : Segment.size = 0x100000 := rfl
  rw [← Segment.toNat_base] at haddress
  unfold Place.fitting
  have hnext : (wordAddress address ((Segment.size - place.offset) / 4)).toNat
      = place.segment.base.toNat + (place.offset + 4 * ((Segment.size - place.offset) / 4)) := by
    rw [toNat_wordAddress (by omega), haddress, Nat.add_assoc]
  -- The first word that does not fit starts at the end of the segment when the words are
  -- aligned in it, else before the end, with its last byte behind it.
  by_cases haligned : place.offset % 4 = 0
  · rw [if_pos haligned]
    refine .inl ⟨?_, rfl⟩
    rw [hnext, mapped_base_add_iff place.segment (by omega)]
    omega
  · rw [if_neg haligned]
    refine .inr ⟨?_, ?_, rfl⟩
    · rw [hnext, mapped_base_add_iff place.segment (by omega)]
      omega
    · show ¬Mapped (_ + 4 - 1)
      rw [hnext, Nat.add_sub_assoc (by decide), Nat.add_assoc,
        mapped_base_add_iff place.segment (by omega)]
      omega

/-- Of words that do not fit, those that do are written. -/
theorem exists_loadWords_of_cut (memory : Memory)
    (hplace : Place.ofAddress address = .ok place)
    (hcut : Segment.size < place.offset + 4 * words.length) :
    place.fitting < words.length
      ∧ ∃ loaded, memory.loadWords address words
          = (loaded, .error (if place.offset % 4 = 0
              then .unmappedAddress (wordAddress address place.fitting)
              else .segmentOverrun (wordAddress address place.fitting) 4))
        ∧ memory.LoadedAt address (words.take place.fitting) loaded := by
  obtain ⟨-, hoffset⟩ := Place.ofAddress_eq_ok_iff.mp hplace
  have hlt : place.fitting < words.length := by
    unfold Place.fitting
    omega
  have hlength : (words.take place.fitting).length = place.fitting :=
    List.length_take_of_le (Nat.le_of_lt hlt)
  have hfits : place.offset + 4 * (words.take place.fitting).length ≤ Segment.size := by
    rw [hlength]
    unfold Place.fitting
    omega
  obtain ⟨loaded, hload, hloaded⟩ := memory.exists_loadWords_of_fits hplace hfits
  refine ⟨hlt, loaded, ?_, hloaded⟩
  -- The list is split at the word that is refused.
  have hsplit : words = words.take place.fitting ++ words[place.fitting]
      :: words.drop (place.fitting + 1) := by
    rw [← List.drop_eq_getElem_cons hlt, List.take_append_drop]
  have hrefused := refusedWith_wordAddress_fitting hplace
  rw [hsplit, loadWords_append _ hload, hlength]
  exact loaded.loadWords_of_refused _ _ hrefused

/-- Every loading goes one of these ways. -/
theorem loadsPrefix_loadWords (memory : Memory) (address : Word) (words : List Word) :
    memory.LoadsPrefix address words (memory.loadWords address words).1
      (memory.loadWords address words).2 := by
  rcases eq_or_ne words [] with rfl | hne
  · exact {
      ok_iff := iff_of_true rfl (.inl rfl)
      loadedAt _ := ⟨nofun, fun _ _ => rfl⟩
      unmapped hne := absurd rfl hne
      cut place hplace hcut :=
        absurd hcut (Nat.not_lt.mpr (Nat.le_of_lt (Place.ofAddress_eq_ok_iff.mp hplace).2)) }
  -- The four outcomes of loading, in the order in which they are told apart: no words, no
  -- segment, words cut off by the end of the segment, words that fit.
  by_cases hmapped : Mapped address.toNat
  · obtain ⟨place, hplace⟩ := Place.exists_ofAddress_iff.mpr hmapped
    have hroom : HasRoom address words.length ↔ _ := hasRoom_iff hplace
    rcases Nat.lt_or_ge Segment.size (place.offset + 4 * words.length) with hcut | hfits
    · obtain ⟨hlt, loaded, hload, hloaded⟩ := memory.exists_loadWords_of_cut hplace hcut
      rw [hload]
      exact {
        ok_iff := iff_of_false nofun
          (not_or.mpr ⟨hne, mt hroom.mp (Nat.not_le.mpr hcut)⟩)
        loadedAt := nofun
        unmapped _ hunmapped := absurd hmapped hunmapped
        cut found hfound _ := by
          obtain rfl : place = found := Except.ok.inj (hplace.symm.trans hfound)
          exact ⟨hlt, hloaded, rfl⟩ }
    · obtain ⟨loaded, hload, hloaded⟩ := memory.exists_loadWords_of_fits hplace hfits
      rw [hload]
      exact {
        ok_iff := iff_of_true rfl (.inr (hroom.mpr hfits))
        loadedAt _ := hloaded
        unmapped _ hunmapped := absurd hmapped hunmapped
        cut found hfound hcut := by
          obtain rfl : place = found := Except.ok.inj (hplace.symm.trans hfound)
          exact absurd hfits (Nat.not_le.mpr hcut) }
  · rw [memory.loadWords_of_unmapped hne hmapped]
    exact {
      ok_iff := iff_of_false nofun (not_or.mpr ⟨hne, not_hasRoom_of_unmapped hmapped _⟩)
      loadedAt := nofun
      unmapped _ _ := ⟨rfl, rfl⟩
      cut place hplace _ := absurd (Place.exists_ofAddress_iff.mp ⟨place, hplace⟩) hmapped }

end Memory

/-- The loading of words writes the longest prefix of them that fits the segment of the first
one, and nothing else. It succeeds if that is all of them. If not, its fault is that of the
first word behind. So a program is loaded exactly if it has at most 262144 words. -/
theorem loadWords_longest_prefix (machine : Machine) (address : Word) (words : List Word) :
    ∃ memory result, machine.loadWords address words = ({ machine with memory := memory }, result)
      ∧ machine.memory.LoadsPrefix address words memory result
      ∧ ((machine.loadProgram words).2 = .ok () ↔ words.length ≤ 262144) := by
  have hprogram := machine.memory.loadsPrefix_loadWords Segment.program.base words
  have hbase : Place.ofAddress Segment.program.base = .ok ⟨.program, 0⟩ := rfl
  have hroom : HasRoom Segment.program.base words.length ↔ words.length ≤ 262144 := by
    rw [hasRoom_iff hbase]
    show 0 + 4 * words.length ≤ 1048576 ↔ _
    omega
  refine ⟨_, _, rfl, machine.memory.loadsPrefix_loadWords address words, ?_⟩
  show (machine.memory.loadWords Segment.program.base words).2 = .ok () ↔ _
  rw [hprogram.ok_iff, hroom, or_iff_right_of_imp]
  rintro rfl
  exact Nat.zero_le _

/-- Two words before the end of the last segment. From an aligned address the second is refused
behind the segment, and from the address before that it lies across the end. -/
theorem loadWords_longest_prefix_stack :
    (∃ memory, (Machine.initial {}).loadWords 0x7FFFFFFC [7, 8]
        = ({ Machine.initial {} with memory := memory }, .error (.unmappedAddress 0x80000000))
      ∧ Memory.zeros.LoadedAt 0x7FFFFFFC [7] memory)
      ∧ ∃ memory, (Machine.initial {}).loadWords 0x7FFFFFFB [7, 8]
          = ({ Machine.initial {} with memory := memory },
            .error (.segmentOverrun 0x7FFFFFFF 4))
        ∧ Memory.zeros.LoadedAt 0x7FFFFFFB [7] memory := by
  obtain ⟨memory, result, hload, hprefix, -⟩ :=
    loadWords_longest_prefix (Machine.initial {}) 0x7FFFFFFC [7, 8]
  obtain ⟨other, result', hload', hprefix', -⟩ :=
    loadWords_longest_prefix (Machine.initial {}) 0x7FFFFFFB [7, 8]
  obtain ⟨-, hloaded, rfl⟩ := hprefix.cut ⟨.stack, 0xFFFFC⟩ (by decide) (by decide)
  obtain ⟨-, hloaded', rfl⟩ := hprefix'.cut ⟨.stack, 0xFFFFB⟩ (by decide) (by decide)
  exact ⟨⟨memory, hload, hloaded⟩, other, hload', hloaded'⟩

end MiniMips
