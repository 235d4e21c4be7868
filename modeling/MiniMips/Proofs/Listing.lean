import MiniMips.Proofs.Assembly.Program
import MiniMips.Proofs.Memory.Load
import MiniMips.Proofs.Memory.View

/-!
# `MiniMips.Proofs.Listing`: a program, loaded, listed and assembled again

A program that is loaded into memory can be listed as assembly text, and the texts of the
listing, one on each line, make a program again. Each part of the way has its own equation:
the loading (`Memory.Loaded`), the items of the view (`View.items`), the texts of words
(`assembleProgram_disassemble`). Here they are put together. The theorems:

* `Memory.Loaded.items_view`: a view of loaded words has these words as its items.
* `Memory.Loaded.toList_disassembleRange`: so their listing has a row for each of them.
* `load_list_assemble`: all of the way.
-/

set_option autoImplicit false

namespace MiniMips

namespace Memory

variable {memory loaded : Memory} {segment : Segment} {words : List Word}

/-- The words that are loaded at the start of a segment are the items of their range. -/
theorem Loaded.items_view (h : memory.Loaded ⟨segment, 0⟩ words loaded) (hpos : 0 < words.length)
    (hfits : 4 * words.length ≤ Segment.size) :
    (loaded.view segment.base (segment.wordAddress (words.length - 1))).items
      = words.mapIdx fun i word => ⟨segment.wordAddress i, .ok word⟩ := by
  have hlast := segment.toNat_wordAddress (show 4 * (words.length - 1) ≤ Segment.size by omega)
  -- The range ends with the address of the last word, which it includes.
  have hlength :
      (loaded.view segment.base (segment.wordAddress (words.length - 1))).length
        = words.length := by
    show ((segment.wordAddress (words.length - 1)).toNat + 4 - segment.base.toNat) / 4 = _
    rw [hlast]
    omega
  refine List.ext_getElem ?_ ?_
  · rw [View.length_items, hlength, List.length_mapIdx]
  · intro i hi hi'
    rw [List.length_mapIdx] at hi'
    rw [List.getElem_mapIdx, View.getElem_items, Memory.item_view]
    show ViewItem.mk (segment.wordAddress i) (loaded.read (segment.wordAddress i) .word) = _
    rw [h.read_wordAddress hfits hi']

/-- The listing of loaded words has one row for each of them. -/
theorem Loaded.toList_disassembleRange (h : memory.Loaded ⟨segment, 0⟩ words loaded)
    (hpos : 0 < words.length) (hfits : 4 * words.length ≤ Segment.size) :
    (disassembleRange loaded segment.base (segment.wordAddress (words.length - 1))).toList
      = words.mapIdx fun i word => ⟨segment.wordAddress i, word, disassemble word⟩ := by
  rw [MiniMips.toList_disassembleRange, h.items_view hpos hfits, List.mapIdx_eq_zipIdx_map,
    List.filterMap_map, List.mapIdx_eq_zipIdx_map]
  exact congrFun List.filterMap_eq_map _

end Memory

/-- A program that is loaded, listed and assembled again. The loading succeeds in every
machine, and the listing has one row for each word. The texts of the rows, one on each line,
are assembled to the canonical words. If some words are no instruction, the error is that of
the line of the first of them. -/
theorem load_list_assemble (machine : Machine) (words : List Word) (hpos : 1 ≤ words.length)
    (hlength : words.length ≤ 262144) :
    ∃ loaded rows, machine.loadProgram words = (loaded, .ok ())
      ∧ disassembleRange loaded.memory 0x00400000
          (0x00400000 + BitVec.ofNat 32 (4 * (words.length - 1))) = rows
      ∧ rows.toList = (words.mapIdx fun i word =>
          ⟨0x00400000 + BitVec.ofNat 32 (4 * i), word, disassemble word⟩)
      ∧ assembleProgram ("\n".intercalate (rows.toList.map ListingRow.text))
          = match words.findIdx? isUnknown with
            | none => .ok (words.map canonical)
            | some i => .error ⟨1 + i, .unknownMnemonic "unknown"⟩ := by
  obtain ⟨memory, hload, hloaded⟩ := machine.exists_loadProgram hlength
  have hrows := hloaded.toList_disassembleRange hpos (Segment.four_mul_le_size hlength)
  refine ⟨_, _, hload, rfl, hrows, ?_⟩
  have htexts : (disassembleRange memory Segment.program.base
      (Segment.program.wordAddress (words.length - 1))).toList.map ListingRow.text
        = words.map disassemble := by
    rw [hrows]
    refine List.ext_getElem (by simp) ?_
    intro i hi hi'
    simp
  have hassemble := assembleProgram_disassemble (List.ne_nil_of_length_pos hpos)
  rw [← htexts] at hassemble
  exact hassemble

/-- A product with a field that its text leaves out, before a load. And the same product before
a word that is no instruction. -/
theorem load_list_assemble_two_words :
    (∃ loaded rows,
      (Machine.initial {}).loadProgram [0x00221858, 0x8C28FFFE] = (loaded, .ok ())
        ∧ disassembleRange loaded.memory 0x00400000 0x00400004 = rows
        ∧ rows.toList = [⟨0x00400000, 0x00221858, "mul $v1 $at $v0"⟩,
          ⟨0x00400004, 0x8C28FFFE, "lw $t0 -2($at)"⟩]
        ∧ assembleProgram ("\n".intercalate (rows.toList.map ListingRow.text))
          = .ok [0x00221818, 0x8C28FFFE])
      ∧ ∃ loaded rows,
        (Machine.initial {}).loadProgram [0x00221858, 0xFC000000] = (loaded, .ok ())
          ∧ disassembleRange loaded.memory 0x00400000 0x00400004 = rows
          ∧ assembleProgram ("\n".intercalate (rows.toList.map ListingRow.text))
            = .error ⟨2, .unknownMnemonic "unknown"⟩ := by
  obtain ⟨loaded, rows, hload, hlist, hrows, hassemble⟩ :=
    load_list_assemble (Machine.initial {}) [0x00221858, 0x8C28FFFE] (by decide) (by decide)
  obtain ⟨faulty, others, hload', hlist', -, hassemble'⟩ :=
    load_list_assemble (Machine.initial {}) [0x00221858, 0xFC000000] (by decide) (by decide)
  have hall : [0x00221858, 0x8C28FFFE].findIdx? isUnknown = none := by decide +kernel
  have hsecond : [0x00221858, 0xFC000000].findIdx? isUnknown = some 1 := by decide +kernel
  rw [hall] at hassemble
  rw [hsecond] at hassemble'
  refine ⟨⟨loaded, rows, hload, hlist, ?_, ?_⟩, faulty, others, hload', hlist', hassemble'⟩
  · rw [hrows]
    decide +kernel
  · rw [hassemble]
    decide +kernel

end MiniMips
