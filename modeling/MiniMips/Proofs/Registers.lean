import Mathlib.Data.List.Nodup
import MiniMips.Proofs.Table
import MiniMips.Registers

/-!
# `MiniMips.Proofs.Registers`: the comparison with the saved registers

The comparison can be read in two ways. By name, each of the 35 registers has a value now and
a saved one. By position, the names stand in one row and the values in others, and the rows
are put side by side. Both come to the same, since the rows keep the same order and no two
registers share a name. The theorems:

* `Reg.ofName?_eq_some_iff`, `RegisterName.ofText?_eq_some_iff`: a name belongs to at most one
  register.
* `Registers.ext_get`: the values determine the registers.
* `Registers.row_eq`: the row of the values.
* `RegisterFile.comparison_eq`: the rows side by side.
* `RegisterFile.reports_of_saved`, `RegisterFile.reports_of_not_saved`: what the comparison
  reports, with a saved copy and without one.
-/

set_option autoImplicit false

namespace MiniMips

/-! ### Names -/

/-- The list of registers leaves none out. -/
theorem Reg.mem_all (r : Reg) : r ∈ Reg.all := by
  refine List.mem_map.mpr ⟨r.toNat, List.mem_range.mpr r.isLt, ?_⟩
  simp

/-- A name belongs to at most one register. -/
private theorem Reg.name_injective : ∀ r ∈ Reg.all, ∀ s ∈ Reg.all, r.name = s.name → r = s := by
  decide +kernel

/-- The register of a name is the one that has it. -/
theorem Reg.ofName?_eq_some_iff {name : String} {r : Reg} :
    Reg.ofName? name = some r ↔ r.name = name :=
  find?_key_eq_some_iff Reg.name_injective r.mem_all

namespace RegisterName

/-- The list of displayed registers leaves none out. -/
theorem mem_all (name : RegisterName) : name ∈ all := by
  cases name with
  | general r => exact List.mem_append_right _ (List.mem_map_of_mem r.mem_all)
  | _ => decide

/-- The displayed names in the order in which they are shown. -/
def displayed : List String :=
  ["PC", "HI", "LO"] ++ Reg.names.toList

/-- The names in the order of the display, written out. -/
theorem map_text_all : all.map text = displayed := by
  decide +kernel

/-- No name is displayed twice. -/
theorem nodup_displayed : displayed.Nodup := by
  decide +kernel

/-- A displayed name belongs to at most one register. -/
theorem text_injective {name other : RegisterName} (h : name.text = other.text) :
    name = other := by
  have hnodup : (all.map text).Nodup := map_text_all ▸ nodup_displayed
  exact List.inj_on_of_nodup_map hnodup name.mem_all other.mem_all h

/-- The register of a displayed name is the one that has it. -/
theorem ofText?_eq_some_iff {text : String} {name : RegisterName} :
    ofText? text = some name ↔ name.text = text :=
  find?_key_eq_some_iff (fun _ _ _ _ => text_injective) name.mem_all

/-- A text is displayed if a register has it for its name. -/
theorem mem_displayed_iff {text : String} :
    text ∈ displayed ↔ ∃ name : RegisterName, name.text = text := by
  rw [← map_text_all, List.mem_map]
  constructor
  · rintro ⟨name, -, htext⟩
    exact ⟨name, htext⟩
  · rintro ⟨name, htext⟩
    exact ⟨name, name.mem_all, htext⟩

end RegisterName

/-! ### Values -/

namespace Registers

/-- The values determine the registers. -/
theorem ext_get {registers other : Registers} (hpc : registers.pc = other.pc)
    (hhi : registers.hi = other.hi) (hlo : registers.lo = other.lo)
    (hget : ∀ r, registers.get r = other.get r) : registers = other := by
  obtain ⟨pc, hi, lo, general⟩ := registers
  obtain ⟨pc', hi', lo', general'⟩ := other
  have hgeneral : general = general' := by
    refine Vector.ext fun i hi => ?_
    simpa [get, Nat.mod_eq_of_lt hi] using hget (BitVec.ofNat 5 i)
  cases hpc
  cases hhi
  cases hlo
  cases hgeneral
  rfl

/-- The values in the order in which they are shown. -/
def row (registers : Registers) : List Word :=
  [registers.pc, registers.hi, registers.lo] ++ registers.general.toList

/-- The values with their names. -/
def named (registers : Registers) : List (String × Word) :=
  RegisterName.displayed.zip registers.row

/-- The row has the value of each register, in the order of the display. -/
theorem row_eq (registers : Registers) :
    registers.row = RegisterName.all.map registers.value := by
  have hgeneral : registers.general.toList = Reg.all.map registers.get := by
    -- The row counts its values by numbers, where registers have five bits.
    refine List.ext_getElem (by simp [Reg.all]) ?_
    intro i hi _
    have hi : i < 32 := by simpa using hi
    simp [Reg.all, get, Nat.mod_eq_of_lt hi]
  rw [row, hgeneral, RegisterName.all, List.map_append, List.map_map]
  rfl

/-- The row of names and the row of values go together. -/
theorem named_eq (registers : Registers) :
    registers.named = RegisterName.all.map fun name => (name.text, registers.value name) := by
  rw [named, row_eq, ← RegisterName.map_text_all, List.zip_map']

end Registers

namespace RegisterFile

variable {file : RegisterFile}

/-- All general registers start at zero but the stack pointer. -/
theorem get_initial (pc : Word) (r : Reg) :
    (RegisterFile.initial pc).get r = if r = .sp then 0x80000000 else 0 := by
  have hzero : ∀ r : Reg,
      (RegisterFile.initial 0).get r = if r = .sp then 0x80000000 else 0 := by
    decide
  exact hzero r

/-- The comparison by position: the values of each register now and then, side by side. -/
def comparison (file : RegisterFile) : List (String × Bool) :=
  match file.saved with
  | none => file.named.map fun now => (now.1, true)
  | some saved => (file.named.zip saved.named).map fun row => (row.1.1, row.1.2 != row.2.2)

/-- The comparison by position is the comparison by name. -/
theorem comparison_eq (file : RegisterFile) :
    file.comparison = RegisterName.all.map fun name => (name.text, file.hasChanged name) := by
  unfold comparison hasChanged
  cases file.saved with
  | none => simp only [Registers.named_eq, List.map_map, Function.comp_def]
  | some saved =>
    simp only [Registers.named_eq, List.zip_map', List.map_map, Function.comp_def]

/-- The lookup of a name finds the register in the comparison. -/
theorem changed?_eq_find? (file : RegisterFile) (text : String) :
    file.changed? text = (file.comparison.find? (·.1 == text)).map (·.2) := by
  rw [comparison_eq, List.find?_map, Option.map_map]
  rfl

/-- The list of changed names is filtered out of the comparison. -/
theorem changedNames_eq_filter (file : RegisterFile) :
    file.changedNames = (file.comparison.filter (·.2)).map (·.1) := by
  rw [comparison_eq, List.filter_map, List.map_map]
  rfl

/-! ### Reports -/

/-- What the comparison reports if the registers of some names differ. -/
structure Reports (file : RegisterFile) (differs : RegisterName → Prop) : Prop where
  /-- The lookup is the one in the comparison by position. -/
  lookup : ∀ text, file.changed? text = (file.comparison.find? (·.1 == text)).map (·.2)
  changed : ∀ name : RegisterName, file.changed? name.text = some true ↔ differs name
  unchanged : ∀ name : RegisterName, file.changed? name.text = some false ↔ ¬differs name
  /-- There is no answer for any other text. -/
  unknown : ∀ text, file.changed? text = none ↔ text ∉ RegisterName.displayed
  /-- The list of names is made from the comparison by position. -/
  listed : file.changedNames = (file.comparison.filter (·.2)).map (·.1)
  /-- It is in the order of the display, -/
  ordered : file.changedNames.Sublist RegisterName.displayed
  /-- has no name twice, -/
  nodup : file.changedNames.Nodup
  /-- and has the names of the registers that differ. -/
  mem : ∀ name : RegisterName, name.text ∈ file.changedNames ↔ differs name

/-- The name of a register is answered by its comparison. -/
theorem changed?_text (file : RegisterFile) (name : RegisterName) :
    file.changed? name.text = some (file.hasChanged name) := by
  rw [changed?, RegisterName.ofText?_eq_some_iff.mpr rfl]
  rfl

/-- Any other text has no answer. -/
theorem changed?_eq_none_iff {text : String} :
    file.changed? text = none ↔ text ∉ RegisterName.displayed := by
  rw [changed?, Option.map_eq_none_iff, Option.eq_none_iff_forall_ne_some,
    RegisterName.mem_displayed_iff, not_exists]
  exact forall_congr' fun name => not_congr RegisterName.ofText?_eq_some_iff

/-- The changed names are in the order of the display. -/
theorem changedNames_sublist (file : RegisterFile) :
    file.changedNames.Sublist RegisterName.displayed := by
  rw [← RegisterName.map_text_all]
  exact List.filter_sublist.map _

/-- The changed names are those of the changed registers, since no two registers share one. -/
theorem text_mem_changedNames_iff {name : RegisterName} :
    name.text ∈ file.changedNames ↔ file.hasChanged name = true := by
  rw [changedNames, List.mem_map_of_injective fun _ _ => RegisterName.text_injective,
    List.mem_filter, and_iff_right name.mem_all]

/-- The comparison reports what has changed, by name, by position and as a list. -/
theorem reports {differs : RegisterName → Prop}
    (h : ∀ name, file.hasChanged name = true ↔ differs name) : file.Reports differs where
  lookup := file.changed?_eq_find?
  changed name := by rw [changed?_text, Option.some_inj, h]
  unchanged name := by rw [changed?_text, Option.some_inj, ← h, Bool.not_eq_true]
  unknown _ := changed?_eq_none_iff
  listed := file.changedNames_eq_filter
  ordered := file.changedNames_sublist
  nodup := RegisterName.nodup_displayed.sublist file.changedNames_sublist
  mem name := by rw [text_mem_changedNames_iff, h]

/-- With a saved copy, the registers differ whose values do. -/
theorem reports_of_saved {saved : Registers} (h : file.saved = some saved) :
    file.Reports fun name => file.value name ≠ saved.value name :=
  reports fun name => by rw [hasChanged, h]; exact bne_iff_ne

/-- Without one, all of them do. -/
theorem reports_of_not_saved (h : file.saved = none) : file.Reports fun _ => True :=
  reports fun name => by rw [hasChanged, h]; simp

/-- And all names are listed. -/
theorem changedNames_of_not_saved (h : file.saved = none) :
    file.changedNames = RegisterName.displayed := by
  have hall : ∀ name ∈ RegisterName.all, file.hasChanged name = true := by
    intro name _
    rw [hasChanged, h]
  rw [changedNames, List.filter_eq_self.mpr hall, RegisterName.map_text_all]

end RegisterFile

end MiniMips
