import MiniMips.Machine.Effect
import MiniMips.Proofs.Instruction.Layout
import MiniMips.Proofs.Memory.Access

/-!
# `MiniMips.Proofs.Machine.Effect`: what an instruction can ask for

An instruction comes to an effect or to a fault. The theorems here are read backwards, from
the effect or the fault to the instruction, so that nothing behind them has to look at all
operations again.

* `systemCall_eq_exit_iff`: the one service that ends the program.
* `LoadOp.size_eq_width`, `StoreOp.size_eq_width`: loads and stores are as wide as their names say.
* `Instruction.effect_eq_error_iff`: the faults of an instruction and their causes.
* `Instruction.effect_eq_exit_iff`: the instruction that ends the program.
* `Instruction.origin_of_effect`: which instructions write a register, HI and LO, the
  program counter or memory.
-/

set_option autoImplicit false

namespace MiniMips

/-! ### System calls -/

/-- The list of services leaves none out. -/
theorem Service.mem_all (service : Service) : service ∈ Service.all := by
  cases service <;> decide

/-- The numbers of the services. -/
theorem Service.ofNumber?_eq_some_iff {number : Nat} {service : Service} :
    Service.ofNumber? number = some service ↔ service.number = number :=
  find?_key_eq_some_iff (by decide) service.mem_all

/-- Service ten is the one that ends the program. -/
theorem systemCall_eq_exit_iff {number argument : Word} :
    systemCall number argument = .exit ↔ number = 10 := by
  have hten : Service.ofNumber? number.toNat = some .exit ↔ number = 10 := by
    rw [Service.ofNumber?_eq_some_iff, ← BitVec.toNat_inj]
    exact eq_comm
  rw [← hten, systemCall]
  cases Service.ofNumber? number.toNat with
  | none => simp
  | some service => cases service <;> simp

/-! ### Destinations -/

/-- The general register that an operation may write. -/
def Operation.destination? (op : Operation) (fields : Fields) : Option Reg :=
  match op with
  | .register (.shift _) | .register .moveFromHi | .register .moveFromLo
  | .register (.arithmetic _) => some fields.rd
  | .primary (.immediate _) | .primary .loadUpper | .primary (.load _) => some fields.rt
  | .primary .jumpAndLink => some .ra
  | _ => none

/-! ### Widths of accesses -/

/-- The width of a load by its name: a word for `lw`, and one byte for the other two. -/
def LoadOp.width : LoadOp → AccessSize
  | .lw => .word
  | .lb | .lbu => .byte

/-- The width of a store by its name. -/
def StoreOp.width : StoreOp → AccessSize
  | .sw => .word
  | .sb => .byte

/-- A load reads as many bytes as its name says. -/
theorem LoadOp.size_eq_width (load : LoadOp) : load.size = load.width := by
  cases load <;> rfl

/-- A store writes as many bytes as its name says. -/
theorem StoreOp.size_eq_width (store : StoreOp) : store.size = store.width := by
  cases store <;> rfl

/-! ### Faults and the end of the program -/

namespace Instruction

variable {op : Operation} {fields : Fields} {registers : Registers} {memory : Memory}

/-- The faults of an instruction: a divisor of zero, and the faults of the access that a load
or a store makes. -/
theorem effect_eq_error_iff {fault : Fault} :
    (Instruction.mk op fields).effect registers memory = .error fault ↔
      (op = .register .divide ∧ registers.get fields.rt = 0 ∧ fault = .divideByZero)
        ∨ (∃ load : LoadOp, op = .primary (.load load)
          ∧ memory.read (effectiveAddress (registers.get fields.rs) fields.immediate) load.width
            = .error fault)
        ∨ ∃ store : StoreOp, op = .primary (.store store)
          ∧ memory.write (effectiveAddress (registers.get fields.rs) fields.immediate) store.width
            (registers.get fields.rt) = .error fault := by
  cases op with
  | register op =>
    cases op with
    | divide =>
      by_cases hzero : registers.get fields.rt = 0#32
      · simp [effect, RegisterOp.effect, hzero, eq_comm]
      · simp [effect, RegisterOp.effect, hzero]
    | _ => simp [effect, RegisterOp.effect]
  | primary op =>
    cases op with
    | load load =>
      cases hread : memory.read
          (effectiveAddress (registers.get fields.rs) fields.immediate) load.width <;>
        simp [effect, PrimaryOp.effect, load.size_eq_width, hread]
    | store store =>
      -- A store finds its place first, and is refused where the write is refused.
      cases hplace : Place.ofAccess
          (effectiveAddress (registers.get fields.rs) fields.immediate) store.width <;>
        simp [effect, PrimaryOp.effect, store.size_eq_width, Memory.write, hplace]
    | _ => simp [effect, PrimaryOp.effect]

/-- The instruction that ends the program. -/
theorem effect_eq_exit_iff :
    (Instruction.mk op fields).effect registers memory = .ok .exit ↔
      op = .register .syscall ∧ registers.get .v0 = 10 := by
  -- Only a system call has an exit; each of the others has its effect or its fault under a
  -- condition that does not matter here.
  cases op with
  | register op =>
    cases op with
    | syscall => simp [effect, RegisterOp.effect, systemCall_eq_exit_iff]
    | divide =>
      simp only [effect, RegisterOp.effect]
      split <;> simp
    | _ => simp [effect, RegisterOp.effect]
  | primary op =>
    cases op with
    | branch op =>
      simp only [effect, PrimaryOp.effect]
      split <;> simp
    | load load =>
      simp only [effect, PrimaryOp.effect]
      split <;> simp
    | store store =>
      simp only [effect, PrimaryOp.effect]
      split <;> simp
    | _ => simp [effect, PrimaryOp.effect]

/-! ### The instruction behind an effect -/

/-- What an instruction must be to come to an effect: the register that it writes is its
destination, and the other effects belong to few operations. -/
def Origin (op : Operation) (fields : Fields) (registers : Registers) : Effect → Prop
  | .nothing | .print _ _ | .exit => True
  | .writeRegister r _ => op.destination? fields = some r
  | .writeHiLo _ _ =>
    op = .register .multiply ∨ op = .register .divide ∧ registers.get fields.rt ≠ 0
  | .jump _ =>
    op = .register .jumpRegister ∨ op = .primary .jump
      ∨ ∃ branch : BranchOp, op = .primary (.branch branch)
        ∧ branch.holds (registers.get fields.rs) (registers.get fields.rt)
  | .link _ _ => op = .primary .jumpAndLink
  | .store place size _ =>
    ∃ store : StoreOp, op = .primary (.store store) ∧ size = store.width
      ∧ Place.ofAccess (effectiveAddress (registers.get fields.rs) fields.immediate) size
        = .ok place

/-- Every system call prints, or ends the program. -/
theorem origin_systemCall (op : Operation) (number argument : Word) :
    Origin op fields registers (systemCall number argument) := by
  unfold systemCall
  cases Service.ofNumber? number.toNat with
  | none => trivial
  | some service => cases service <;> trivial

/-- An instruction comes to no other effects than its own. -/
theorem origin_of_effect {effect : Effect}
    (h : (Instruction.mk op fields).effect registers memory = .ok effect) :
    Origin op fields registers effect := by
  cases op with
  | register op =>
    cases op with
    | syscall =>
      cases h
      exact origin_systemCall _ _ _
    | divide =>
      -- A quotient exists, or there is no effect.
      simp only [Instruction.effect, RegisterOp.effect] at h
      split at h
      · cases h
      · rename_i hzero
        cases h
        exact .inr ⟨rfl, hzero⟩
    | _ => cases h; simp [Origin, Operation.destination?]
  | primary op =>
    cases op with
    | branch branch =>
      cases h
      by_cases htaken : branch.holds (registers.get fields.rs) (registers.get fields.rt)
      · rw [if_pos htaken]
        exact .inr (.inr ⟨branch, rfl, htaken⟩)
      · rw [if_neg htaken]
        trivial
    | load load =>
      simp only [Instruction.effect, PrimaryOp.effect] at h
      split at h
      · cases h
        rfl
      · cases h
    | store store =>
      simp only [Instruction.effect, PrimaryOp.effect] at h
      split at h
      · rename_i place hplace
        cases h
        exact ⟨store, rfl, store.size_eq_width, hplace⟩
      · cases h
    | _ => cases h; simp [Origin, Operation.destination?]

end Instruction

end MiniMips
