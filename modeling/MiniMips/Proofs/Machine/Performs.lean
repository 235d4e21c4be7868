import MiniMips.Proofs.Alu
import MiniMips.Proofs.Assembly.Encode
import MiniMips.Proofs.Instruction.Address
import MiniMips.Proofs.Instruction.Canonical
import MiniMips.Proofs.Machine.Effect
import MiniMips.Proofs.Machine.Frame
import MiniMips.Proofs.Machine.Step

/-!
# `MiniMips.Proofs.Machine.Performs`: assembled lines do what they say

`Command.Performs` says what a line of assembly text asks of the machine, in terms of the
operands that its author wrote and of the numbers in the registers. It knows nothing of
words, fields and effects. The theorems:

* `Machine.writesRegister_apply`, `Machine.WritesRegister.eq_apply`: the step that writes a
  register, and that there is only one.
* `ShiftOp.yields_apply`, `ArithmeticOp.yields_apply`, `ImmediateOp.yields_apply`: the
  arithmetic unit computes what the three families ask for.
* `Command.effectOf_of_holds`: the effect of a word in terms of the command that it holds.
* `Command.performs_execute`: and this effect performs the command.
* `step_performs`: so a machine at the word of a line does what the line says.
-/

set_option autoImplicit false

namespace MiniMips

open Text

/-! ### What the families compute, as numbers -/

/-- Whether `value` is `x` shifted by `distance`. -/
def ShiftOp.Yields (op : ShiftOp) (x : Word) (distance : Nat) (value : Word) : Prop :=
  match op with
  | sll => value.toNat = x.toNat * 2 ^ distance % 2 ^ 32
  | srl => value.toNat = x.toNat / 2 ^ distance
  | sra => value.toInt = x.toInt / 2 ^ distance

/-- Whether `value` is the result on `x` and `y`. The comparison is unsigned. -/
def ArithmeticOp.Yields (op : ArithmeticOp) (x y value : Word) : Prop :=
  match op with
  | add => value.toNat = (x.toNat + y.toNat) % 2 ^ 32
  | sub => (value.toNat : Int) = ((x.toNat : Int) - y.toNat) % 2 ^ 32
  | and => value.toNat = x.toNat &&& y.toNat
  | or => value.toNat = x.toNat ||| y.toNat
  | xor => value.toNat = x.toNat ^^^ y.toNat
  | nor => value.toNat = 2 ^ 32 - 1 - (x.toNat ||| y.toNat)
  | slt => value.toNat = if x.toNat < y.toNat then 1 else 0

/-- Whether `value` is the result on `x` and the literal `z`. Of the literal count sixteen
bits, with a sign for sums and comparisons and without one for the bitwise operations. -/
def ImmediateOp.Yields (op : ImmediateOp) (x : Word) (z : Int) (value : Word) : Prop :=
  match op with
  | addi => (value.toNat : Int) = (x.toNat + z.bmod (2 ^ 16)) % 2 ^ 32
  | addiu => (value.toNat : Int) = (x.toNat + z.bmod (2 ^ 16)) % 2 ^ 32
  | slti => value.toNat = if (x.toNat : Int) < z.bmod (2 ^ 16) then 1 else 0
  | sltiu => value.toNat = if (x.toNat : Int) < z.bmod (2 ^ 16) then 1 else 0
  | andi => value.toNat = x.toNat &&& (z % 2 ^ 16).toNat
  | ori => value.toNat = x.toNat ||| (z % 2 ^ 16).toNat
  | xori => value.toNat = x.toNat ^^^ (z % 2 ^ 16).toNat

/-! ### What a command asks of the machine -/

namespace Machine

/-- Whether a step has put a value into a general register. The register reads as the value
and every other one as before, and nothing else has changed. -/
structure WritesRegister (machine : Machine) (r : Reg) (value : Word)
    (result : StepOutcome × Machine) : Prop where
  running : result.1 = .running
  written : result.2.registers.get r = value
  kept : ∀ s, s ≠ r → result.2.registers.get s = machine.registers.get s
  rest : result.2 = { machine with registers.general := result.2.registers.general }

/-- Whether a machine is another one with one more record behind those of its console. -/
structure AddsRecord (machine : Machine) (channel : Channel) (text : String)
    (after : Machine) : Prop where
  records : after.console.records.toList
    = machine.console.records.toList ++ [⟨channel, text⟩]
  rest : after = { machine with console := after.console }

/-- Whether a step has ended with a fault and a record of it, and has changed nothing else. -/
def ReportsFault (machine : Machine) (fault : Fault) (result : StepOutcome × Machine) : Prop :=
  result.1 = .faulted fault
    ∧ machine.AddsRecord .error ("[ERROR] " ++ fault.message) result.2

/-- The machine with values in HI and LO. -/
def setHiLo (machine : Machine) (hi lo : Word) : Machine :=
  { machine with registers.hi := hi, registers.lo := lo }

/-- The machine at another address. -/
def setPc (machine : Machine) (pc : Word) : Machine :=
  { machine with registers.pc := pc }

/-- A branch by `z` words from the program counter, if the condition holds. -/
def Branches (machine : Machine) (condition : Prop) (z : Int)
    (result : StepOutcome × Machine) : Prop :=
  ∃ target : Word, (target.toNat : Int)
      = (machine.registers.pc.toNat + 4 * z.bmod (2 ^ 16)) % 2 ^ 32
    ∧ (condition → result = (.running, machine.setPc target))
    ∧ (¬condition → result = (.running, machine))

/-- A jump to word number `n` in the region of the program counter. -/
def Reaches (machine : Machine) (n : Nat) (target : Word) : Prop :=
  target.toNat
    = (machine.registers.pc.toNat + 4) % 2 ^ 32 / 2 ^ 28 * 2 ^ 28 + 4 * (n % 2 ^ 26)

/-- The address `z` bytes from the value of a register. -/
def Addresses (machine : Machine) (z : Int) (s : Reg) (address : Word) : Prop :=
  (address.toNat : Int) = ((machine.registers.get s).toNat + z.bmod (2 ^ 16)) % 2 ^ 32

/-- The service whose number is in `$v0`, with its argument in `$a0`. -/
def Serves (machine : Machine) (result : StepOutcome × Machine) : Prop :=
  let number := (machine.registers.get .v0).toNat
  let argument := machine.registers.get .a0
  if number = 1 then
    result.1 = .running ∧ machine.AddsRecord .normal (decimal argument.toNat) result.2
  else if number = 10 then
    result.1 = .halted .exit ∧ machine.AddsRecord .normal "program exited" result.2
  else if number = 11 then
    result.1 = .running
      ∧ machine.AddsRecord .normal (String.singleton (characterOf argument)) result.2
  else
    result.1 = .running
      ∧ machine.AddsRecord .debug ("[DEBUG] ignored syscall service " ++ decimal number) result.2

end Machine

namespace Command

/-- What a command makes of a machine whose program counter stands behind it. All values
are read before anything is written. -/
def Performs (c : Command) (machine : Machine) (result : StepOutcome × Machine) : Prop :=
  let value := machine.registers.get
  match c with
  | shift op d t distance =>
    ∃ v, op.Yields (value t) (distance % 32) v ∧ machine.WritesRegister d v result
  | jumpRegister s => result = (.running, machine.setPc (value s))
  | syscall => machine.Serves result
  | moveFromHi d => machine.WritesRegister d machine.registers.hi result
  | moveFromLo d => machine.WritesRegister d machine.registers.lo result
  | multiply s t | multiplyInto _ s t =>
    ∃ hi lo : Word, hi.toNat * 2 ^ 32 + lo.toNat = (value s).toNat * (value t).toNat
      ∧ result = (.running, machine.setHiLo hi lo)
  | divide _ s t =>
    (value t = 0 → machine.ReportsFault .divideByZero result)
      ∧ (value t ≠ 0 → ∃ hi lo : Word,
        (value s).toNat = lo.toNat * (value t).toNat + hi.toNat
          ∧ hi.toNat < (value t).toNat ∧ result = (.running, machine.setHiLo hi lo))
  | arithmetic op d s t =>
    ∃ v, op.Yields (value s) (value t) v ∧ machine.WritesRegister d v result
  | jump n => ∃ target, machine.Reaches n target ∧ result = (.running, machine.setPc target)
  | jumpAndLink n =>
    ∃ target linked, machine.Reaches n target
      ∧ machine.WritesRegister .ra machine.registers.pc (.running, linked)
      ∧ result = (.running, linked.setPc target)
  | branchBelow s z => machine.Branches ((value s).toNat < (value 0).toNat) z result
  | branchEqual s t z => machine.Branches (value s = value t) z result
  | branchUnequal s t z => machine.Branches (value s ≠ value t) z result
  | immediate op t s z =>
    ∃ v, op.Yields (value s) z v ∧ machine.WritesRegister t v result
  | loadUpper t z =>
    ∃ v : Word, v.toNat = (z % 2 ^ 16).toNat * 2 ^ 16 ∧ machine.WritesRegister t v result
  | load op t z s =>
    ∃ address, machine.Addresses z s address
      ∧ match machine.memory.read address op.width with
        | .ok v => machine.WritesRegister t v result
        | .error fault => machine.ReportsFault fault result
  | store op t z s =>
    ∃ address, machine.Addresses z s address
      ∧ match machine.memory.write address op.width (value t) with
        | .ok memory => result = (.running, { machine with memory := memory })
        | .error fault => machine.ReportsFault fault result

end Command

/-! ### What a command leaves behind -/

namespace Machine

variable {machine : Machine} {result : StepOutcome × Machine}

/-- The effect that writes a register does so. -/
theorem writesRegister_apply (machine : Machine) (r : Reg) (value : Word) :
    machine.WritesRegister r value (.running, (Effect.writeRegister r value).apply machine) where
  running := rfl
  written := Registers.get_set_self _ r value
  kept _ hs := Registers.get_set_of_ne _ value hs.symm
  rest := rfl

/-- No other step writes the register in this way: the values that it leaves are those of one
machine. -/
theorem WritesRegister.eq_apply {r : Reg} {value : Word}
    (h : machine.WritesRegister r value result) :
    result = (.running, (Effect.writeRegister r value).apply machine) := by
  obtain ⟨outcome, after⟩ := result
  obtain ⟨rfl, hwritten, hkept, hrest⟩ := h
  have hregisters : after.registers.toRegisters = machine.registers.set r value := by
    -- The program counter, HI and LO are among the rest, and the others are read one by one.
    refine Registers.ext_get (congrArg (·.registers.pc) hrest)
      (congrArg (·.registers.hi) hrest) (congrArg (·.registers.lo) hrest) fun s => ?_
    by_cases hs : s = r
    · rw [hs, Registers.get_set_self]
      exact hwritten
    · rw [Registers.get_set_of_ne _ value (Ne.symm hs)]
      exact hkept s hs
  have hgeneral : after.registers.general = (machine.registers.set r value).general :=
    congrArg Registers.general hregisters
  have hafter : after = (Effect.writeRegister r value).apply machine := by
    rw [hgeneral] at hrest
    exact hrest
  rw [hafter]

/-- A record is added by printing it. -/
theorem addsRecord_print (machine : Machine) (channel : Channel) (text : String) :
    machine.AddsRecord channel text (machine.print channel text) where
  records := Console.toList_print _ _ _
  rest := rfl

/-- The end of a step with a fault reports the fault. -/
theorem reportsFault_report (machine : Machine) (fault : Fault) :
    machine.ReportsFault fault (machine.report fault) :=
  ⟨rfl, machine.addsRecord_print _ _⟩

end Machine

/-! ### The arithmetic unit computes it -/

/-- The arithmetic unit shifts as the family asks, by the low five bits of the distance. -/
theorem ShiftOp.yields_apply (op : ShiftOp) (x : Word) (distance : Nat) :
    op.Yields x (distance % 32)
      (op.aluOp.apply x ((BitVec.ofNat 5 distance).setWidth 32)) := by
  have hdistance : ((BitVec.ofNat 5 distance).setWidth 32).toNat % 32 = distance % 32 := by
    rw [BitVec.toNat_setWidth, BitVec.toNat_ofNat]
    omega
  cases op with
  | sll => rw [Yields, aluOp, AluOp.toNat_shiftLeftLogical, hdistance]
  | srl => rw [Yields, aluOp, AluOp.toNat_shiftRightLogical, hdistance]
  | sra => rw [Yields, aluOp, AluOp.toInt_shiftRightArithmetic, hdistance]

/-- The arithmetic unit computes what the family on two registers asks for. -/
theorem ArithmeticOp.yields_apply (op : ArithmeticOp) (x y : Word) :
    op.Yields x y (op.aluOp.apply x y) := by
  cases op with
  | add => exact AluOp.toNat_add x y
  | sub => exact AluOp.toNat_subtract x y
  | and => exact AluOp.toNat_and x y
  | or => exact AluOp.toNat_or x y
  | xor => exact AluOp.toNat_xor x y
  | nor => exact AluOp.toNat_nor x y
  | slt => exact AluOp.toNat_setLessThan x y

/-- An immediate value without a sign. -/
theorem toNat_setWidth_ofInt (z : Int) :
    ((BitVec.ofInt 16 z).setWidth 32).toNat = (z % 2 ^ 16).toNat := by
  rw [BitVec.toNat_setWidth, BitVec.toNat_ofInt]
  omega

/-- The comparison with a signed immediate value, on numbers. -/
theorem toNat_setLessThanImmediate (x : Word) (z : Int) :
    (setLessThanImmediate x (BitVec.ofInt 16 z)).toNat
      = if (x.toNat : Int) < z.bmod (2 ^ 16) then 1 else 0 := by
  unfold setLessThanImmediate
  rw [BitVec.msb_eq_toInt, BitVec.toInt_ofInt]
  -- A negative value is below every number. Any other is the same number without a sign.
  by_cases hneg : z.bmod (2 ^ 16) < 0
  · rw [if_pos (decide_eq_true hneg), if_neg (by omega)]
    rfl
  · have hz : ((z % 2 ^ 16).toNat : Int) = z.bmod (2 ^ 16) := by
      have hdef := Int.bmod_def z (2 ^ 16)
      split at hdef <;> omega
    rw [if_neg (by simpa using hneg), AluOp.toNat_setLessThan, toNat_setWidth_ofInt, ← hz]
    simp only [Int.ofNat_lt]

/-- The arithmetic unit computes what the family on a literal asks for. The literal is extended
by its sign or by zeros. -/
theorem ImmediateOp.yields_apply (op : ImmediateOp) (x : Word) (z : Int) :
    op.Yields x z (op.apply x (BitVec.ofInt 16 z)) := by
  have hsum : ((AluOp.add.apply x ((BitVec.ofInt 16 z).signExtend 32)).toNat : Int)
      = (x.toNat + z.bmod (2 ^ 16)) % 2 ^ 32 := by
    rw [signExtend_ofInt]
    exact toNat_add_ofInt x _
  cases op with
  | addi => exact hsum
  | addiu => exact hsum
  | slti => exact toNat_setLessThanImmediate x z
  | sltiu => exact toNat_setLessThanImmediate x z
  | andi => rw [Yields, apply, AluOp.toNat_and, toNat_setWidth_ofInt]
  | ori => rw [Yields, apply, AluOp.toNat_or, toNat_setWidth_ofInt]
  | xori => rw [Yields, apply, AluOp.toNat_xor, toNat_setWidth_ofInt]

/-! ### The word of a command performs it -/

/-- The effect of a command, with its operands in place of the fields of a word. -/
def Command.effect (c : Command) (registers : Registers) (memory : Memory) :
    Except Fault Effect :=
  let value := registers.get
  match c with
  | shift op d t distance =>
    .ok (.writeRegister d (op.aluOp.apply (value t) ((BitVec.ofNat 5 distance).setWidth 32)))
  | jumpRegister s => .ok (.jump (value s))
  | syscall => .ok (systemCall (value .v0) (value .a0))
  | moveFromHi d => .ok (.writeRegister d registers.hi)
  | moveFromLo d => .ok (.writeRegister d registers.lo)
  | multiply s t | multiplyInto _ s t =>
    let product := (value s).toNat * (value t).toNat
    .ok (.writeHiLo (BitVec.ofNat 32 (product / 0x100000000)) (BitVec.ofNat 32 product))
  | divide _ s t =>
    if value t = 0 then .error .divideByZero
    else .ok (.writeHiLo (value s % value t) (value s / value t))
  | arithmetic op d s t => .ok (.writeRegister d (op.aluOp.apply (value s) (value t)))
  | jump n => .ok (.jump (jumpTarget registers.pc (BitVec.ofNat 26 n)))
  | jumpAndLink n => .ok (.link registers.pc (jumpTarget registers.pc (BitVec.ofNat 26 n)))
  | branchBelow s z =>
    .ok (if value s < value 0 then .jump (branchTarget registers.pc (BitVec.ofInt 16 z))
      else .nothing)
  | branchEqual s t z =>
    .ok (if value s == value t then .jump (branchTarget registers.pc (BitVec.ofInt 16 z))
      else .nothing)
  | branchUnequal s t z =>
    .ok (if value s != value t then .jump (branchTarget registers.pc (BitVec.ofInt 16 z))
      else .nothing)
  | immediate op t s z => .ok (.writeRegister t (op.apply (value s) (BitVec.ofInt 16 z)))
  | loadUpper t z => .ok (.writeRegister t ((BitVec.ofInt 16 z).setWidth 32 <<< 16))
  | load op t z s =>
    match memory.read (effectiveAddress (value s) (BitVec.ofInt 16 z)) op.width with
    | .ok v => .ok (.writeRegister t v)
    | .error fault => .error fault
  | store op t z s =>
    match Place.ofAccess (effectiveAddress (value s) (BitVec.ofInt 16 z)) op.width with
    | .ok place => .ok (.store place op.width (value t))
    | .error fault => .error fault

/-- A word with the fields of a command has the effect of the command. -/
theorem Command.effectOf_of_holds {c : Command} {word : Word}
    (h : c.layout.Holds (Fields.ofWord word)) (machine : Machine) :
    machine.effectOf word = c.effect machine.registers.toRegisters machine.memory := by
  rw [Machine.effectOf_of_decode (decode_of_operation? (Command.operation?_of_holds h))]
  cases c with
  | load op t z s | store op t z s =>
    obtain ⟨-, hs, ht, hz⟩ := h
    -- The access to memory is one and the same, so the rest is its two outcomes.
    simp only [Command.operation, Instruction.effect, PrimaryOp.effect, op.size_eq_width, hs,
      ht, hz]
    rfl
  | _ =>
    simp_all [Command.layout, Command.registerLayout, Command.immediateLayout,
      Command.targetLayout, Layout.Holds, Instruction.effect, Command.operation, Command.effect,
      RegisterOp.effect, PrimaryOp.effect, BranchOp.holds]

/-- The two halves of a product of words. -/
theorem toNat_product (x y : Word) :
    (BitVec.ofNat 32 (x.toNat * y.toNat / 0x100000000)).toNat * 2 ^ 32
        + (BitVec.ofNat 32 (x.toNat * y.toNat)).toNat
      = x.toNat * y.toNat := by
  have hlt : x.toNat * y.toNat < 2 ^ 32 * 2 ^ 32 :=
    Nat.mul_lt_mul'' x.isLt y.isLt
  rw [BitVec.toNat_ofNat, BitVec.toNat_ofNat]
  omega

/-- The literal of `lui` is the high half of its result. -/
theorem toNat_loadUpper (z : Int) :
    ((BitVec.ofInt 16 z).setWidth 32 <<< 16).toNat = (z % 2 ^ 16).toNat * 2 ^ 16 := by
  rw [BitVec.toNat_shiftLeft, toNat_setWidth_ofInt, Nat.shiftLeft_eq]
  omega

/-- A conditional jump to the target of a branch. -/
theorem Machine.branches_of_effect (machine : Machine) {taken condition : Prop}
    [Decidable taken] (h : taken ↔ condition) (z : Int) :
    let effect : Effect :=
      if taken then .jump (branchTarget machine.registers.pc (BitVec.ofInt 16 z)) else .nothing
    machine.Branches condition z (effect.outcome, effect.apply machine) := by
  refine ⟨_, toNat_branchTarget machine.registers.pc z, fun htrue => ?_, fun hfalse => ?_⟩
  · rw [if_pos (h.mpr htrue)]
    rfl
  · rw [if_neg (fun htaken => hfalse (h.mp htaken))]
    rfl

/-- The target of a jump is in the region of the address behind it. -/
theorem Machine.reaches_jumpTarget (machine : Machine) (n : Nat) :
    machine.Reaches n (jumpTarget machine.registers.pc (BitVec.ofNat 26 n)) := by
  rw [Machine.Reaches, toNat_jumpTarget, BitVec.toNat_add]
  rfl

/-- A system call is served by its number. -/
theorem Machine.serves_systemCall (machine : Machine) :
    let effect := systemCall (machine.registers.get .v0) (machine.registers.get .a0)
    machine.Serves (effect.outcome, effect.apply machine) := by
  unfold Machine.Serves systemCall
  generalize (machine.registers.get .v0).toNat = number
  cases hservice : Service.ofNumber? number with
  | none =>
    -- No service has this number, so it is none of the three.
    have hother : ∀ service : Service, number ≠ service.number := by
      rintro service rfl
      rw [Service.ofNumber?_eq_some_iff.mpr rfl] at hservice
      cases hservice
    rw [if_neg (show number ≠ 1 from hother .printInteger),
      if_neg (show number ≠ 10 from hother .exit),
      if_neg (show number ≠ 11 from hother .printCharacter)]
    exact ⟨rfl, machine.addsRecord_print _ _⟩
  | some service =>
    obtain rfl := Service.ofNumber?_eq_some_iff.mp hservice
    cases service <;> exact ⟨rfl, machine.addsRecord_print _ _⟩

/-- A word with the fields of a command performs the command. -/
theorem Command.performs_execute {c : Command} {word : Word}
    (h : c.layout.Holds (Fields.ofWord word)) (machine : Machine) :
    c.Performs machine (machine.execute word) := by
  have heffect := Command.effectOf_of_holds h machine
  cases c with
  | shift op d t distance =>
    rw [Machine.execute_of_effectOf heffect]
    exact ⟨_, op.yields_apply _ _, machine.writesRegister_apply _ _⟩
  | jumpRegister =>
    rw [Machine.execute_of_effectOf heffect]
    rfl
  | moveFromHi | moveFromLo =>
    rw [Machine.execute_of_effectOf heffect]
    exact machine.writesRegister_apply _ _
  | syscall =>
    rw [Machine.execute_of_effectOf heffect]
    exact machine.serves_systemCall
  | multiply | multiplyInto =>
    rw [Machine.execute_of_effectOf heffect]
    exact ⟨_, _, toNat_product _ _, rfl⟩
  | divide d s t =>
    -- A divisor of zero is the only fault that an operation on registers can meet.
    by_cases hzero : machine.registers.get t = 0
    · have hfault : machine.effectOf word = .error .divideByZero := by
        rw [heffect, Command.effect, if_pos hzero]
      refine ⟨fun _ => ?_, fun hne => absurd hzero hne⟩
      rw [Machine.execute_of_fault hfault]
      exact machine.reportsFault_report _
    · refine ⟨fun h => absurd h hzero, fun _ => ?_⟩
      have hquotient : machine.effectOf word = .ok (.writeHiLo
          (machine.registers.get s % machine.registers.get t)
          (machine.registers.get s / machine.registers.get t)) := by
        rw [heffect, Command.effect, if_neg hzero]
      refine ⟨_, _, ?_, ?_, Machine.execute_of_effectOf hquotient⟩
      · rw [BitVec.toNat_umod, BitVec.toNat_udiv, Nat.mul_comm]
        exact (Nat.div_add_mod _ _).symm
      · rw [BitVec.toNat_umod]
        exact Nat.mod_lt _ (BitVec.toNat_pos_of_ne_zero hzero)
  | arithmetic op =>
    rw [Machine.execute_of_effectOf heffect]
    exact ⟨_, op.yields_apply _ _, machine.writesRegister_apply _ _⟩
  | jump n =>
    rw [Machine.execute_of_effectOf heffect]
    exact ⟨_, machine.reaches_jumpTarget n, rfl⟩
  | jumpAndLink n =>
    rw [Machine.execute_of_effectOf heffect]
    exact ⟨_, _, machine.reaches_jumpTarget n, machine.writesRegister_apply _ _, rfl⟩
  | branchBelow s z =>
    rw [Machine.execute_of_effectOf heffect]
    exact machine.branches_of_effect BitVec.lt_def z
  | branchEqual s t z =>
    rw [Machine.execute_of_effectOf heffect]
    exact machine.branches_of_effect beq_iff_eq z
  | branchUnequal s t z =>
    rw [Machine.execute_of_effectOf heffect]
    exact machine.branches_of_effect bne_iff_ne z
  | immediate op t s z =>
    rw [Machine.execute_of_effectOf heffect]
    exact ⟨_, op.yields_apply _ _, machine.writesRegister_apply _ _⟩
  | loadUpper t z =>
    rw [Machine.execute_of_effectOf heffect]
    exact ⟨_, toNat_loadUpper z, machine.writesRegister_apply _ _⟩
  | load op t z s =>
    refine ⟨_, toNat_effectiveAddress (machine.registers.get s) z, ?_⟩
    rw [Command.effect] at heffect
    cases hread : machine.memory.read
        (effectiveAddress (machine.registers.get s) (BitVec.ofInt 16 z)) op.width with
    | ok v =>
      rw [hread] at heffect
      rw [Machine.execute_of_effectOf heffect]
      exact machine.writesRegister_apply _ _
    | error fault =>
      rw [hread] at heffect
      rw [Machine.execute_of_fault heffect]
      exact machine.reportsFault_report _
  | store op t z s =>
    refine ⟨_, toNat_effectiveAddress (machine.registers.get s) z, ?_⟩
    rw [Command.effect] at heffect
    rw [Memory.write]
    cases hplace : Place.ofAccess
        (effectiveAddress (machine.registers.get s) (BitVec.ofInt 16 z)) op.width with
    | ok place =>
      rw [hplace] at heffect
      exact Machine.execute_of_effectOf heffect
    | error fault =>
      rw [hplace] at heffect
      rw [Machine.execute_of_fault heffect]
      exact machine.reportsFault_report _

/-- Assembled text is executed as it is written: the step of a machine at the word of a
line performs the command of the line. Behind the fetch and the trace, the program counter
has moved by four and the record of the word is written. All else is as before the step. -/
theorem step_performs {line : String} {word : Word} {machine : Machine}
    (hline : encode line = .ok word) (hword : word ≠ 0)
    (hread : machine.memory.read machine.registers.pc .word = .ok word) :
    (∃ c : Command, c.Written (tokens line))
      ∧ ∀ c : Command, c.Written (tokens line) →
        c.Performs (machine.advance.trace word) machine.step := by
  refine ⟨written_of_encode hline, fun c hc => ?_⟩
  have hholds := c.holds_word
  rw [← Except.ok.inj (hline.symm.trans (encode_of_written hc))] at hholds
  rw [Machine.step_of_read hread, if_neg hword]
  exact Command.performs_execute hholds _

/-- A difference of one and five, as an immediate value. The register of the destination reads
as minus four afterwards. -/
theorem step_performs_addi :
    (∃ c : Command, c.Written (tokens "addi $t0 $t1 -5"))
      ∧ (Command.immediate .addi 8 9 (-5)).Performs
        ((Machine.probe 0x2128FFFB 9).advance.trace 0x2128FFFB)
        (Machine.probe 0x2128FFFB 9).step
      ∧ (Machine.probe 0x2128FFFB 9).step.2.registers.get 8 = 0xFFFFFFFC := by
  have hline : encode "addi $t0 $t1 -5" = .ok 0x2128FFFB := by decide +kernel
  have htokens : tokens "addi $t0 $t1 -5" = ["addi", "$t0", "$t1", "-5"] := by decide +kernel
  have hwritten : (Command.immediate .addi 8 9 (-5)).Written (tokens "addi $t0 $t1 -5") := by
    rw [htokens]
    exact Command.written_addi
  obtain ⟨hcommand, hstep⟩ := step_performs hline (by decide) (Machine.read_probe 0x2128FFFB 9)
  have hperforms := hstep _ hwritten
  refine ⟨hcommand, hperforms, ?_⟩
  -- The value is read off the specification, where the other register still holds one.
  obtain ⟨v, hyields, hwrites⟩ := hperforms
  rw [hwrites.written]
  have hone : ((Machine.probe 0x2128FFFB 9).advance.trace 0x2128FFFB).registers.get 9 = 1 := by
    rw [Machine.trace_registers]
    exact Machine.get_probe_self 0x2128FFFB 9
  simp only [ImmediateOp.Yields, hone] at hyields
  refine BitVec.eq_of_toNat_eq (Int.ofNat.inj (hyields.trans ?_))
  decide

end MiniMips
