import Mathlib.Tactic
import ChipScore.Bus.AddressSpace
import ChipScore.Bus.Ram
import ChipScore.Proofs.Cpu.Arithmetic
import ChipScore.Proofs.Cpu.EffectiveAddress

/-!
# The arithmetic instructions

Eight operations add, subtract or compare.  Three of them are fused: they change the byte at their
data address first, write it back and compute with the changed byte.  `Cpu.Computes` says what each
of them does to the accumulator and the flags, in numbers.  Nothing in it depends on the addressing
mode, which only decides where the byte lies, nor on the decimal flag.
-/

namespace ChipScore

namespace Operation

/-- The operations that add to the accumulator. -/
def isAddition (operation : Operation) : Bool :=
  operation ∈ [.adc, .rra]

/-- The operations that subtract from the accumulator. -/
def isSubtraction (operation : Operation) : Bool :=
  operation ∈ [.sbc, .isc]

/-- The register that an operation compares with its operand. -/
def compared? : Operation → Option Register
  | .cmp | .dcp => some .a
  | .cpx => some .x
  | .cpy => some .y
  | _ => none

/-- The operations that add, subtract or compare. -/
def isArithmetic (operation : Operation) : Bool :=
  operation.isAddition || operation.isSubtraction || operation.compared?.isSome

/-- The number that an arithmetic operation computes with, from the byte at its data address and the
carry before. -/
def term : Operation → Nat → Nat → Nat
  | .rra, cell, carry => cell / 2 + 128 * carry
  | .isc, cell, _ => (cell + 1) % 256
  | .dcp, cell, _ => (cell + 255) % 256
  | _, cell, _ => cell

/-- The carry that an arithmetic operation computes with.  A rotation passes on the bit that it moves
out. -/
def carryIn : Operation → Nat → Bool → Bool
  | .rra, cell, _ => cell % 2 == 1
  | _, _, carry => carry

end Operation

/-- What an arithmetic operation does to a processor.  With `cell` at its data address it computes
with `value`, which is that byte or what that byte is changed into.  The index registers and the stack
pointer stay, and a comparison leaves the accumulator and the overflow flag as well. -/
structure Cpu.Computes {α β : Type} (s : Cpu α) (operation : Operation) (cell value : UInt8)
    (t : Cpu β) : Prop where
  value_eq : value.toNat = operation.term cell.toNat s.flags.carry.toNat
  x_eq : t.x = s.x
  y_eq : t.y = s.y
  sp_eq : t.sp = s.sp
  adds : operation.isAddition = true →
    Adds s.a value (operation.carryIn cell.toNat s.flags.carry) t.a t.flags
  subtracts : operation.isSubtraction = true →
    Subtracts s.a value (operation.carryIn cell.toNat s.flags.carry) t.a t.flags
  compares : ∀ r, operation.compared? = some r →
    t.a = s.a ∧ t.flags.overflow = s.flags.overflow ∧ Compares (s.get r) value t.flags

/-- An arithmetic operation has data in every mode that it is bound in. -/
lemma Binding.WellFormed.hasOperand_of_isArithmetic {b : Binding} (h : b.WellFormed)
    (harithmetic : b.operation.isArithmetic = true) : b.mode.hasOperand = true := by
  have hfits := h.fits
  cases hoperation : b.operation <;>
    simp_all [Operation.isArithmetic, Operation.isAddition, Operation.isSubtraction,
      Operation.compared?, Operation.effect, Effect.fits]

namespace Cpu

variable {β : Type}

/-- What an arithmetic instruction makes of the byte at its data address.  The fused operations hand
the carry and the changed byte on to the second half. -/
lemma outcome_computes (s : Cpu β) {b : Binding} (h : b.operation.isArithmetic = true)
    (cell : UInt8) :
    ∃ value, s.Computes b.operation cell value (s.outcome b cell).1 ∧
      (s.outcome b cell).2 = if b.operation.isModification then some value else none := by
  obtain ⟨operation, mode, cycles, undocumented⟩ := b
  cases operation with
  | adc =>
    have hadds := s.flags.addWithCarry_adds s.a cell
    exact ⟨cell, ⟨rfl, rfl, rfl, rfl, fun _ => hadds, nofun, nofun⟩, rfl⟩
  | sbc =>
    have hsubtracts := s.flags.addWithCarry_complement_subtracts s.a cell
    exact ⟨cell, ⟨rfl, rfl, rfl, rfl, nofun, fun _ => hsubtracts, nofun⟩, rfl⟩
  | cmp | cpx | cpy =>
    refine ⟨cell, ⟨rfl, rfl, rfl, rfl, nofun, nofun, ?_⟩, rfl⟩
    rintro r ⟨⟩
    exact ⟨rfl, rfl, s.flags.compare_compares _ cell⟩
  | rra =>
    -- the carry of the addition is the bit that the rotation has moved out
    let changed := Modification.rotateRight.apply s.flags cell
    have hadds := changed.2.addWithCarry_adds s.a changed.1
    have hcarry : changed.2.carry = (cell.toNat % 2 == 1) :=
      Modification.carryOut_rotateRight s.flags.carry cell
    rw [hcarry] at hadds
    exact ⟨changed.1, ⟨Modification.toNat_result_rotateRight _ cell, rfl, rfl, rfl, fun _ => hadds,
      nofun, nofun⟩, rfl⟩
  | isc =>
    let changed := Modification.increment.apply s.flags cell
    have hsubtracts := changed.2.addWithCarry_complement_subtracts s.a changed.1
    exact ⟨changed.1, ⟨Modification.toNat_result_increment s.flags.carry cell, rfl, rfl, rfl, nofun,
      fun _ => hsubtracts, nofun⟩, rfl⟩
  | dcp =>
    let changed := Modification.decrement.apply s.flags cell
    refine ⟨changed.1, ⟨Modification.toNat_result_decrement s.flags.carry cell, rfl, rfl, rfl, nofun,
      nofun, ?_⟩, rfl⟩
    rintro r ⟨⟩
    exact ⟨rfl, rfl, changed.2.compare_compares s.a changed.1⟩
  | _ => cases h

variable [Bus β]

/-- **Arithmetic instructions compute integer arithmetic.**  Between instructions, a processor before
an opcode that is bound to an arithmetic operation carries it out, in whatever mode: it takes the
byte at its data address or changes it and writes it back there, and adds it to the accumulator,
subtracts it or compares a register with it. -/
theorem stepInstruction_computes (s : Cpu β) {b : Binding} (hpending : s.pending = 0)
    (hhalted : s.halted = false) (hbound : Opcode.binding? s.opcode = some b)
    (harithmetic : b.operation.isArithmetic = true) :
    ∃ (address : UInt16) (value : UInt8) (t : Cpu β),
      s.dataAddress? b.mode = some address.toNat ∧
      s.stepInstruction = .ok (s.cost b, t) ∧
      s.Computes b.operation (s.read address) value t ∧
      t.bus = if b.operation.isModification then Bus.write s.bus address value else s.bus := by
  have hwell := wellFormed_of_binding? hbound
  have hoperand := hwell.hasOperand_of_isArithmetic harithmetic
  have he : b.operation.effect.usesData = true := by
    refine hwell.usesData hoperand ?_ ?_ <;>
    · intro hoperation
      rw [hoperation] at harithmetic
      cases harithmetic
  obtain ⟨o, ho⟩ := s.fetched.exists_operand? hoperand
  obtain ⟨value, hcomputes, hwritten⟩ := s.outcome_computes harithmetic (s.read o.address)
  have hstep := stepInstruction_on hpending hhalted hbound he ho (fun _ _ => rfl)
  refine ⟨o.address, value, _, ?_, hstep, ?_, ?_⟩
  · rw [dataAddress?_eq, ho]
    rfl
  · exact ⟨hcomputes.value_eq, hcomputes.x_eq, hcomputes.y_eq, hcomputes.sp_eq, hcomputes.adds,
      hcomputes.subtracts, hcomputes.compares⟩
  · change Bus.writeBack s.bus o.address (s.outcome b (s.read o.address)).2 = _
    rw [hwritten]
    split <;> rfl

/-- A processor in decimal mode before `RRA $10`.  Halving the byte there moves the carry of the
addition out of it. -/
def fusedAddition : Cpu (AddressSpace (Ram 2)) where
  a := 0x7E
  pc := 0x0200
  flags := { decimal := true }
  bus := ⟨#[⟨⟨"data", 0x0010, 0x0011⟩, ⟨#v[0x03, 0x00]⟩⟩,
    ⟨⟨"code", 0x0200, 0x0201⟩, ⟨#v[0x67, 0x10]⟩⟩]⟩

/-- In binary, `$7E + $01 + 1` is `$80`, which overflows and does not carry. -/
theorem stepInstruction_computes_fusedAddition :
    fusedAddition.pending = 0 ∧ fusedAddition.halted = false ∧
      Opcode.binding? fusedAddition.opcode = some ⟨.rra, .zeroPage, 5, true⟩ ∧
      Operation.isArithmetic .rra = true ∧
      ∃ t, fusedAddition.stepInstruction = .ok (5, t) ∧ t.read 0x0010 = 0x01 ∧ t.a = 0x80 ∧
        t.flags.overflow = true ∧ t.flags.carry = false := by
  have hbound : Opcode.binding? fusedAddition.opcode = some ⟨.rra, .zeroPage, 5, true⟩ := by
    decide +kernel
  obtain ⟨address, value, t, hdata, hstep, hcomputes, hbus⟩ :=
    fusedAddition.stepInstruction_computes rfl rfl hbound rfl
  obtain rfl : address = 0x0010 := by
    have haddress : fusedAddition.dataAddress? .zeroPage = some 0x0010 := by
      decide +kernel
    exact UInt16.toNat_inj.mp (Option.some.inj (hdata.symm.trans haddress))
  have hcell : fusedAddition.read 0x0010 = 0x03 := by
    decide +kernel
  have hvalue := hcomputes.value_eq
  have hadds := hcomputes.adds rfl
  rw [hcell] at hvalue hadds
  obtain rfl : value = 0x01 := UInt8.toNat_inj.mp hvalue
  refine ⟨rfl, rfl, hbound, rfl, t, hstep, ?_, ?_, ?_, ?_⟩
  · rw [read, hbus]
    decide +kernel
  · exact UInt8.toNat_inj.mp hadds.sum_eq
  · rw [hadds.overflow_iff, Set.mem_Icc]
    decide
  · rw [← Bool.not_eq_true, hadds.carry_iff]
    decide

end Cpu

end ChipScore
