import Mathlib.Tactic
import ChipScore.Opcode.Table
import ChipScore.Proofs.Word

/-!
# Well-formed bindings

The opcode table binds an opcode to an effect and an addressing mode, and not every effect can be
carried out in every mode: `Effect.fits` says which can.  An effect and a mode also decide how much
an instruction can pay beyond its base cost, which is `Effect.surchargeBound`.

`Binding.WellFormed` collects what the processor relies on: the mode suits the effect, an
instruction costs at least one cycle, and with every penalty it costs at most eight.  The table
binds opcodes to well-formed bindings only (`wellFormed_of_binding?`).
-/

namespace ChipScore

/-- Whether a mode names a byte in memory. -/
def AddressingMode.hasOperand : AddressingMode → Bool
  | .implicit | .accumulator | .relative | .indirect => false
  | _ => true

/-- Whether a mode adds an index to a base address of sixteen bits. -/
def AddressingMode.isIndexed : AddressingMode → Bool
  | .absoluteX | .absoluteY | .indirectY => true
  | _ => false

namespace Effect

/-- Whether an effect can be carried out in an addressing mode. -/
def fits : Effect → AddressingMode → Bool
  | combine _, mode | compareRegister _, mode | testBits, mode | load _, mode | store _, mode
  | modifyCombine _ _, mode => mode.hasOperand
  | modify _, mode => mode.hasOperand || mode == .accumulator
  | idle, mode => mode.hasOperand || mode == .implicit
  | branch _ _, mode => mode == .relative
  | jump, mode => mode == .absolute || mode == .indirect
  | call, mode => mode == .absolute
  | _, mode => mode == .implicit

/-- Whether an effect pays for reading its operand from another page than the base address. -/
def paysForCrossing : Effect → Bool
  | combine _ | load _ | idle => true
  | _ => false

/-- The most cycles that an effect can cost beyond the base cost of its instruction. -/
def surchargeBound : Effect → AddressingMode → Nat
  | branch _ _, _ => 2
  | effect, mode => if effect.paysForCrossing && mode.isIndexed then 1 else 0

end Effect

/-- What the processor relies on in a binding. -/
structure Binding.WellFormed (b : Binding) : Prop where
  /-- The effect can be carried out in the mode. -/
  fits : b.operation.effect.fits b.mode = true
  /-- The instruction takes time. -/
  cycles_pos : 0 < b.cycles
  /-- The instruction takes at most eight cycles, penalties included. -/
  cost_le : b.cycles + b.operation.effect.surchargeBound b.mode ≤ 8

instance (b : Binding) : Decidable b.WellFormed :=
  decidable_of_iff
    (b.operation.effect.fits b.mode = true ∧ 0 < b.cycles ∧
      b.cycles + b.operation.effect.surchargeBound b.mode ≤ 8)
    ⟨fun ⟨h, h', h''⟩ => ⟨h, h', h''⟩, fun ⟨h, h', h''⟩ => ⟨h, h', h''⟩⟩

/-- An opcode is bound to a well-formed binding or to nothing. -/
lemma wellFormed_of_binding? {opcode : UInt8} {b : Binding}
    (h : Opcode.binding? opcode = some b) : b.WellFormed := by
  have htable : ∀ opcode, ∀ b ∈ Opcode.binding? opcode, b.WellFormed :=
    forall_byte_of_forall_lt (by decide +kernel)
  exact htable opcode b h

end ChipScore
