import Mathlib.Tactic
import ChipScore.Bus.AddressSpace
import ChipScore.Bus.Ram
import ChipScore.Proofs.Cpu.Ticks
import ChipScore.Proofs.Opcode.WellFormed

/-!
# The cost of an instruction

`Cpu.cost` is what an instruction costs, read off the operation, the addressing mode and the state
before the instruction: the base cost, one more for an indexed read that leaves the page of its
base address, and one or two more for a taken branch.  Which operations pay for crossing a page is
a list of eleven (`Operation.paysForCrossing`); stores, changes of memory and the fused operations
are not on it.

The processor itself says this by effects, not by operations.  `Cpu.surcharge` is the penalty of an
effect, `perform_pending` shows that carrying the effect out leaves the base cost and that penalty
pending, and `cost_eq` identifies the two descriptions.
-/

namespace ChipScore

/-- The operations that pay a cycle when indexing moves their operand to another page. -/
def Operation.paysForCrossing (operation : Operation) : Bool :=
  operation ∈ [.adc, .and, .cmp, .eor, .lda, .ldx, .ldy, .ora, .sbc, .lax, .nop]

namespace Cpu

variable {β : Type}

/-- Putting a byte into a register takes no cycle by itself. -/
@[simp] lemma put_cycles (s : Cpu β) (r : Register) (value : UInt8) :
    (s.put r value).cycles = s.cycles := by
  cases r <;> rfl

/-- Loading a byte takes no cycle by itself. -/
@[simp] lemma load_cycles (s : Cpu β) (d : DataRegister) (value : UInt8) :
    (s.load d value).cycles = s.cycles := by
  cases d <;> rfl

/-- The processor after it has fetched an opcode. -/
def fetched (s : Cpu β) : Cpu β :=
  { s with pc := s.pc + 1 }

/-- Whether the instruction at the program counter, with a given operation, is a branch whose
condition holds. -/
def takes (s : Cpu β) : Operation → Bool
  | .bpl => !s.flags.negative
  | .bmi => s.flags.negative
  | .bvc => !s.flags.overflow
  | .bvs => s.flags.overflow
  | .bcc => !s.flags.carry
  | .bcs => s.flags.carry
  | .bne => !s.flags.zero
  | .beq => s.flags.zero
  | _ => false

variable [Bus β]

/-- The base address and the index of the instruction at the program counter, in the modes that
add an index to an address of sixteen bits. -/
def indexing? (s : Cpu β) : AddressingMode → Option (UInt16 × UInt8)
  | .absoluteX => some (Bus.readWord s.bus (s.pc + 1), s.x)
  | .absoluteY => some (Bus.readWord s.bus (s.pc + 1), s.y)
  | .indirectY => some (s.pointer (s.read (s.pc + 1)), s.y)
  | _ => none

/-- Whether indexing moves the operand of the instruction at the program counter to another
page than the base address. -/
def crosses (s : Cpu β) (mode : AddressingMode) : Bool :=
  match s.indexing? mode with
  | some (base, index) => !Word.samePage base (base + index.toUInt16)
  | none => false

/-- Where the branch at the program counter goes. -/
def branchTarget (s : Cpu β) : UInt16 :=
  s.pc + 2 + Word.ofSigned (s.read (s.pc + 1))

/-- What the instruction at the program counter costs.  A taken branch is compared with the
instruction behind it, two bytes on. -/
def cost (s : Cpu β) (b : Binding) : Nat :=
  if b.operation.paysForCrossing && s.crosses b.mode then b.cycles + 1
  else if s.takes b.operation then
    if Word.samePage (s.pc + 2) s.branchTarget then b.cycles + 1 else b.cycles + 2
  else b.cycles

/-- What an effect costs beyond the base cost of the instruction at the program counter. -/
def surcharge (s : Cpu β) (mode : AddressingMode) : Effect → Nat
  | .branch f value =>
    if s.flags.get f == value then
      if Word.samePage (s.pc + 2) s.branchTarget then 1 else 2
    else 0
  | effect => if effect.paysForCrossing && s.crosses mode then 1 else 0

/-! ### Operands and pages -/

/-- A mode has an operand exactly when it names a byte in memory. -/
lemma isSome_operand? (s : Cpu β) (mode : AddressingMode) :
    (s.operand? mode).isSome = mode.hasOperand := by
  cases mode <;> rfl

/-- A mode that names a byte in memory has an operand. -/
lemma exists_operand? (s : Cpu β) {mode : AddressingMode} (h : mode.hasOperand = true) :
    ∃ o, s.operand? mode = some o := by
  rw [← s.isSome_operand? mode] at h
  exact Option.isSome_iff_exists.mp h

/-- The operand of a fetched instruction lies on another page exactly when indexing crosses. -/
lemma crossed_of_operand?_fetched (s : Cpu β) {mode : AddressingMode} {o : Operand}
    (h : s.fetched.operand? mode = some o) : o.crossed = s.crosses mode := by
  cases mode with
  | implicit | accumulator | relative | indirect => cases h
  | _ =>
    obtain rfl := Option.some.inj h
    rfl

/-- The penalty of an operand is one cycle for crossing a page. -/
lemma penalty_of_operand?_fetched (s : Cpu β) {mode : AddressingMode} {o : Operand}
    (h : s.fetched.operand? mode = some o) :
    o.penalty = if s.crosses mode = true then 1 else 0 := by
  rw [Operand.penalty, s.crossed_of_operand?_fetched h]

/-- Only the indexed modes can cross a page. -/
lemma isIndexed_of_crosses (s : Cpu β) {mode : AddressingMode} (h : s.crosses mode = true) :
    mode.isIndexed = true := by
  cases mode with
  | absoluteX | absoluteY | indirectY => rfl
  | _ => cases h

/-- A mode without an operand crosses no page. -/
lemma crosses_of_operand?_eq_none (s : Cpu β) {mode : AddressingMode}
    (h : s.fetched.operand? mode = none) : s.crosses mode = false := by
  cases mode with
  | implicit | accumulator | relative | indirect => rfl
  | _ => cases h

/-! ### What an effect leaves pending -/

/-- Carrying out an effect spends no cycles yet. -/
lemma perform_cycles (s : Cpu β) (b : Binding) (e : Effect) :
    (s.perform b e).cycles = s.cycles := by
  cases e with
  | combine | compareRegister | testBits | load | store | modify | modifyCombine | idle =>
    rw [perform]
    cases s.operand? b.mode <;> simp [spend, skipOperand, combine, write, modifyAt]
  | modifyRegister => simp [perform, putDescribed, spend]
  | transfer source target => cases target <;> rfl
  | branch f value =>
    rw [perform, branch]
    split <;> rfl
  | _ => rfl

/-- An effect leaves the base cost of its instruction and its surcharge pending. -/
lemma perform_pending (s : Cpu β) {b : Binding} {e : Effect} (h : e.fits b.mode = true) :
    (s.fetched.perform b e).pending = b.cycles + s.surcharge b.mode e := by
  cases e with
  | combine | load =>
    obtain ⟨o, ho⟩ := s.fetched.exists_operand? h
    simp [perform, ho, spend, surcharge, Effect.paysForCrossing, s.penalty_of_operand?_fetched ho]
  | compareRegister | testBits | store | modifyCombine =>
    obtain ⟨o, ho⟩ := s.fetched.exists_operand? h
    simp [perform, ho, spend, surcharge, Effect.paysForCrossing]
  | modify =>
    rw [perform]
    split <;> simp [spend, surcharge, Effect.paysForCrossing]
  | idle =>
    rw [perform]
    split
    case h_1 o ho =>
      simp [spend, surcharge, Effect.paysForCrossing, s.penalty_of_operand?_fetched ho]
    case h_2 hnone =>
      simp [spend, surcharge, s.crosses_of_operand?_eq_none hnone]
  | branch f value =>
    have hnext : s.fetched.pc + 1 = s.pc + 2 := by
      change s.pc + 1 + 1 = s.pc + 2
      rw [UInt16.add_assoc]
      rfl
    have htarget : s.pc + 2 + Word.ofSigned s.fetched.operandByte = s.branchTarget := rfl
    simp only [perform, branch, surcharge, hnext, htarget]
    change (if (s.flags.get f == value) = true then _ else _ : Cpu β).pending = _
    split_ifs <;> rfl
  | transfer source target => cases target <;> rfl
  | _ => rfl

/-- The surcharge of an effect stays below the bound of its mode. -/
lemma surcharge_le (s : Cpu β) (mode : AddressingMode) (e : Effect) :
    s.surcharge mode e ≤ e.surchargeBound mode := by
  cases e with
  | branch f value =>
    rw [surcharge, Effect.surchargeBound]
    split_ifs <;> omega
  | _ =>
    have hindexed : s.crosses mode = true → mode.isIndexed = true := s.isIndexed_of_crosses
    simp only [surcharge, Effect.surchargeBound]
    split_ifs <;> simp_all

/-- The cost of an instruction is its base cost and the surcharge of its effect. -/
lemma cost_eq (s : Cpu β) (b : Binding) :
    s.cost b = b.cycles + s.surcharge b.mode b.operation.effect := by
  cases hop : b.operation <;>
    simp [cost, surcharge, hop, Operation.effect, Operation.paysForCrossing,
      Effect.paysForCrossing, takes, Flags.get, apply_ite (b.cycles + ·)]

/-! ### Dispatching an instruction -/

/-- A bound opcode is no fault. -/
lemma fault?_of_binding? {s : Cpu β} {b : Binding} (h : Opcode.binding? s.opcode = some b) :
    s.fault? = none := by
  simp [fault?, h]

/-- Dispatching a bound opcode carries out its effect behind the opcode. -/
lemma dispatch_of_binding? {s : Cpu β} {b : Binding} (h : Opcode.binding? s.opcode = some b) :
    s.dispatch = s.fetched.perform b b.operation.effect := by
  simp only [dispatch, h]
  rfl

/-- Dispatching spends no cycles yet. -/
lemma dispatch_cycles (s : Cpu β) : s.dispatch.cycles = s.cycles := by
  rw [dispatch]
  split
  · exact perform_cycles _ _ _
  · rfl

/-- A tick counts one cycle, whether it dispatches or not. -/
lemma tick_cycles (s : Cpu β) : s.tick.cycles = s.cycles + 1 := by
  unfold tick
  split
  · exact congrArg (· + 1) s.dispatch_cycles
  · rfl

/-- Dispatching a bound opcode leaves the cost of its instruction pending. -/
lemma dispatch_pending_of_binding? {s : Cpu β} {b : Binding}
    (h : Opcode.binding? s.opcode = some b) : s.dispatch.pending = s.cost b := by
  rw [dispatch_of_binding? h, s.cost_eq, s.perform_pending (wellFormed_of_binding? h).fits]

/-- Dispatching leaves between one and eight cycles pending. -/
lemma dispatch_pending_bounds (s : Cpu β) :
    0 < s.dispatch.pending ∧ s.dispatch.pending ≤ 8 := by
  cases hb : Opcode.binding? s.opcode with
  | none => simp [dispatch, hb]
  | some b =>
    have hpos := (wellFormed_of_binding? hb).cycles_pos
    have hle := (wellFormed_of_binding? hb).cost_le
    have hsurcharge := s.surcharge_le b.mode b.operation.effect
    rw [dispatch_pending_of_binding? hb, s.cost_eq]
    omega

/-- Between instructions, a step carries out the effect of the bound opcode and spends its cost. -/
lemma stepInstruction_eq_perform {s : Cpu β} {b : Binding} (hpending : s.pending = 0)
    (hhalted : s.halted = false) (hbound : Opcode.binding? s.opcode = some b) :
    s.stepInstruction = .ok (s.cost b,
      { s.fetched.perform b b.operation.effect with
        pending := 0, cycles := s.cycles + s.cost b }) := by
  have hstep := stepInstruction_of_dispatches (dispatches_of_idle hpending hhalted)
    (fault?_of_binding? hbound) s.dispatch_pending_bounds.1
  rwa [dispatch_pending_of_binding? hbound, dispatch_cycles, dispatch_of_binding? hbound] at hstep

/-- **Cycle exactness.**  Between instructions, a processor that is not halted carries out the
bound opcode at its program counter without a fault, and spends exactly `Cpu.cost` on it. -/
theorem stepInstruction_cost (s : Cpu β) {b : Binding} (hpending : s.pending = 0)
    (hhalted : s.halted = false) (hbound : Opcode.binding? s.opcode = some b) :
    ∃ t, s.stepInstruction = .ok (s.cost b, t) ∧ t.cycles = s.cycles + s.cost b := by
  have hcost : s.dispatch.pending = s.cost b := dispatch_pending_of_binding? hbound
  have hstep := stepInstruction_of_dispatches (dispatches_of_idle hpending hhalted)
    (fault?_of_binding? hbound) s.dispatch_pending_bounds.1
  rw [hcost] at hstep
  exact ⟨_, hstep, by rw [dispatch_cycles]⟩

/-- A processor at the last address, before `LDA $02FF,X` with an index of one; the operand bytes
lie at the first two addresses. -/
def wrappingLoad : Cpu (AddressSpace (Ram 2)) where
  x := 1
  pc := 0xFFFF
  bus := ⟨#[⟨⟨"low", 0x0000, 0x0001⟩, ⟨#v[0xFF, 0x02]⟩⟩,
    ⟨⟨"high", 0xFFFF, 0xFFFF⟩, ⟨#v[0xBD, 0x00]⟩⟩]⟩

/-- Crossing a page costs the load its fifth cycle, although its own bytes lie on both ends of the
memory. -/
theorem stepInstruction_cost_wrappingLoad :
    wrappingLoad.pending = 0 ∧ wrappingLoad.halted = false ∧
      Opcode.binding? wrappingLoad.opcode = some ⟨.lda, .absoluteX, 4, false⟩ ∧
      ∃ t, wrappingLoad.stepInstruction = .ok (5, t) ∧ t.cycles = 5 := by
  have hbound : Opcode.binding? wrappingLoad.opcode = some ⟨.lda, .absoluteX, 4, false⟩ := by
    decide +kernel
  have hcost : wrappingLoad.cost ⟨.lda, .absoluteX, 4, false⟩ = 5 := by
    decide +kernel
  have hstep := wrappingLoad.stepInstruction_cost rfl rfl hbound
  rw [hcost] at hstep
  exact ⟨rfl, rfl, hbound, hstep⟩

end Cpu

end ChipScore
