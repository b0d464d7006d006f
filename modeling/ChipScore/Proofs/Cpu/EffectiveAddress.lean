import Mathlib.Tactic
import ChipScore.Bus.AddressSpace
import ChipScore.Bus.Ram
import ChipScore.Proofs.Cpu.Cost
import ChipScore.Proofs.Disassembly.Execution

/-!
# Effective addresses

`Cpu.dataAddress?` is the address of the data of an instruction, in numbers: how an addressing mode
puts it together from the operand bytes, the index registers and page zero, and where it wraps.

That an instruction looks at one address, and writes to no other, is a statement about what becomes
of it on other buses.  `Cpu.lookups` are the addresses from which an instruction is fetched and its
data address is computed.  On every bus that holds the same bytes there, the instruction does the
same thing with whatever byte it finds at its data address (`perform_eq_act`): what it leaves in the
processor, and what it writes back to that address, if anything, are functions of that byte.
-/

namespace ChipScore

namespace Operation

/-- The operations that write registers to memory. -/
def isStore (operation : Operation) : Bool :=
  operation ∈ [.sta, .stx, .sty, .sax]

/-- The operations that change a byte of memory, in the modes that have one. -/
def isModification (operation : Operation) : Bool :=
  operation ∈ [.asl, .lsr, .rol, .ror, .inc, .dec, .slo, .rla, .sre, .rra, .dcp, .isc]

end Operation

namespace Effect

/-- Whether an effect has to do with a byte at the address of its operand. -/
def usesData : Effect → Bool
  | combine _ | compareRegister _ | testBits | load _ | store _ | modify _ | modifyCombine _ _
  | idle => true
  | _ => false

/-- Whether an effect writes the byte at the address of its operand without reading it. -/
def isStore : Effect → Bool
  | store _ => true
  | _ => false

/-- Whether an effect changes the byte at the address of its operand. -/
def isModification : Effect → Bool
  | modify _ | modifyCombine _ _ => true
  | _ => false

end Effect

/-- The effect of an operation stores just if the operation is one of the stores. -/
lemma Operation.isStore_effect (operation : Operation) :
    operation.effect.isStore = operation.isStore := by
  cases operation <;> rfl

/-- The effect of an operation changes a byte just if the operation is one of those that do. -/
lemma Operation.isModification_effect (operation : Operation) :
    operation.effect.isModification = operation.isModification := by
  cases operation <;> rfl

/-- In a mode with an operand in memory, everything but a jump and a call uses the byte there. -/
lemma Binding.WellFormed.usesData {b : Binding} (h : b.WellFormed)
    (hoperand : b.mode.hasOperand = true) (hjmp : b.operation ≠ .jmp) (hjsr : b.operation ≠ .jsr) :
    b.operation.effect.usesData = true := by
  have hfits := h.fits
  have hrelative : b.mode ≠ .relative := by
    intro hmode
    rw [hmode] at hoperand
    cases hoperand
  have himplicit : b.mode ≠ .implicit := by
    intro hmode
    rw [hmode] at hoperand
    cases hoperand
  cases hoperation : b.operation <;>
    simp_all [Operation.effect, Effect.usesData, Effect.fits]

/-- The bus after a byte is written back at an address, if there is one to be written. -/
def Bus.writeBack {β : Type} [Bus β] (bus : β) (address : UInt16) : Option UInt8 → β
  | some value => write bus address value
  | none => bus

namespace Cpu

/-- A processor on another bus. -/
def on {α β : Type} (s : Cpu α) (bus : β) : Cpu β :=
  { s with bus := bus }

variable {β : Type} [Bus β]

/-- The byte in a cell of page zero, as a number; the number of the cell wraps within the page. -/
def zeroPageByte (s : Cpu β) (n : Nat) : Nat :=
  (s.read (UInt16.ofNat (n % 256))).toNat

/-- The address of the data of the instruction at the program counter.  The operand bytes lie behind
the opcode. -/
def dataAddress? (s : Cpu β) (mode : AddressingMode) : Option Nat :=
  let first := (s.read (s.pc + 1)).toNat
  let second := (s.read (s.pc + 2)).toNat
  match mode with
  | .immediate => some ((s.pc.toNat + 1) % 65536)
  | .zeroPage => some first
  | .zeroPageX => some ((first + s.x.toNat) % 256)
  | .zeroPageY => some ((first + s.y.toNat) % 256)
  | .absolute => some (256 * second + first)
  | .absoluteX => some ((256 * second + first + s.x.toNat) % 65536)
  | .absoluteY => some ((256 * second + first + s.y.toNat) % 65536)
  | .indirectX =>
    let cell := first + s.x.toNat
    some (256 * s.zeroPageByte (cell + 1) + s.zeroPageByte cell)
  | .indirectY =>
    some ((256 * s.zeroPageByte (first + 1) + s.zeroPageByte first + s.y.toNat) % 65536)
  | .implicit | .accumulator | .relative | .indirect => none

/-- The cells of page zero that hold the address of the data, or the address it is indexed from. -/
def pointerCells (s : Cpu β) : AddressingMode → List UInt8
  | .indirectX => [s.read (s.pc + 1) + s.x, s.read (s.pc + 1) + s.x + 1]
  | .indirectY => [s.read (s.pc + 1), s.read (s.pc + 1) + 1]
  | _ => []

/-- The addresses that are looked up before the data of the instruction at the program counter: the
instruction itself, and the cells of its pointer. -/
def lookups (s : Cpu β) (b : Binding) : List UInt16 :=
  [s.pc, s.pc + 1, s.pc + 2].take b.size ++ (s.pointerCells b.mode).map UInt8.toUInt16

/-- Every instruction looks up its own opcode. -/
lemma pc_mem_lookups (s : Cpu β) (b : Binding) : s.pc ∈ s.lookups b := by
  have hopcode : s.pc ∈ [s.pc, s.pc + 1, s.pc + 2].take b.size := by
    rw [Binding.size, Nat.add_comm, List.take_succ_cons]
    exact List.mem_cons_self
  exact List.mem_append_left _ hopcode

/-! ### Where the operand lies -/

/-- Once the opcode is fetched, the operand byte is the one behind it. -/
lemma fetched_operandByte (s : Cpu β) : s.fetched.operandByte = s.read (s.pc + 1) :=
  rfl

/-- A pointer in page zero is read from two cells, the second of which may be the first one of the
page. -/
lemma toNat_pointer (s : Cpu β) {cell : UInt8} {n : Nat} (h : cell.toNat = n % 256) :
    (s.pointer cell).toNat = 256 * s.zeroPageByte (n + 1) + s.zeroPageByte n := by
  have hcell : cell.toUInt16 = UInt16.ofNat (n % 256) := by
    rw [← UInt16.toNat_inj, UInt8.toNat_toUInt16, UInt16.toNat_ofNat', h]
    omega
  have hnext : (cell + 1).toUInt16 = UInt16.ofNat ((n + 1) % 256) := by
    rw [← UInt16.toNat_inj, UInt8.toNat_toUInt16, UInt16.toNat_ofNat', UInt8.toNat_add, h]
    change (n % 256 + 1) % 256 = _
    omega
  rw [pointer, Word.toNat_ofBytes, hcell, hnext]
  rfl

/-- An index is added to a base modulo the number of addresses. -/
lemma toNat_indexed (base : UInt16) (index : UInt8) :
    (Operand.indexed base index).address.toNat = (base.toNat + index.toNat) % 65536 := by
  change (base + index.toUInt16).toNat = _
  rw [UInt16.toNat_add, UInt8.toNat_toUInt16]

/-- The operand of a fetched instruction lies at the address of its data. -/
lemma dataAddress?_eq (s : Cpu β) (mode : AddressingMode) :
    s.dataAddress? mode = (s.fetched.operand? mode).map fun o => o.address.toNat := by
  have hword : s.fetched.operandWord.toNat =
      256 * (s.read (s.pc + 2)).toNat + (s.read (s.pc + 1)).toNat := by
    rw [fetched_operandWord, Word.toNat_ofBytes]
  have hbyte := (s.read (s.pc + 1)).toNat_lt
  cases mode with
  | implicit | accumulator | relative | indirect => rfl
  | immediate => exact congrArg some (UInt16.toNat_add s.pc 1).symm
  | zeroPage => exact congrArg some (UInt8.toNat_toUInt16 _).symm
  | zeroPageX | zeroPageY =>
    refine congrArg some (Eq.symm ?_)
    exact (UInt8.toNat_toUInt16 _).trans (UInt8.toNat_add _ _)
  | absolute => exact congrArg some hword.symm
  | absoluteX | absoluteY =>
    refine congrArg some (Eq.symm ?_)
    exact (toNat_indexed _ _).trans (by rw [hword]; rfl)
  | indirectX =>
    exact congrArg some (s.fetched.toNat_pointer (UInt8.toNat_add _ _)).symm
  | indirectY =>
    refine congrArg some (Eq.symm ?_)
    refine (toNat_indexed _ _).trans ?_
    rw [fetched_operandByte, s.fetched.toNat_pointer (Nat.mod_eq_of_lt hbyte).symm]
    rfl

/-- A bus that holds the same bytes at the addresses that are looked up has the operand at the same
place. -/
lemma operand?_congr {γ : Type} [Bus γ] {s : Cpu β} {b : Binding} {bus : γ}
    (h : ∀ address ∈ s.lookups b, Bus.read bus address = s.read address) :
    (s.on bus).fetched.operand? b.mode = s.fetched.operand? b.mode := by
  obtain ⟨hcode, hcells⟩ :
      (∀ address ∈ [s.pc, s.pc + 1, s.pc + 2].take b.size, Bus.read bus address = s.read address) ∧
        ∀ cell ∈ s.pointerCells b.mode, Bus.read bus cell.toUInt16 = s.read cell.toUInt16 := by
    simpa [lookups, or_imp, forall_and] using h
  have hbyte (hsize : b.mode.operandBytes = 1) :
      (s.on bus).fetched.operandByte = s.fetched.operandByte :=
    hcode (s.pc + 1) (by simp [Binding.size, hsize])
  have hword (hsize : b.mode.operandBytes = 2) :
      (s.on bus).fetched.operandWord = s.fetched.operandWord := by
    rw [fetched_operandWord, fetched_operandWord]
    refine congrArg₂ Word.ofBytes (hcode (s.pc + 1) ?_) (hcode (s.pc + 2) ?_) <;>
      simp [Binding.size, hsize]
  have hpointer (cell : UInt8) (hlow : cell ∈ s.pointerCells b.mode)
      (hhigh : cell + 1 ∈ s.pointerCells b.mode) :
      (s.on bus).pointer cell = s.pointer cell :=
    congrArg₂ Word.ofBytes (hcells cell hlow) (hcells (cell + 1) hhigh)
  -- a mode looks at its own operand bytes and, if it is indirect, at the cells of its pointer
  cases hmode : b.mode with
  | implicit | accumulator | relative | indirect | immediate => rfl
  | zeroPage => simp only [operand?, hbyte (by rw [hmode]; rfl)]
  | absolute => simp only [operand?, hword (by rw [hmode]; rfl)]
  | zeroPageX | zeroPageY =>
    simp only [operand?, hbyte (by rw [hmode]; rfl)]
    rfl
  | absoluteX | absoluteY =>
    simp only [operand?, hword (by rw [hmode]; rfl)]
    rfl
  | indirectX =>
    have hcell := hpointer (s.read (s.pc + 1) + s.x) (by simp [hmode, pointerCells])
      (by simp [hmode, pointerCells])
    simp only [operand?, hbyte (by rw [hmode]; rfl)]
    exact congrArg (fun address => some (Operand.direct address)) hcell
  | indirectY =>
    have hcell := hpointer (s.read (s.pc + 1)) (by simp [hmode, pointerCells])
      (by simp [hmode, pointerCells])
    simp only [operand?, hbyte (by rw [hmode]; rfl)]
    exact congrArg (fun address => some (Operand.indexed address s.y)) hcell

/-! ### What an instruction does with its data -/

/-- What an effect with an operand in memory makes of the byte there: what it leaves in the processor,
apart from the cost, and the byte that it writes back, if any. -/
def act (s : Cpu Unit) (b : Binding) (value : UInt8) : Effect → Cpu Unit × Option UInt8
  | .combine c => ((s.skipOperand b.mode).combine c value, none)
  | .compareRegister r =>
    ({ s.skipOperand b.mode with flags := s.flags.compare (s.get r) value }, none)
  | .testBits => ({ s.skipOperand b.mode with flags := s.flags.testBits s.a value }, none)
  | .load d => ((s.skipOperand b.mode).load d value, none)
  | .store d => (s.skipOperand b.mode, some (s.driven d))
  | .modify m =>
    let (result, flags) := m.apply s.flags value
    ({ s.skipOperand b.mode with flags := flags }, some result)
  | .modifyCombine m c =>
    let (result, flags) := m.apply s.flags value
    let (a, flags) := c.apply flags s.a result
    ({ s.skipOperand b.mode with a := a, flags := flags }, some result)
  | .idle => (s.skipOperand b.mode, none)
  | _ => (s, none)

/-- What the instruction at the program counter makes of the byte at its data address. -/
def outcome (s : Cpu β) (b : Binding) (value : UInt8) : Cpu Unit × Option UInt8 :=
  (s.fetched.on ()).act b value b.operation.effect

/-- A byte is written back by stores and by changes of memory, and by nothing else. -/
lemma act_isSome (s : Cpu Unit) (b : Binding) (value : UInt8) (e : Effect) :
    (s.act b value e).2.isSome = (e.isStore || e.isModification) := by
  cases e <;> rfl

/-- A store does not depend on the byte that it replaces. -/
lemma act_of_isStore (s : Cpu Unit) (b : Binding) (value other : UInt8) {e : Effect}
    (he : e.isStore = true) : s.act b value e = s.act b other e := by
  cases e with
  | store d => rfl
  | _ => cases he

/-- An effect with an operand in memory acts on the byte there and has nothing else to do with the
bus. -/
lemma perform_eq_act (s : Cpu β) (b : Binding) {e : Effect} {o : Operand} (he : e.usesData = true)
    (ho : s.operand? b.mode = some o) :
    let out := (s.on ()).act b (s.read o.address) e
    s.perform b e =
      (out.1.on (Bus.writeBack s.bus o.address out.2)).spend (s.perform b e).pending := by
  intro out
  cases e with
  | load d =>
    simp only [perform, ho]
    cases d <;> rfl
  | combine | compareRegister | testBits | store | modify | modifyCombine | idle =>
    simp only [perform, ho]
    rfl
  | _ => cases he

/-- What an instruction with data costs, from its operand. -/
lemma cost_of_operand? (s : Cpu β) {b : Binding} {o : Operand}
    (he : b.operation.effect.usesData = true) (ho : s.fetched.operand? b.mode = some o) :
    s.cost b = b.cycles + if b.operation.effect.paysForCrossing then o.penalty else 0 := by
  rw [cost_eq, s.penalty_of_operand?_fetched ho]
  cases heffect : b.operation.effect <;>
    simp_all [surcharge, Effect.usesData, Effect.paysForCrossing]

/-- Between instructions, an instruction with data acts on the byte at its data address, on every bus
that holds the same bytes at the addresses that are looked up before. -/
lemma stepInstruction_on {γ : Type} [Bus γ] {s : Cpu β} {b : Binding} {o : Operand} {bus : γ}
    (hpending : s.pending = 0) (hhalted : s.halted = false)
    (hbound : Opcode.binding? s.opcode = some b) (he : b.operation.effect.usesData = true)
    (ho : s.fetched.operand? b.mode = some o)
    (hsame : ∀ address ∈ s.lookups b, Bus.read bus address = s.read address) :
    let out := s.outcome b (Bus.read bus o.address)
    (s.on bus).stepInstruction = .ok (s.cost b,
      { out.1.on (Bus.writeBack bus o.address out.2) with
        pending := 0, cycles := s.cycles + s.cost b }) := by
  intro out
  have hopcode : Opcode.binding? (s.on bus).opcode = some b := by
    have hfetch : (s.on bus).opcode = s.opcode := hsame s.pc (s.pc_mem_lookups b)
    rw [hfetch, hbound]
  have hoperand : (s.on bus).fetched.operand? b.mode = some o := by
    rw [operand?_congr hsame, ho]
  have hcost : (s.on bus).cost b = s.cost b := by
    rw [cost_of_operand? _ he hoperand, cost_of_operand? _ he ho]
  have hidle : (s.on bus).pending = 0 := hpending
  have hstep := stepInstruction_eq_perform hidle hhalted hopcode
  rw [hcost, perform_eq_act _ b he hoperand] at hstep
  exact hstep

/-- The program counter after an indirect jump.  Both bytes of the target come from one page. -/
lemma toNat_jumpTarget_indirect (s : Cpu β) :
    let first := (s.read (s.pc + 1)).toNat
    let second := (s.read (s.pc + 2)).toNat
    (s.fetched.jumpTarget .indirect).toNat =
      256 * (s.read (UInt16.ofNat (256 * second + (first + 1) % 256))).toNat +
        (s.read (UInt16.ofNat (256 * second + first))).toNat := by
  intro first second
  have hlow : s.fetched.operandWord = UInt16.ofNat (256 * second + first) := by
    rw [fetched_operandWord, ← Word.toNat_ofBytes, UInt16.ofNat_toNat]
  have hhigh : Word.ofBytes (s.read (s.pc + 1) + 1) (s.read (s.pc + 2)) =
      UInt16.ofNat (256 * second + (first + 1) % 256) := by
    have hnext : (s.read (s.pc + 1) + 1).toNat = (first + 1) % 256 := UInt8.toNat_add _ _
    rw [← hnext, ← Word.toNat_ofBytes, UInt16.ofNat_toNat]
  rw [← hlow, ← hhigh, ← Word.toNat_ofBytes, fetched_operandWord, jumpTarget]
  simp only [fetched_operandWord, Word.low_ofBytes, Word.high_ofBytes]
  rfl

/-- **Effective addresses.**  Let the processor stand between instructions, before a bound opcode.

* If its mode has data and it is neither a jump nor a call, there is one address of data, and it is
  `Cpu.dataAddress?`.  On every bus that holds the same bytes where the instruction and its pointer
  are looked up, the step succeeds and leaves what `Cpu.outcome` makes of the byte at that address;
  the bus is left as it is but for the byte that is written back there.  The stores and the changes
  of memory write one; the stores do not look at the byte before.
* An indirect jump takes its target from the cell that its operand names and from the next one in the
  same page. -/
theorem stepInstruction_uses_dataAddress (s : Cpu β) {b : Binding} (hpending : s.pending = 0)
    (hhalted : s.halted = false) (hbound : Opcode.binding? s.opcode = some b) :
    (b.mode.hasOperand = true → b.operation ≠ .jmp → b.operation ≠ .jsr →
      ∃ address : UInt16, s.dataAddress? b.mode = some address.toNat ∧
        (∀ {γ : Type} [Bus γ] (bus : γ),
          (∀ looked ∈ s.lookups b, Bus.read bus looked = s.read looked) →
          let out := s.outcome b (Bus.read bus address)
          (s.on bus).stepInstruction = .ok (s.cost b,
            { out.1.on (Bus.writeBack bus address out.2) with
              pending := 0, cycles := s.cycles + s.cost b })) ∧
        (∀ value, (s.outcome b value).2.isSome =
          (b.operation.isStore || b.operation.isModification)) ∧
        (b.operation.isStore = true →
          ∀ value other, s.outcome b value = s.outcome b other)) ∧
    (b.operation = .jmp → b.mode = .indirect →
      let first := (s.read (s.pc + 1)).toNat
      let second := (s.read (s.pc + 2)).toNat
      ∃ t, s.stepInstruction = .ok (s.cost b, t) ∧
        t.pc.toNat =
          256 * (s.read (UInt16.ofNat (256 * second + (first + 1) % 256))).toNat +
            (s.read (UInt16.ofNat (256 * second + first))).toNat) := by
  constructor
  · intro hoperand hjmp hjsr
    have he := (wellFormed_of_binding? hbound).usesData hoperand hjmp hjsr
    obtain ⟨o, ho⟩ := s.fetched.exists_operand? hoperand
    refine ⟨o.address, ?_, ?_, ?_, ?_⟩
    · rw [dataAddress?_eq, ho]
      rfl
    · intro γ _ bus hsame
      exact stepInstruction_on hpending hhalted hbound he ho hsame
    · intro value
      rw [outcome, act_isSome, Operation.isStore_effect, Operation.isModification_effect]
    · intro hstore value other
      exact act_of_isStore _ b value other (by rw [Operation.isStore_effect, hstore])
  · intro hoperation hmode
    obtain ⟨t, hstep, hpc⟩ := stepInstruction_of_binding? hpending hhalted hbound
    refine ⟨t, hstep, ?_⟩
    have htarget : t.pc = s.fetched.jumpTarget .indirect := by
      rw [hpc, hoperation, ← hmode]
      rfl
    rw [htarget]
    exact s.toNat_jumpTarget_indirect

/-- A processor before `STA ($FF),Y`.  The pointer wraps to the start of page zero, and indexing it
wraps to the start of the memory. -/
def wrappingStore : Cpu (AddressSpace (Ram 2)) where
  a := 0x42
  y := 2
  pc := 0x0200
  bus := ⟨#[⟨⟨"start", 0x0000, 0x0001⟩, ⟨#v[0xFF, 0x00]⟩⟩,
    ⟨⟨"pointer", 0x00FF, 0x0100⟩, ⟨#v[0xFF, 0x00]⟩⟩,
    ⟨⟨"code", 0x0200, 0x0201⟩, ⟨#v[0x91, 0xFF]⟩⟩]⟩

/-- A processor before `JMP ($02FF)`, which takes the high byte of its target from its own opcode. -/
def wrappingJump : Cpu (AddressSpace (Ram 2)) where
  pc := 0x0200
  bus := ⟨#[⟨⟨"code", 0x0200, 0x0201⟩, ⟨#v[0x6C, 0xFF]⟩⟩,
    ⟨⟨"operand", 0x0202, 0x0203⟩, ⟨#v[0x02, 0x00]⟩⟩,
    ⟨⟨"target", 0x02FF, 0x0300⟩, ⟨#v[0x34, 0x12]⟩⟩]⟩

/-- The store writes to the second cell of the memory, and the jump goes to `$6C34`. -/
theorem stepInstruction_uses_dataAddress_wrapping :
    (wrappingStore.pending = 0 ∧ wrappingStore.halted = false ∧
      Opcode.binding? wrappingStore.opcode = some ⟨.sta, .indirectY, 6, false⟩ ∧
      wrappingStore.dataAddress? .indirectY = some 0x0001 ∧
      ∃ t, wrappingStore.stepInstruction = .ok (6, t) ∧ t.read 0x0001 = 0x42) ∧
    (wrappingJump.pending = 0 ∧ wrappingJump.halted = false ∧
      Opcode.binding? wrappingJump.opcode = some ⟨.jmp, .indirect, 5, false⟩ ∧
      ∃ t, wrappingJump.stepInstruction = .ok (5, t) ∧ t.pc.toNat = 0x6C34) := by
  have hstore : Opcode.binding? wrappingStore.opcode = some ⟨.sta, .indirectY, 6, false⟩ := by
    decide +kernel
  have hjump : Opcode.binding? wrappingJump.opcode = some ⟨.jmp, .indirect, 5, false⟩ := by
    decide +kernel
  have haddress : wrappingStore.dataAddress? .indirectY = some 0x0001 := by
    decide +kernel
  obtain ⟨address, hdata, huses, -⟩ :=
    (wrappingStore.stepInstruction_uses_dataAddress rfl rfl hstore).1 rfl nofun nofun
  obtain ⟨t, hstep, htarget⟩ :=
    (wrappingJump.stepInstruction_uses_dataAddress rfl rfl hjump).2 rfl rfl
  obtain rfl : address = 0x0001 :=
    UInt16.toNat_inj.mp (Option.some.inj (hdata.symm.trans haddress))
  refine ⟨⟨rfl, rfl, hstore, haddress, _, huses wrappingStore.bus (fun _ _ => rfl), ?_⟩,
    rfl, rfl, hjump, t, hstep, ?_⟩
  · decide +kernel
  · rw [htarget]
    decide +kernel

end Cpu

end ChipScore
