import Mathlib.Tactic
import ChipScore.Proofs.Cpu.Footprint

/-!
# Fused instructions

Six undocumented operations are each two documented ones in one: `Operation.halves?` names them.
The first half changes the byte at the data address and writes it back, and the second one works on
the accumulator with the byte that was written, not with what the cell reads as afterwards.

To say so, the two halves are carried out by processors of their own.  `Cpu.StandsIn` says that a
processor, on whatever bus, has the registers and flags of another one and stands before a
documented instruction with its data, in whatever mode; `exists_standsIn` provides one for every
byte and every address.  `StandsIn.modifies` and `StandsIn.combines` say what the two halves do.
They and the fused instruction are all instructions with data, so that what each does comes from
`exists_stepInstruction_outcome`.
-/

namespace ChipScore

/-- The documented operations that a fused one is made of: one that changes the byte at the data
address, and one that works on the accumulator. -/
def Operation.halves? : Operation → Option (Operation × Operation)
  | .slo => some (.asl, .ora)
  | .rla => some (.rol, .and)
  | .sre => some (.lsr, .eor)
  | .rra => some (.ror, .adc)
  | .dcp => some (.dec, .cmp)
  | .isc => some (.inc, .sbc)
  | _ => none

/-- What a fused instruction costs in the seven modes that there are of it. -/
def AddressingMode.fusedCycles? : AddressingMode → Option Nat
  | .zeroPage => some 5
  | .zeroPageX | .absolute => some 6
  | .absoluteX | .absoluteY => some 7
  | .indirectX | .indirectY => some 8
  | _ => none

/-- A few bytes from an address on, which cannot be written, and zeros everywhere else. -/
structure Bus.Rom where
  /-- The address of the first byte. -/
  start : UInt16
  /-- The bytes. -/
  bytes : List UInt8

/-- Writes are lost. -/
instance : Bus Bus.Rom where
  read rom address := rom.bytes.getD (address - rom.start).toNat 0
  write rom _ _ := rom

/-- A read at a distance from the start gives the byte of that place, and zero behind the last byte.
-/
lemma Bus.Rom.read_start_add (rom : Rom) (k : UInt16) :
    Bus.read rom (rom.start + k) = rom.bytes.getD k.toNat 0 := by
  change rom.bytes.getD (rom.start + k - rom.start).toNat 0 = _
  rw [UInt16.add_comm, UInt16.add_sub_cancel]

namespace Operation

/-- A fused operation does in one what its halves do. -/
lemma exists_effect_of_halves? {operation first second : Operation}
    (h : operation.halves? = some (first, second)) :
    ∃ m c, operation.effect = .modifyCombine m c ∧ first.effect = .modify m ∧
      second.effect = .combine c := by
  cases operation with
  | slo | rla | sre | rra | dcp | isc =>
    obtain ⟨rfl, rfl⟩ := Prod.mk.inj (Option.some.inj h)
    exact ⟨_, _, rfl, rfl, rfl⟩
  | _ => cases h

/-- There is an opcode for each half in the absolute mode. -/
lemma exists_absolute_of_halves? {operation first second : Operation}
    (h : operation.halves? = some (first, second)) :
    ∀ half ∈ [first, second], ∃ n < 256, ∃ b ∈ Opcode.binding? (UInt8.ofNat n),
      b.operation = half ∧ b.mode = .absolute := by
  cases operation with
  | slo | rla | sre | rra | dcp | isc =>
    obtain ⟨rfl, rfl⟩ := Prod.mk.inj (Option.some.inj h)
    decide +kernel
  | _ => cases h

end Operation

/-- A bound fused operation costs what its mode costs. -/
lemma fusedCycles?_of_halves? {opcode : UInt8} {b : Binding} (h : Opcode.binding? opcode = some b)
    (hfused : b.operation.halves?.isSome = true) : b.mode.fusedCycles? = some b.cycles := by
  have htable : ∀ opcode, ∀ b ∈ Opcode.binding? opcode,
      b.operation.halves?.isSome = true → b.mode.fusedCycles? = some b.cycles :=
    forall_byte_of_forall_lt (by decide +kernel)
  exact htable opcode b h hfused

namespace Cpu

variable {β γ : Type}

/-- Processors hold the same in their registers, the program counter apart, and in their flags. -/
structure SameRegisters (s : Cpu β) (t : Cpu γ) : Prop where
  a : s.a = t.a
  x : s.x = t.x
  y : s.y = t.y
  sp : s.sp = t.sp
  flags : s.flags = t.flags

lemma SameRegisters.trans {δ : Type} {s : Cpu β} {t : Cpu γ} {u : Cpu δ} (h : SameRegisters s t)
    (h' : SameRegisters t u) : SameRegisters s u :=
  ⟨h.a.trans h'.a, h.x.trans h'.x, h.y.trans h'.y, h.sp.trans h'.sp, h.flags.trans h'.flags⟩

lemma SameRegisters.symm {s : Cpu β} {t : Cpu γ} (h : SameRegisters s t) : SameRegisters t s :=
  ⟨h.a.symm, h.x.symm, h.y.symm, h.sp.symm, h.flags.symm⟩

/-- A processor with the registers and flags of another one stands between instructions, before an
opcode that is bound to an operation, and its data is a given byte at a given address. -/
structure StandsIn [Bus γ] (u : Cpu γ) (s : Cpu β) (operation : Operation) (address : UInt16)
    (cell : UInt8) : Prop where
  registers : u.SameRegisters s
  pending : u.pending = 0
  halted : u.halted = false
  bound : ∃ b, Opcode.binding? u.opcode = some b ∧ b.operation = operation ∧
    u.dataAddress? b.mode = some address.toNat
  cell : u.read address = cell

/-- Combining the accumulator with one byte makes equal registers and flags equal again. -/
lemma SameRegisters.combine {s : Cpu β} {t : Cpu γ} (h : s.SameRegisters t) (c : Combination)
    (value : UInt8) : (s.combine c value).SameRegisters (t.combine c value) := by
  have hresult : c.apply s.flags s.a value = c.apply t.flags t.a value := by
    rw [h.flags, h.a]
  exact ⟨congrArg Prod.fst hresult, h.x, h.y, h.sp, congrArg Prod.snd hresult⟩

/-! ### Instructions with data -/

section Data

variable [Bus β]

/-- The only byte that an effect with an operand in memory writes is the one that it writes back. -/
lemma effectWrites_eq_act (s : Cpu β) (b : Binding) {e : Effect} {o : Operand}
    (he : e.usesData = true) (ho : s.operand? b.mode = some o) :
    s.effectWrites b e =
      (((s.on ()).act b (s.read o.address) e).2.map (Bus.Access.mk o.address)).toList := by
  cases e with
  | combine | compareRegister | testBits | load | store | modify | modifyCombine | idle =>
    simp only [effectWrites, ho]
    rfl
  | _ => cases he

/-- Between instructions, an instruction with data leaves its outcome on the byte at its data
address. -/
lemma exists_stepInstruction_outcome {s : Cpu β} {b : Binding} {address : UInt16}
    (hpending : s.pending = 0) (hhalted : s.halted = false)
    (hbound : Opcode.binding? s.opcode = some b) (he : b.operation.effect.usesData = true)
    (hdata : s.dataAddress? b.mode = some address.toNat) :
    let out := s.outcome b (s.read address)
    ∃ t, s.stepInstruction = .ok (s.cost b, t) ∧
      s.instructionWrites = (out.2.map (Bus.Access.mk address)).toList ∧
      t.bus = Bus.writeBack s.bus address out.2 ∧ t.pc = out.1.pc ∧ t.SameRegisters out.1 := by
  intro out
  rw [dataAddress?_eq, Option.map_eq_some_iff] at hdata
  obtain ⟨o, ho, haddress⟩ := hdata
  obtain rfl : o.address = address := UInt16.toNat_inj.mp haddress
  have hstep := stepInstruction_on hpending hhalted hbound he ho fun _ _ => rfl
  have hwrites := instructionWrites_of_binding? hpending hhalted hbound
  rw [effectWrites_eq_act s.fetched b he ho] at hwrites
  exact ⟨_, hstep, hwrites, rfl, rfl, rfl, rfl, rfl, rfl, rfl⟩

/-- A fused instruction writes the changed byte back and combines the accumulator with it. -/
lemma stepInstruction_fused {s : Cpu β} {b : Binding} {m : Modification} {c : Combination}
    (hpending : s.pending = 0) (hhalted : s.halted = false)
    (hbound : Opcode.binding? s.opcode = some b)
    (heffect : b.operation.effect = .modifyCombine m c) :
    ∃ address t, s.dataAddress? b.mode = some address.toNat ∧
      let (value, flags) := m.apply s.flags (s.read address)
      s.stepInstruction = .ok (b.cycles, t) ∧ t.pc = s.pc + UInt16.ofNat b.size ∧
      s.instructionWrites = [⟨address, value⟩] ∧ t.bus = Bus.write s.bus address value ∧
      t.SameRegisters ({ s with flags := flags }.combine c value) := by
  have he : b.operation.effect.usesData = true := by
    rw [heffect]
    rfl
  have hoperand : b.mode.hasOperand = true := by
    have hfits := (wellFormed_of_binding? hbound).fits
    rw [heffect] at hfits
    exact hfits
  obtain ⟨o, ho⟩ := s.fetched.exists_operand? hoperand
  have hdata : s.dataAddress? b.mode = some o.address.toNat := by
    rw [dataAddress?_eq, ho]
    rfl
  have hcost : s.cost b = b.cycles := by
    rw [cost_of_operand? s he ho, heffect]
    rfl
  have hpc : s.pc + 1 + UInt16.ofNat b.mode.operandBytes = s.pc + UInt16.ofNat b.size := by
    rw [Binding.size, UInt16.ofNat_add, UInt16.add_assoc]
    rfl
  obtain ⟨t, hstep, hwrites, hbus, hnext, hregisters⟩ :=
    exists_stepInstruction_outcome hpending hhalted hbound he hdata
  rw [hcost] at hstep
  rw [outcome, heffect] at hwrites hbus hnext hregisters
  exact ⟨o.address, t, hdata, hstep, hnext.trans hpc, hwrites, hbus, hregisters.a, hregisters.x,
    hregisters.y, hregisters.sp, hregisters.flags⟩

end Data

/-! ### Documented instructions -/

section StandsIn

variable [Bus γ] {u : Cpu γ} {s : Cpu β} {operation : Operation} {address : UInt16} {cell : UInt8}

/-- A documented change of memory writes the changed byte back and describes it by the flags. -/
lemma StandsIn.modifies (h : u.StandsIn s operation address cell) {m : Modification}
    (heffect : operation.effect = .modify m) :
    let (value, flags) := m.apply s.flags cell
    ∃ n u', u.stepInstruction = .ok (n, u') ∧ u.instructionWrites = [⟨address, value⟩] ∧
      u'.bus = Bus.write u.bus address value ∧ u'.SameRegisters { s with flags := flags } := by
  obtain ⟨hregisters, hpending, hhalted, ⟨b, hbound, rfl, hdata⟩, rfl⟩ := h
  obtain ⟨u', hstep, hwrites, hbus, -, hsame⟩ :=
    exists_stepInstruction_outcome hpending hhalted hbound (by rw [heffect]; rfl) hdata
  rw [outcome, heffect] at hwrites hbus hsame
  rw [← hregisters.flags]
  exact ⟨_, u', hstep, hwrites, hbus, hsame.a.trans hregisters.a, hsame.x.trans hregisters.x,
    hsame.y.trans hregisters.y, hsame.sp.trans hregisters.sp, hsame.flags⟩

/-- An accumulator instruction combines the accumulator with its data.  It does not write. -/
lemma StandsIn.combines (h : u.StandsIn s operation address cell) {c : Combination}
    (heffect : operation.effect = .combine c) :
    ∃ n u', u.stepInstruction = .ok (n, u') ∧ u.instructionWrites = [] ∧ u'.bus = u.bus ∧
      u'.SameRegisters (s.combine c cell) := by
  obtain ⟨hregisters, hpending, hhalted, ⟨b, hbound, rfl, hdata⟩, rfl⟩ := h
  obtain ⟨u', hstep, hwrites, hbus, -, hsame⟩ :=
    exists_stepInstruction_outcome hpending hhalted hbound (by rw [heffect]; rfl) hdata
  rw [outcome, heffect] at hwrites hbus hsame
  have hcombined := hregisters.combine c (u.read address)
  exact ⟨_, u', hstep, hwrites, hbus, hsame.a.trans hcombined.a, hsame.x.trans hcombined.x,
    hsame.y.trans hcombined.y, hsame.sp.trans hcombined.sp, hsame.flags.trans hcombined.flags⟩

end StandsIn

/-! ### Processors that stand in -/

/-- A processor with the registers and flags of another one, before an opcode that is followed by
the address of a byte; the byte lies right before the opcode. -/
def standIn (s : Cpu β) (address : UInt16) (cell opcode : UInt8) : Cpu Bus.Rom where
  a := s.a
  x := s.x
  y := s.y
  sp := s.sp
  pc := address + 1
  flags := s.flags
  bus := ⟨address, [cell, opcode, Word.low address, Word.high address]⟩

/-- The data of the instruction of a stand-in lies at the address that was asked for. -/
lemma dataAddress?_standIn (s : Cpu β) (address : UInt16) (cell opcode : UInt8) :
    (s.standIn address cell opcode).dataAddress? .absolute = some address.toNat := by
  have hread (k : UInt16) : (s.standIn address cell opcode).read (address + (1 + k)) =
      [cell, opcode, Word.low address, Word.high address].getD (1 + k).toNat 0 :=
    Bus.Rom.read_start_add _ _
  have hfirst : (s.standIn address cell opcode).read (address + 1 + 1) = Word.low address := by
    rw [UInt16.add_assoc, hread]
    rfl
  have hsecond : (s.standIn address cell opcode).read (address + 1 + 2) = Word.high address := by
    rw [UInt16.add_assoc, hread]
    rfl
  change some (256 * ((s.standIn address cell opcode).read (address + 1 + 2)).toNat +
    ((s.standIn address cell opcode).read (address + 1 + 1)).toNat) = _
  rw [hfirst, hsecond, ← Word.toNat_ofBytes, Word.ofBytes_low_high]

/-- There is a processor that stands in before an operation with an absolute mode, for every byte
wherever it lies. -/
lemma exists_standsIn (s : Cpu β) (address : UInt16) (cell : UInt8) {operation : Operation}
    (h : ∃ n < 256, ∃ b ∈ Opcode.binding? (UInt8.ofNat n),
      b.operation = operation ∧ b.mode = .absolute) :
    ∃ u : Cpu Bus.Rom, u.StandsIn s operation address cell := by
  obtain ⟨n, -, b, hbound, hoperation, hmode⟩ := h
  have hcell : (s.standIn address cell (UInt8.ofNat n)).read address = cell := by
    have hread := Bus.Rom.read_start_add (s.standIn address cell (UInt8.ofNat n)).bus 0
    rwa [UInt16.add_zero] at hread
  have hopcode : (s.standIn address cell (UInt8.ofNat n)).opcode = UInt8.ofNat n :=
    Bus.Rom.read_start_add _ 1
  refine ⟨_, ⟨rfl, rfl, rfl, rfl, rfl⟩, rfl, rfl, ⟨b, ?_, hoperation, ?_⟩, hcell⟩
  · rw [hopcode]
    exact hbound
  · rw [hmode]
    exact s.dataAddress?_standIn address cell _

/-! ### The fused instructions -/

variable [Bus β]

/-- **A fused instruction is its two halves, one after the other.**  Between instructions, before an
opcode that is bound to a fused operation, a step succeeds.  It costs what its mode says, moves the
program counter past its own bytes and writes a single byte, at its data address; what that cell
reads as afterwards is of no concern.

Let a processor `u` stand in before the first half, with the same byte at the same address.  Its
step makes the same write.  Let a processor `w` then stand in for what `u` has become, before the
second half, with the byte that was written as its data.  Its step writes nothing, and leaves in the
registers and flags what the fused instruction has left there. -/
theorem stepInstruction_eq_halves (s : Cpu β) {b : Binding} {first second : Operation}
    (hpending : s.pending = 0) (hhalted : s.halted = false)
    (hbound : Opcode.binding? s.opcode = some b)
    (hfused : b.operation.halves? = some (first, second)) :
    ∃ (address : UInt16) (value : UInt8) (cycles : Nat) (t : Cpu β),
      s.dataAddress? b.mode = some address.toNat ∧
      b.mode.fusedCycles? = some cycles ∧
      s.stepInstruction = .ok (cycles, t) ∧
      t.pc = s.pc + UInt16.ofNat b.size ∧
      s.instructionWrites = [⟨address, value⟩] ∧
      t.bus = Bus.write s.bus address value ∧
      (∃ u : Cpu Bus.Rom, u.StandsIn s first address (s.read address)) ∧
      ∀ {γ : Type} [Bus γ] (u : Cpu γ), u.StandsIn s first address (s.read address) →
        ∃ m u', u.stepInstruction = .ok (m, u') ∧
          u.instructionWrites = s.instructionWrites ∧
          u'.bus = Bus.write u.bus address value ∧
          (∃ (w : Cpu Bus.Rom) (source : UInt16), w.StandsIn u' second source value) ∧
          ∀ {δ : Type} [Bus δ] (w : Cpu δ) (source : UInt16), w.StandsIn u' second source value →
            ∃ n w', w.stepInstruction = .ok (n, w') ∧ w.instructionWrites = [] ∧ w'.bus = w.bus ∧
              t.SameRegisters w' := by
  obtain ⟨m, c, heffect, hfirst, hsecond⟩ := Operation.exists_effect_of_halves? hfused
  have habsolute := Operation.exists_absolute_of_halves? hfused
  have hcycles : b.mode.fusedCycles? = some b.cycles :=
    fusedCycles?_of_halves? hbound (by rw [hfused]; rfl)
  obtain ⟨address, t, hdata, hstep, hpc, hwrites, hbus, ht⟩ :=
    stepInstruction_fused hpending hhalted hbound heffect
  refine ⟨address, _, b.cycles, t, hdata, hcycles, hstep, hpc, hwrites, hbus, ?_, ?_⟩
  · exact s.exists_standsIn address _ (habsolute first (by simp))
  · intro γ _ u hu
    obtain ⟨n, u', hstep', hwrites', hbus', hu'⟩ := hu.modifies hfirst
    refine ⟨n, u', hstep', hwrites'.trans hwrites.symm, hbus', ?_, ?_⟩
    · obtain ⟨w, hw⟩ := u'.exists_standsIn address _ (habsolute second (by simp))
      exact ⟨w, address, hw⟩
    · intro δ _ w source hw
      obtain ⟨n', w', hstep'', hwrites'', hbus'', hw'⟩ := hw.combines hsecond
      exact ⟨n', w', hstep'', hwrites'', hbus'', ht.trans ((hu'.combine c _).symm.trans hw'.symm)⟩

/-- A processor before `SLO $0040`, on a memory that does not keep what is written to it. -/
def unkeptFusion : Cpu Bus.Rom where
  a := 0x01
  pc := 0x0041
  bus := ⟨0x0040, [0x81, 0x0F, 0x40, 0x00]⟩

/-- The cell still holds `$81`, but it is `$02` that has been written and combined with the
accumulator. -/
theorem stepInstruction_eq_halves_unkeptFusion :
    unkeptFusion.pending = 0 ∧ unkeptFusion.halted = false ∧
      Opcode.binding? unkeptFusion.opcode = some ⟨.slo, .absolute, 6, true⟩ ∧
      Operation.halves? .slo = some (.asl, .ora) ∧
      ∃ t, unkeptFusion.stepInstruction = .ok (6, t) ∧ t.pc = 0x0044 ∧
        unkeptFusion.instructionWrites = [⟨0x0040, 0x02⟩] ∧ t.read 0x0040 = 0x81 ∧ t.a = 0x03 ∧
        ∃ (w w' : Cpu Bus.Rom) (source : UInt16) (n : Nat), w.read source = 0x02 ∧
          w.stepInstruction = .ok (n, w') ∧ t.SameRegisters w' := by
  have hbound : Opcode.binding? unkeptFusion.opcode = some ⟨.slo, .absolute, 6, true⟩ := by
    decide +kernel
  obtain ⟨address, value, cycles, t, -, hcycles, hstep, hpc, hwrites, hbus, ⟨u, hu⟩, hrun⟩ :=
    unkeptFusion.stepInstruction_eq_halves rfl rfl hbound rfl
  obtain ⟨-, u', -, -, -, ⟨w, source, hw⟩, hrest⟩ := hrun u hu
  obtain ⟨n, w', hstep', -, -, hsame⟩ := hrest w source hw
  obtain rfl : 6 = cycles := Option.some.inj hcycles
  have hwritten : unkeptFusion.instructionWrites = [⟨0x0040, 0x02⟩] := by
    decide +kernel
  obtain ⟨rfl, rfl⟩ : address = 0x0040 ∧ value = 0x02 := by
    simpa using hwrites.symm.trans hwritten
  have ha : unkeptFusion.stepInstruction.toOption.map (fun result => result.2.a) = some 0x03 := by
    decide +kernel
  rw [hstep] at ha
  refine ⟨rfl, rfl, hbound, rfl, t, hstep, hpc, hwritten, ?_, Option.some.inj ha, w, w', source, n,
    hw.cell, hstep', hsame⟩
  rw [read, hbus]
  rfl

end Cpu

end ChipScore
