import Mathlib.Tactic
import ChipScore.Bus.AddressSpace
import ChipScore.Bus.Ram
import ChipScore.Proofs.Bus.Cells
import ChipScore.Proofs.Cpu.Arithmetic
import ChipScore.Proofs.Cpu.EffectiveAddress

/-!
# What an instruction can touch

An instruction writes to the bus at most twice, changes some of the flags, and puts its result into
a register.  Everything else stays as it is.  Which writes, which flags and which registers these
are is read off its operation and its addressing mode: `Cpu.writtenAddresses`,
`Operation.changedFlags` and `Operation.destinations`.

The processor carries out effects, so each of the three has a counterpart for effects, and one lemma
that says of every effect that it touches no more: `recorded_perform_writes`, `sameBut_perform` and
`get_perform`.  A set of flags is written as a mask, in which the flags of the set are true.
-/

namespace ChipScore

/-! ### Sets of flags -/

namespace Flags

/-- The flags that describe a result. -/
def nz : Flags :=
  { negative := true, zero := true }

/-- The flags that describe a result with a carry. -/
def nzc : Flags :=
  { nz with carry := true }

/-- The flags that are taken from the bits of a byte. -/
def nvz : Flags :=
  { nz with overflow := true }

/-- The flags that describe a sum. -/
def nvzc : Flags :=
  { nzc with overflow := true }

/-- The flags that a status byte restores. -/
def allButBrk : Flags :=
  { nvzc with decimal := true, interruptDisable := true }

/-- The flags of two sets. -/
def union (m n : Flags) : Flags where
  negative := m.negative || n.negative
  overflow := m.overflow || n.overflow
  brk := m.brk || n.brk
  decimal := m.decimal || n.decimal
  interruptDisable := m.interruptDisable || n.interruptDisable
  zero := m.zero || n.zero
  carry := m.carry || n.carry

/-- Flags differ in those of a set only. -/
structure SameBut (mask f g : Flags) : Prop where
  negative : mask.negative = false → f.negative = g.negative
  overflow : mask.overflow = false → f.overflow = g.overflow
  brk : mask.brk = false → f.brk = g.brk
  decimal : mask.decimal = false → f.decimal = g.decimal
  interruptDisable : mask.interruptDisable = false → f.interruptDisable = g.interruptDisable
  zero : mask.zero = false → f.zero = g.zero
  carry : mask.carry = false → f.carry = g.carry

variable {m n f g h : Flags}

/-- Flags do not differ from themselves. -/
lemma sameBut_self (f m : Flags) : SameBut m f f :=
  ⟨fun _ => rfl, fun _ => rfl, fun _ => rfl, fun _ => rfl, fun _ => rfl, fun _ => rfl, fun _ => rfl⟩

/-- What two changes may touch, one after the other, is what either may touch. -/
lemma SameBut.trans (hfirst : SameBut m g h) (hsecond : SameBut n f g) :
    SameBut (m.union n) f h := by
  constructor
  all_goals
    intro hmask
    obtain ⟨hm, hn⟩ := Bool.or_eq_false_iff.mp hmask
  case negative => exact (hsecond.negative hn).trans (hfirst.negative hm)
  case overflow => exact (hsecond.overflow hn).trans (hfirst.overflow hm)
  case brk => exact (hsecond.brk hn).trans (hfirst.brk hm)
  case decimal => exact (hsecond.decimal hn).trans (hfirst.decimal hm)
  case interruptDisable => exact (hsecond.interruptDisable hn).trans (hfirst.interruptDisable hm)
  case zero => exact (hsecond.zero hn).trans (hfirst.zero hm)
  case carry => exact (hsecond.carry hn).trans (hfirst.carry hm)

/-- Describing a result touches the negative and the zero flag. -/
lemma sameBut_describe (f : Flags) (value : UInt8) : SameBut nz (f.describe value) f :=
  ⟨nofun, fun _ => rfl, fun _ => rfl, fun _ => rfl, fun _ => rfl, nofun, fun _ => rfl⟩

/-- A comparison touches the carry as well. -/
lemma sameBut_compare (f : Flags) (register value : UInt8) :
    SameBut nzc (f.compare register value) f :=
  ⟨nofun, fun _ => rfl, fun _ => rfl, fun _ => rfl, fun _ => rfl, nofun, nofun⟩

/-- Testing bits touches the overflow flag, but not the carry. -/
lemma sameBut_testBits (f : Flags) (a value : UInt8) : SameBut nvz (f.testBits a value) f :=
  ⟨nofun, nofun, fun _ => rfl, fun _ => rfl, fun _ => rfl, nofun, fun _ => rfl⟩

/-- A sum touches all four arithmetic flags. -/
lemma sameBut_addWithCarry (f : Flags) (a value : UInt8) :
    SameBut nvzc (f.addWithCarry a value).2 f :=
  ⟨nofun, nofun, fun _ => rfl, fun _ => rfl, fun _ => rfl, nofun, nofun⟩

/-- Restoring a status byte touches every flag but the break flag. -/
lemma sameBut_restore (f : Flags) (value : UInt8) : SameBut allButBrk (f.restore value) f :=
  ⟨nofun, nofun, fun _ => rfl, nofun, nofun, nofun, nofun⟩

/-- A break touches the break flag only. -/
lemma sameBut_break (f : Flags) : SameBut { brk := true } { f with brk := true } f :=
  ⟨fun _ => rfl, fun _ => rfl, nofun, fun _ => rfl, fun _ => rfl, fun _ => rfl, fun _ => rfl⟩

/-- A flag that is assigned is the only one to change. -/
lemma sameBut_assign (f : Flags) (flag : Flag) (value : Bool) :
    SameBut (assign {} flag true) (f.assign flag value) f := by
  cases flag <;> constructor <;> first | exact fun _ => rfl | exact nofun

end Flags

/-! ### What an operation can touch -/

namespace Operation

/-- The flags that an operation can change. -/
def changedFlags : Operation → Flags
  | .adc | .sbc | .isc | .rra => .nvzc
  | .cmp | .cpx | .cpy | .asl | .lsr | .rol | .ror | .dcp | .slo | .rla | .sre => .nzc
  | .bit => .nvz
  | .lda | .ldx | .ldy | .lax | .and | .ora | .eor | .inc | .dec | .inx | .iny | .dex | .dey | .pla
  | .tax | .tay | .txa | .tya | .tsx => .nz
  | .clc | .sec => { carry := true }
  | .cli | .sei => { interruptDisable := true }
  | .cld | .sed => { decimal := true }
  | .clv => { overflow := true }
  | .plp | .rti => .allButBrk
  | .brk => { brk := true }
  | .sta | .stx | .sty | .sax | .txs | .pha | .php | .bcc | .bcs | .beq | .bmi | .bne | .bpl | .bvc
  | .bvs | .jmp | .jsr | .rts | .nop => {}

/-- The registers that an operation puts something into.  Shifts and rotations work on the
accumulator in a mode of their own. -/
def destinations (mode : AddressingMode) : Operation → List Register
  | .adc | .sbc | .and | .ora | .eor | .lda | .txa | .tya | .slo | .rla | .sre | .rra | .isc => [.a]
  | .asl | .lsr | .rol | .ror => if mode = .accumulator then [.a] else []
  | .lax => [.a, .x]
  | .ldx | .tax | .tsx | .inx | .dex => [.x]
  | .ldy | .tay | .iny | .dey => [.y]
  | .txs | .pha | .php | .plp | .jsr | .rts | .rti => [.sp]
  | .pla => [.a, .sp]
  | .cmp | .cpx | .cpy | .bit | .sta | .stx | .sty | .sax | .inc | .dec | .dcp | .clc | .sec | .cli
  | .sei | .cld | .sed | .clv | .bcc | .bcs | .beq | .bmi | .bne | .bpl | .bvc | .bvs | .jmp | .brk
  | .nop => []

end Operation

/-! ### What an effect can touch -/

/-- The flags that combining the accumulator with a byte can change. -/
def Combination.changedFlags : Combination → Flags
  | .add | .subtract => .nvzc
  | .and | .or | .xor => .nz
  | .compare => .nzc

/-- The flags that changing a byte can change. -/
def Modification.changedFlags : Modification → Flags
  | .shiftLeft | .shiftRight | .rotateLeft | .rotateRight => .nzc
  | .increment | .decrement => .nz

/-- The registers that a combination with the accumulator puts something into. -/
def Combination.destinations : Combination → List Register
  | .compare => []
  | _ => [.a]

/-- The registers that a load puts something into. -/
def DataRegister.destinations : DataRegister → List Register
  | .a => [.a]
  | .x => [.x]
  | .y => [.y]
  | .ax => [.a, .x]

namespace Effect

/-- The flags that an effect can change. -/
def changedFlags : Effect → Flags
  | combine c => c.changedFlags
  | compareRegister _ => .nzc
  | testBits => .nvz
  | modify m => m.changedFlags
  | modifyCombine m c => m.changedFlags.union c.changedFlags
  | transfer _ .sp => {}
  | load _ | modifyRegister _ _ | transfer _ _ | pullAccumulator => .nz
  | assign f _ => Flags.assign {} f true
  | pullStatus | returnFromInterrupt => .allButBrk
  | halt => { brk := true }
  | store _ | branch _ _ | pushAccumulator | pushStatus | jump | call | returnFromCall | idle => {}

/-- The registers that an effect puts something into. -/
def destinations (mode : AddressingMode) : Effect → List Register
  | combine c | modifyCombine _ c => c.destinations
  | load d => d.destinations
  | modify _ => if mode.hasOperand then [] else [.a]
  | modifyRegister r _ | transfer _ r => [r]
  | pullAccumulator => [.a, .sp]
  | pushAccumulator | pushStatus | pullStatus | call | returnFromCall | returnFromInterrupt => [.sp]
  | compareRegister _ | testBits | store _ | assign _ _ | branch _ _ | jump | halt | idle => []

end Effect

/-- The flags that an operation can change are those that its effect can change. -/
lemma Operation.changedFlags_effect (operation : Operation) :
    operation.effect.changedFlags = operation.changedFlags := by
  cases operation <;> rfl

/-- The registers that a bound operation puts something into are those of its effect. -/
lemma destinations_effect_of_binding? {opcode : UInt8} {b : Binding}
    (h : Opcode.binding? opcode = some b) :
    b.operation.effect.destinations b.mode = b.operation.destinations b.mode := by
  have htable : ∀ opcode, ∀ b ∈ Opcode.binding? opcode,
      b.operation.effect.destinations b.mode = b.operation.destinations b.mode :=
    forall_byte_of_forall_lt (by decide +kernel)
  exact htable opcode b h

/-- A combination with the accumulator changes no flags but its own. -/
lemma Combination.sameBut_apply (c : Combination) (f : Flags) (a value : UInt8) :
    Flags.SameBut c.changedFlags (c.apply f a value).2 f := by
  cases c with
  | add | subtract => exact f.sameBut_addWithCarry a _
  | and | or | xor => exact f.sameBut_describe _
  | compare => exact f.sameBut_compare a value

/-- A change of a byte changes no flags but its own. -/
lemma Modification.sameBut_apply (m : Modification) (f : Flags) (value : UInt8) :
    Flags.SameBut m.changedFlags (m.apply f value).2 f := by
  cases m with
  | shiftLeft | shiftRight | rotateLeft | rotateRight =>
    exact ⟨nofun, fun _ => rfl, fun _ => rfl, fun _ => rfl, fun _ => rfl, nofun, nofun⟩
  | increment | decrement => exact f.sameBut_describe _

namespace Cpu

variable {β : Type}

/-- What is put into one register leaves the others alone. -/
lemma get_put_of_ne (s : Cpu β) {r target : Register} (h : r ≠ target) (value : UInt8) :
    (s.put target value).get r = s.get r := by
  cases target <;> cases r <;> first | rfl | exact absurd rfl h

/-- A load leaves alone all registers but those it puts something into. -/
lemma get_load_of_notMem (s : Cpu β) {d : DataRegister} {r : Register} (h : r ∉ d.destinations)
    (value : UInt8) : (s.load d value).get r = s.get r := by
  cases d <;> cases r <;> first | rfl | exact absurd (by decide) h

variable [Bus β]

/-- An effect changes no flag outside its set. -/
lemma sameBut_perform (s : Cpu β) (b : Binding) (e : Effect) :
    Flags.SameBut e.changedFlags (s.perform b e).flags s.flags := by
  cases e with
  | combine c =>
    rw [perform]
    cases s.operand? b.mode with
    | none => exact s.flags.sameBut_self _
    | some o => exact c.sameBut_apply s.flags s.a _
  | compareRegister r =>
    rw [perform]
    cases s.operand? b.mode with
    | none => exact s.flags.sameBut_self _
    | some o => exact s.flags.sameBut_compare _ _
  | testBits =>
    rw [perform]
    cases s.operand? b.mode with
    | none => exact s.flags.sameBut_self _
    | some o => exact s.flags.sameBut_testBits _ _
  | load d =>
    rw [perform]
    cases s.operand? b.mode with
    | none => exact s.flags.sameBut_self _
    | some o => cases d <;> exact s.flags.sameBut_describe _
  | modify m =>
    rw [perform]
    cases s.operand? b.mode with
    | none => exact m.sameBut_apply s.flags _
    | some o => exact m.sameBut_apply s.flags _
  | modifyCombine m c =>
    rw [perform]
    cases s.operand? b.mode with
    | none => exact s.flags.sameBut_self _
    | some o => exact (m.sameBut_apply s.flags _).trans (c.sameBut_apply _ s.a _)
  | store | idle =>
    rw [perform]
    cases s.operand? b.mode <;> exact s.flags.sameBut_self _
  | modifyRegister r m => exact s.flags.sameBut_describe _
  | transfer source target =>
    cases target with
    | sp => exact s.flags.sameBut_self _
    | a | x | y => exact s.flags.sameBut_describe _
  | assign f value => exact s.flags.sameBut_assign f value
  | branch f value =>
    rw [perform, branch]
    split <;> exact s.flags.sameBut_self _
  | pullAccumulator => exact s.flags.sameBut_describe _
  | pullStatus | returnFromInterrupt => exact s.flags.sameBut_restore _
  | halt => exact s.flags.sameBut_break
  | pushAccumulator | pushStatus | jump | call | returnFromCall => exact s.flags.sameBut_self _

/-- An effect puts something into no register but its destinations. -/
lemma get_perform (s : Cpu β) (b : Binding) {e : Effect} {r : Register}
    (h : r ∉ e.destinations b.mode) : (s.perform b e).get r = s.get r := by
  cases e with
  | combine c | modifyCombine m c =>
    rw [perform]
    cases s.operand? b.mode with
    | none => rfl
    | some o =>
      cases r with
      | a =>
        cases c with
        | compare => rfl
        | _ => exact absurd List.mem_cons_self h
      | x | y | sp => rfl
  | load d =>
    rw [perform]
    cases s.operand? b.mode with
    | none => rfl
    | some o => exact get_load_of_notMem (s.skipOperand b.mode) h (s.read o.address)
  | modify m =>
    have hoperand := s.isSome_operand? b.mode
    rw [perform]
    cases hnone : s.operand? b.mode with
    | none =>
      rw [hnone] at hoperand
      rw [Effect.destinations, ← hoperand] at h
      cases r with
      | a => exact absurd List.mem_cons_self h
      | x | y | sp => rfl
    | some o => cases r <;> rfl
  | compareRegister | testBits | store | idle =>
    rw [perform]
    cases s.operand? b.mode <;> cases r <;> rfl
  | modifyRegister target m =>
    have hne : r ≠ target := fun heq => h (List.mem_singleton.mpr heq)
    exact get_put_of_ne s hne _
  | transfer source target =>
    have hne : r ≠ target := fun heq => h (List.mem_singleton.mpr heq)
    have hput := get_put_of_ne s hne (s.get source)
    cases target <;> exact hput
  | branch f value =>
    rw [perform, branch]
    split <;> cases r <;> rfl
  | assign | jump | halt => cases r <;> rfl
  | pullAccumulator =>
    cases r with
    | a => exact absurd List.mem_cons_self h
    | sp => exact absurd (List.mem_cons_of_mem _ List.mem_cons_self) h
    | x | y => rfl
  | pushAccumulator | pushStatus | pullStatus | call | returnFromCall | returnFromInterrupt =>
    cases r with
    | sp => exact absurd List.mem_cons_self h
    | a | x | y => rfl

/-! ### Writes -/

/-- The writes of an effect, in order. -/
def effectWrites (s : Cpu β) (b : Binding) : Effect → List Bus.Access
  | .store d => ((s.operand? b.mode).map fun o => ⟨o.address, s.driven d⟩).toList
  | .modify m | .modifyCombine m _ =>
    ((s.operand? b.mode).map fun o => ⟨o.address, (m.apply s.flags (s.read o.address)).1⟩).toList
  | .pushAccumulator => [⟨stackAddress s.sp, s.a⟩]
  | .pushStatus => [⟨stackAddress s.sp, { s.flags with brk := true }.toByte⟩]
  | .call =>
    [⟨stackAddress s.sp, Word.high (s.pc + 1)⟩, ⟨stackAddress (s.sp - 1), Word.low (s.pc + 1)⟩]
  | _ => []

/-- The writes of an instruction step, in order; none if the step is a fault. -/
def instructionWrites (s : Cpu β) : List Bus.Access :=
  match s.recorded.stepInstruction with
  | .ok (_, t) => t.bus.writes.toList
  | .error _ => []

/-- The addresses that the instruction at the program counter writes to, in order. -/
def writtenAddresses (s : Cpu β) (b : Binding) : List Nat :=
  if b.operation.isStore || b.operation.isModification then (s.dataAddress? b.mode).toList
  else match b.operation with
    | .pha | .php => [0x0100 + s.sp.toNat]
    | .jsr => [0x0100 + s.sp.toNat, 0x0100 + (s.sp.toNat + 255) % 256]
    | _ => []

/-- A recorder sees the writes of an effect and no others. -/
lemma recorded_perform_writes (s : Cpu β) (b : Binding) (e : Effect) :
    (s.recorded.perform b e).bus.writes.toList = s.effectWrites b e := by
  have hoperand : s.recorded.operand? b.mode = s.operand? b.mode := by
    cases b.mode <;> rfl
  cases e with
  | combine | compareRegister | testBits | store | modify | modifyCombine | idle =>
    simp only [perform, effectWrites, hoperand]
    cases s.operand? b.mode <;> rfl
  | load d =>
    simp only [perform, hoperand]
    cases s.operand? b.mode with
    | none => rfl
    | some o => cases d <;> rfl
  | modifyRegister r m => cases r <;> rfl
  | transfer source target => cases target <;> rfl
  | branch f value =>
    simp only [perform, branch]
    split <;> rfl
  | _ => rfl

/-- Between instructions, the writes of a step are those of the effect that it carries out. -/
lemma instructionWrites_of_binding? {s : Cpu β} {b : Binding} (hpending : s.pending = 0)
    (hhalted : s.halted = false) (hbound : Opcode.binding? s.opcode = some b) :
    s.instructionWrites = s.fetched.effectWrites b b.operation.effect := by
  have hopcode : Opcode.binding? s.recorded.opcode = some b := hbound
  have hidle : s.recorded.pending = 0 := hpending
  have hstep := stepInstruction_eq_perform hidle hhalted hopcode
  rw [instructionWrites, hstep, ← recorded_perform_writes]
  rfl

/-- The addresses of the writes of an effect are those of its operation. -/
lemma map_address_effectWrites (s : Cpu β) (b : Binding) :
    (s.fetched.effectWrites b b.operation.effect).map (fun w => w.address.toNat) =
      s.writtenAddresses b := by
  have hdata : s.dataAddress? b.mode = (s.fetched.operand? b.mode).map fun o => o.address.toNat :=
    s.dataAddress?_eq b.mode
  have hstack (sp : UInt8) : (stackAddress sp).toNat = 0x0100 + sp.toNat := by
    revert sp
    exact forall_byte_of_forall_lt (by decide +kernel)
  have hbelow : (s.sp - 1).toNat = (s.sp.toNat + 255) % 256 :=
    Modification.toNat_result_decrement false s.sp
  unfold writtenAddresses
  rw [← Operation.isStore_effect, ← Operation.isModification_effect, hdata]
  cases hoperation : b.operation with
  | sta | stx | sty | sax | asl | lsr | rol | ror | inc | dec | slo | rla | sre | rra | dcp | isc =>
    simp only [Operation.effect, effectWrites]
    cases s.fetched.operand? b.mode <;> rfl
  | pha | php => exact congrArg (fun address => [address]) (hstack s.sp)
  | jsr =>
    have hsecond := hstack (s.sp - 1)
    rw [hbelow] at hsecond
    exact congrArg₂ (fun first second => [first, second]) (hstack s.sp) hsecond
  | _ => rfl

/-- **The footprint of an instruction.**  Between instructions, before a bound opcode, a step
succeeds.

* It does nothing to the bus but its writes: one at the data address for a store or a change of
  memory, one at the stack pointer for a push, two for a call, which pushes the address of its own
  last byte, the high byte first, and none for everything else.
* It changes no flag but those of `Operation.changedFlags`.
* It changes none of the registers A, X, Y and SP but those of `Operation.destinations`. -/
theorem stepInstruction_footprint (s : Cpu β) {b : Binding} (hpending : s.pending = 0)
    (hhalted : s.halted = false) (hbound : Opcode.binding? s.opcode = some b) :
    ∃ t, s.stepInstruction = .ok (s.cost b, t) ∧
      t.bus = Bus.writeAll s.bus s.instructionWrites ∧
      s.instructionWrites.map (fun w => w.address.toNat) = s.writtenAddresses b ∧
      (b.operation = .jsr →
        s.instructionWrites.map Bus.Access.value = [Word.high (s.pc + 2), Word.low (s.pc + 2)]) ∧
      Flags.SameBut b.operation.changedFlags t.flags s.flags ∧
      ∀ r ∉ b.operation.destinations b.mode, t.get r = s.get r := by
  have hstep := stepInstruction_eq_perform hpending hhalted hbound
  have hwrites := instructionWrites_of_binding? hpending hhalted hbound
  refine ⟨_, hstep, ?_, ?_, ?_, ?_, ?_⟩
  · have hbus := (s.fetched.agree_recorded.perform (Bus.isBisimulation_follows s.bus) b
      b.operation.effect).bus.2
    rw [recorded_perform_writes] at hbus
    rw [hwrites]
    exact hbus
  · rw [hwrites, map_address_effectWrites]
  · intro hjsr
    have hlast : s.pc + 1 + 1 = s.pc + 2 := UInt16.add_assoc _ _ _
    rw [hwrites, hjsr, ← hlast]
    rfl
  · rw [← Operation.changedFlags_effect]
    exact s.fetched.sameBut_perform b b.operation.effect
  · intro r hr
    rw [← destinations_effect_of_binding? hbound] at hr
    have hget := s.fetched.get_perform b hr
    cases r <;> exact hget

/-- A processor before `JSR $2000`, with the stack pointer at the end of the stack page. -/
def wrappingCall : Cpu (AddressSpace (Ram 3)) where
  a := 0x42
  sp := 0x00
  pc := 0x12FE
  bus := ⟨#[⟨⟨"code", 0x12FE, 0x1300⟩, ⟨#v[0x20, 0x00, 0x20]⟩⟩]⟩

/-- The second write of the call goes to the other end of the stack page. -/
theorem stepInstruction_footprint_wrappingCall :
    wrappingCall.pending = 0 ∧ wrappingCall.halted = false ∧
      Opcode.binding? wrappingCall.opcode = some ⟨.jsr, .absolute, 6, false⟩ ∧
      ∃ t, wrappingCall.stepInstruction = .ok (6, t) ∧
        wrappingCall.instructionWrites.map (fun w => w.address.toNat) = [0x0100, 0x01FF] ∧
        wrappingCall.instructionWrites.map Bus.Access.value = [0x13, 0x00] ∧
        Flags.SameBut {} t.flags wrappingCall.flags ∧ t.a = 0x42 := by
  have hbound : Opcode.binding? wrappingCall.opcode = some ⟨.jsr, .absolute, 6, false⟩ := by
    decide +kernel
  obtain ⟨t, hstep, -, haddresses, hvalues, hflags, hregisters⟩ :=
    wrappingCall.stepInstruction_footprint rfl rfl hbound
  exact ⟨rfl, rfl, hbound, t, hstep, haddresses, hvalues rfl, hflags, hregisters .a (by decide)⟩

end Cpu

end ChipScore
