import Mathlib.Tactic
import ChipScore.Proofs.Cpu.Ticks

/-!
# Processors that agree

Two processors may drive different buses.  If the buses are related by a bisimulation, that is, if
reads cannot tell them apart and writes keep them related, then processors that agree in their
registers, flags and counters go on agreeing: `Agree.perform` says so for one effect, with a lemma
beside it for each thing that an effect is made of, and `Agree.tick` and `Agree.run` say so for the
passing of time.

What happens to unbound opcodes is left out of the agreement.  Nothing but `Cpu.fault?` looks at the
policy, so two policies can be compared by processors that agree.

A property of one bus that writes keep is the special case of a relation between equal buses.
`tick_bus` and `run_bus` say that such a property survives the passing of time.
-/

namespace ChipScore

/-- A relation between buses that reads cannot tell apart and that writes keep. -/
structure Bus.IsBisimulation {β γ : Type} [Bus β] [Bus γ] (R : β → γ → Prop) : Prop where
  /-- Related buses hold the same bytes. -/
  read : ∀ {b : β} {c : γ}, R b c → ∀ address, Bus.read b address = Bus.read c address
  /-- Equal writes keep buses related. -/
  write : ∀ {b : β} {c : γ}, R b c → ∀ address value,
    R (Bus.write b address value) (Bus.write c address value)

/-- Equal buses cannot be told apart. -/
lemma Bus.isBisimulation_eq {β : Type} [Bus β] : Bus.IsBisimulation (· = · : β → β → Prop) where
  read h address := by rw [h]
  write h address value := by rw [h]

/-- Two processors agree when they differ in nothing but their policies and their buses, and the
buses are related. -/
structure Cpu.Agree {β γ : Type} (R : β → γ → Prop) (s : Cpu β) (t : Cpu γ) : Prop where
  a : s.a = t.a
  x : s.x = t.x
  y : s.y = t.y
  sp : s.sp = t.sp
  pc : s.pc = t.pc
  flags : s.flags = t.flags
  cycles : s.cycles = t.cycles
  pending : s.pending = t.pending
  halted : s.halted = t.halted
  bus : R s.bus t.bus

namespace Cpu

namespace Agree

variable {β γ : Type} {R : β → γ → Prop} {s : Cpu β} {t : Cpu γ}

/-- Spending the same cycles keeps the agreement. -/
lemma spend (h : Agree R s t) (n : Nat) : Agree R (s.spend n) (t.spend n) :=
  { h with pending := rfl }

/-- Skipping an operand keeps the agreement. -/
lemma skipOperand (h : Agree R s t) (mode : AddressingMode) :
    Agree R (s.skipOperand mode) (t.skipOperand mode) :=
  { h with pc := congrArg (· + _) h.pc }

/-- Processors that agree hold the same in every register. -/
lemma get (h : Agree R s t) (r : Register) : s.get r = t.get r := by
  cases r with
  | a => exact h.a
  | x => exact h.x
  | y => exact h.y
  | sp => exact h.sp

/-- Putting a byte into a register keeps the agreement. -/
lemma put (h : Agree R s t) (r : Register) (value : UInt8) :
    Agree R (s.put r value) (t.put r value) := by
  cases r with
  | a => exact { h with a := rfl }
  | x => exact { h with x := rfl }
  | y => exact { h with y := rfl }
  | sp => exact { h with sp := rfl }

/-- Putting a byte into a register and describing it by the flags keeps the agreement. -/
lemma putDescribed (h : Agree R s t) (r : Register) (value : UInt8) :
    Agree R (s.putDescribed r value) (t.putDescribed r value) :=
  { h.put r value with flags := congrArg (Flags.describe · value) h.flags }

/-- Combining the accumulator with a byte keeps the agreement. -/
lemma combine (h : Agree R s t) (c : Combination) (value : UInt8) :
    Agree R (s.combine c value) (t.combine c value) := by
  unfold Cpu.combine
  rw [h.a, h.flags]
  exact { h with a := rfl, flags := rfl }

/-- Loading a byte keeps the agreement. -/
lemma load (h : Agree R s t) (d : DataRegister) (value : UInt8) :
    Agree R (s.load d value) (t.load d value) := by
  have hflags : s.flags.describe value = t.flags.describe value := by rw [h.flags]
  cases d with
  | a => exact { h with a := rfl, flags := hflags }
  | x => exact { h with x := rfl, flags := hflags }
  | y => exact { h with y := rfl, flags := hflags }
  | ax => exact { h with a := rfl, x := rfl, flags := hflags }

/-- Processors that agree store the same byte. -/
lemma driven (h : Agree R s t) (d : DataRegister) : s.driven d = t.driven d := by
  cases d with
  | a => exact h.a
  | x => exact h.x
  | y => exact h.y
  | ax => exact congrArg₂ (· &&& ·) h.a h.x

/-- Moving the stack pointer up keeps the agreement. -/
lemma pop (h : Agree R s t) : Agree R s.pop t.pop :=
  { h with sp := congrArg (· + 1) h.sp }

/-- Of processors that agree, both dispatch with the next tick or neither does. -/
lemma dispatches (h : Agree R s t) : s.dispatches = t.dispatches := by
  rw [Cpu.dispatches, Cpu.dispatches, h.pending, h.halted]

/-- Letting a tick pass keeps the agreement. -/
lemma pass (h : Agree R s t) : Agree R s.pass t.pass :=
  { h with pending := congrArg (· - 1) h.pending, cycles := congrArg (· + 1) h.cycles }

variable [Bus β] [Bus γ]

/-! ### What is read and written -/

/-- Processors that agree read the same byte. -/
lemma read (hR : Bus.IsBisimulation R) (h : Agree R s t) (address : UInt16) :
    s.read address = t.read address :=
  hR.read h.bus address

/-- Writing the same byte keeps the agreement, for it keeps the buses related. -/
lemma write (hR : Bus.IsBisimulation R) (h : Agree R s t) (address : UInt16) (value : UInt8) :
    Agree R (s.write address value) (t.write address value) :=
  { h with bus := hR.write h.bus address value }

/-- Processors that agree have the same operand byte. -/
lemma operandByte (hR : Bus.IsBisimulation R) (h : Agree R s t) :
    s.operandByte = t.operandByte := by
  rw [Cpu.operandByte, Cpu.operandByte, h.read hR, h.pc]

/-- Processors that agree have the same operand word. -/
lemma operandWord (hR : Bus.IsBisimulation R) (h : Agree R s t) :
    s.operandWord = t.operandWord := by
  rw [Cpu.operandWord, Cpu.operandWord, Bus.readWord, Bus.readWord, hR.read h.bus,
    hR.read h.bus, h.pc]

/-- Processors that agree find the same address in page zero. -/
lemma pointer (hR : Bus.IsBisimulation R) (h : Agree R s t) (address : UInt8) :
    s.pointer address = t.pointer address := by
  rw [Cpu.pointer, Cpu.pointer, h.read hR, h.read hR]

/-- Processors that agree have the same operand, with the same penalty. -/
lemma operand? (hR : Bus.IsBisimulation R) (h : Agree R s t) (mode : AddressingMode) :
    s.operand? mode = t.operand? mode := by
  cases mode <;> simp only [Cpu.operand?, h.operandByte hR, h.operandWord hR, h.pointer hR, h.pc,
    h.x, h.y]

/-- Processors that agree jump to the same address. -/
lemma jumpTarget (hR : Bus.IsBisimulation R) (h : Agree R s t) (mode : AddressingMode) :
    s.jumpTarget mode = t.jumpTarget mode := by
  cases mode <;> simp only [Cpu.jumpTarget, h.operandWord hR, h.read hR]

/-- Changing a byte in memory keeps the agreement. -/
lemma modifyAt (hR : Bus.IsBisimulation R) (h : Agree R s t) (m : Modification)
    (address : UInt16) : Agree R (s.modifyAt m address) (t.modifyAt m address) := by
  unfold Cpu.modifyAt
  rw [h.read hR, h.flags]
  exact { h with flags := rfl, bus := hR.write h.bus _ _ }

/-- Pushing a byte keeps the agreement. -/
lemma push (hR : Bus.IsBisimulation R) (h : Agree R s t) (value : UInt8) :
    Agree R (s.push value) (t.push value) := by
  unfold Cpu.push
  rw [h.sp]
  exact { h with sp := rfl, bus := hR.write h.bus _ _ }

/-- Pushing a word keeps the agreement. -/
lemma pushWord (hR : Bus.IsBisimulation R) (h : Agree R s t) (value : UInt16) :
    Agree R (s.pushWord value) (t.pushWord value) :=
  (h.push hR _).push hR _

/-- Processors that agree have the same byte at the top of the stack. -/
lemma top (hR : Bus.IsBisimulation R) (h : Agree R s t) : s.top = t.top := by
  rw [Cpu.top, Cpu.top, h.read hR, h.sp]

/-- A branch keeps the agreement, taken or not. -/
lemma branch (hR : Bus.IsBisimulation R) (h : Agree R s t) (taken : Bool) (cycles : Nat) :
    Agree R (s.branch taken cycles) (t.branch taken cycles) := by
  unfold Cpu.branch
  rw [h.operandByte hR, h.pc]
  split
  · exact { h with pc := rfl, pending := rfl }
  · exact { h with pc := rfl, pending := rfl }

/-! ### What an instruction does -/

/-- An effect keeps processors in agreement. -/
lemma perform (hR : Bus.IsBisimulation R) (h : Agree R s t) (b : Binding) (e : Effect) :
    Agree R (s.perform b e) (t.perform b e) := by
  -- the effects that look for an operand do nothing in a mode without one
  cases e with
  | combine c =>
    simp only [Cpu.perform, ← h.operand? hR, ← h.read hR]
    cases s.operand? b.mode with
    | none => exact h
    | some o => exact ((h.skipOperand b.mode).combine c _).spend _
  | compareRegister r =>
    simp only [Cpu.perform, ← h.operand? hR, ← h.read hR, ← h.flags, ← h.get r]
    cases s.operand? b.mode with
    | none => exact h
    | some o => exact { (h.skipOperand b.mode).spend b.cycles with flags := rfl }
  | testBits =>
    simp only [Cpu.perform, ← h.operand? hR, ← h.read hR, ← h.flags, ← h.a]
    cases s.operand? b.mode with
    | none => exact h
    | some o => exact { (h.skipOperand b.mode).spend b.cycles with flags := rfl }
  | load d =>
    simp only [Cpu.perform, ← h.operand? hR, ← h.read hR]
    cases s.operand? b.mode with
    | none => exact h
    | some o => exact ((h.skipOperand b.mode).load d _).spend _
  | store d =>
    simp only [Cpu.perform, ← h.operand? hR, ← h.driven d]
    cases s.operand? b.mode with
    | none => exact h
    | some o => exact ((h.skipOperand b.mode).write hR _ _).spend _
  | modify m =>
    simp only [Cpu.perform, ← h.operand? hR, ← h.flags, ← h.a]
    cases s.operand? b.mode with
    | none => exact { h with a := rfl, flags := rfl, pending := rfl }
    | some o => exact ((h.skipOperand b.mode).modifyAt hR m _).spend _
  | modifyCombine m c =>
    simp only [Cpu.perform, ← h.operand? hR, ← h.read hR, ← h.flags, ← h.a]
    cases s.operand? b.mode with
    | none => exact h
    | some o =>
      exact { (h.skipOperand b.mode).write hR o.address _ with
        a := rfl, flags := rfl, pending := rfl }
  | modifyRegister r m =>
    simp only [Cpu.perform, ← h.get r]
    exact (h.putDescribed r _).spend _
  | transfer source target =>
    cases target with
    | sp =>
      simp only [Cpu.perform, ← h.get source]
      exact (h.put .sp _).spend _
    | a | x | y =>
      simp only [Cpu.perform, ← h.get source]
      exact (h.putDescribed _ _).spend _
  | assign f value =>
    exact { h with flags := congrArg (Flags.assign · f value) h.flags, pending := rfl }
  | branch f value =>
    simp only [Cpu.perform, ← h.flags]
    exact h.branch hR _ _
  | pushAccumulator =>
    simp only [Cpu.perform, ← h.a]
    exact (h.push hR _).spend _
  | pushStatus =>
    simp only [Cpu.perform, ← h.flags]
    exact (h.push hR _).spend _
  | pullAccumulator =>
    simp only [Cpu.perform, ← h.top hR]
    exact (h.pop.putDescribed .a _).spend _
  | pullStatus =>
    simp only [Cpu.perform, ← h.top hR, ← h.flags]
    exact { h.pop with flags := rfl, pending := rfl }
  | jump => exact { h with pc := h.jumpTarget hR b.mode, pending := rfl }
  | call =>
    simp only [Cpu.perform, ← h.operandWord hR, ← h.pc]
    exact { h.pushWord hR _ with pc := rfl, pending := rfl }
  | returnFromCall =>
    simp only [Cpu.perform, ← h.top hR, ← h.pop.top hR]
    exact { h.pop.pop with pc := rfl, pending := rfl }
  | returnFromInterrupt =>
    simp only [Cpu.perform, ← h.top hR, ← h.pop.top hR, ← h.pop.pop.top hR, ← h.flags]
    exact { h.pop.pop.pop with pc := rfl, flags := rfl, pending := rfl }
  | halt =>
    exact { h with
      flags := congrArg (fun f : Flags => { f with brk := true }) h.flags
      halted := rfl
      pending := rfl }
  | idle =>
    simp only [Cpu.perform, ← h.operand? hR]
    cases s.operand? b.mode with
    | none => exact h.spend _
    | some o => exact (h.skipOperand b.mode).spend _

/-- Processors that agree are in front of the same opcode. -/
lemma opcode (hR : Bus.IsBisimulation R) (h : Agree R s t) : s.opcode = t.opcode := by
  rw [Cpu.opcode, Cpu.opcode, h.read hR, h.pc]

/-- Dispatching keeps the agreement. -/
lemma dispatch (hR : Bus.IsBisimulation R) (h : Agree R s t) : Agree R s.dispatch t.dispatch := by
  have hfetched : Agree R { s with pc := s.pc + 1 } { t with pc := t.pc + 1 } :=
    { h with pc := congrArg (· + 1) h.pc }
  unfold Cpu.dispatch
  rw [← h.opcode hR]
  cases Opcode.binding? s.opcode with
  | none => exact { hfetched with pending := rfl }
  | some b => exact hfetched.perform hR b _

/-! ### The passing of time -/

/-- Processors that agree still agree after a tick. -/
lemma tick (hR : Bus.IsBisimulation R) (h : Agree R s t) : Agree R s.tick t.tick := by
  unfold Cpu.tick
  rw [← h.dispatches]
  split
  · exact (h.dispatch hR).pass
  · exact h.pass

/-- A number of ticks keeps the agreement. -/
lemma ticks (hR : Bus.IsBisimulation R) (h : Agree R s t) (n : Nat) :
    Agree R (s.ticks n) (t.ticks n) := by
  induction n generalizing s t with
  | zero => exact h
  | succ n ih => exact ih (h.tick hR)

/-- Under one policy, processors that agree meet the same faults. -/
lemma fault? (hR : Bus.IsBisimulation R) (h : Agree R s t) (hpolicy : s.policy = t.policy) :
    s.fault? = t.fault? := by
  rw [Cpu.fault?, Cpu.fault?, h.dispatches, h.opcode hR, h.pc, hpolicy]

/-- A call keeps processors in agreement. -/
lemma call (hR : Bus.IsBisimulation R) (h : Agree R s t) (address : UInt16) :
    Agree R (s.call address) (t.call address) := by
  have hresumed : Agree R { s.resume with sp := 0xFF } { t.resume with sp := 0xFF } :=
    { h with
      sp := rfl
      flags := congrArg (fun f : Flags => { f with brk := false }) h.flags
      halted := rfl }
  exact { (hresumed.pushWord hR _).write hR returnTrap 0 with pc := rfl, pending := rfl }

omit [Bus β] [Bus γ] in
/-- Processors that agree on one bus differ in nothing but their policies. -/
lemma eq_with_policy {s t : Cpu β} (h : Agree (· = ·) s t) : t = { s with policy := t.policy } := by
  cases s
  cases t
  obtain ⟨rfl, rfl, rfl, rfl, rfl, rfl, rfl, rfl, rfl, rfl⟩ := h
  rfl

end Agree

/-! ### The policy stays what it is -/

section Policy

variable {β γ : Type} [Bus β] [Bus γ]

/-- No effect changes the policy. -/
lemma perform_policy (s : Cpu β) (b : Binding) (e : Effect) :
    (s.perform b e).policy = s.policy := by
  cases e with
  | combine | compareRegister | testBits | store | modify | modifyCombine | idle =>
    rw [perform]
    cases s.operand? b.mode <;> rfl
  | load d =>
    rw [perform]
    cases s.operand? b.mode with
    | none => rfl
    | some o => cases d <;> rfl
  | modifyRegister r m => cases r <;> rfl
  | transfer source target => cases target <;> rfl
  | pullAccumulator => rfl
  | branch f value =>
    rw [perform, branch]
    split <;> rfl
  | _ => rfl

/-- No tick changes the policy. -/
@[simp]
lemma tick_policy (s : Cpu β) : s.tick.policy = s.policy := by
  unfold tick dispatch
  split
  · split
    · exact perform_policy _ _ _
    · rfl
  · rfl

/-- Under one policy, processors that agree run alike, up to the same fault. -/
lemma Agree.run {R : β → γ → Prop} (hR : Bus.IsBisimulation R) {s : Cpu β} {t : Cpu γ}
    (h : Agree R s t) (hpolicy : s.policy = t.policy) (n : Nat) :
    Agree R (s.run n).1 (t.run n).1 ∧ (s.run n).2 = (t.run n).2 := by
  induction n generalizing s t with
  | zero => exact ⟨h, rfl⟩
  | succ n ih =>
    unfold Cpu.run
    rw [← h.fault? hR hpolicy]
    cases s.fault? with
    | some f => exact ⟨h, rfl⟩
    | none => exact ih (h.tick hR) (by rw [tick_policy, tick_policy, hpolicy])

end Policy

/-! ### Properties of the bus -/

section Invariants

variable {β : Type} {I : β → Prop}

/-- A processor agrees with itself, also about what is known of its bus. -/
lemma Agree.self {s : Cpu β} (h : I s.bus) : Agree (fun b c => b = c ∧ I b) s s :=
  ⟨rfl, rfl, rfl, rfl, rfl, rfl, rfl, rfl, rfl, rfl, h⟩

variable [Bus β]

/-- A property of a bus that writes keep, as a relation between equal buses. -/
lemma isBisimulation_of_write (hI : ∀ bus address value, I bus → I (Bus.write bus address value)) :
    Bus.IsBisimulation fun b c : β => b = c ∧ I b where
  read h address := by rw [h.1]
  write := by
    rintro b _ ⟨rfl, hb⟩ address value
    exact ⟨rfl, hI b address value hb⟩

/-- A property of the bus that writes keep survives a tick. -/
lemma tick_bus (hI : ∀ bus address value, I bus → I (Bus.write bus address value)) {s : Cpu β}
    (h : I s.bus) : I s.tick.bus :=
  ((Agree.self h).tick (isBisimulation_of_write hI)).bus.2

/-- A property of the bus that writes keep survives a run. -/
lemma run_bus (hI : ∀ bus address value, I bus → I (Bus.write bus address value)) {s : Cpu β}
    (h : I s.bus) (n : Nat) : I (s.run n).1.bus :=
  ((Agree.self h).run (isBisimulation_of_write hI) rfl n).1.bus.2

/-- A property of the bus that writes keep survives a run to the halt. -/
lemma runToHalt_bus (hI : ∀ bus address value, I bus → I (Bus.write bus address value))
    {s : Cpu β} (h : I s.bus) (n : Nat) : I (s.runToHalt n).1.bus := by
  induction n generalizing s with
  | zero => exact h
  | succ n ih =>
    unfold runToHalt
    split
    · exact h
    · split
      · exact h
      · exact ih (tick_bus hI h)

/-- A property of the bus that writes keep survives a call. -/
lemma call_bus (hI : ∀ bus address value, I bus → I (Bus.write bus address value)) {s : Cpu β}
    (h : I s.bus) (address : UInt16) : I (s.call address).bus :=
  ((Agree.self h).call (isBisimulation_of_write hI) address).bus.2

end Invariants

end Cpu

end ChipScore
