import Mathlib.Tactic
import ChipScore.Bus.AddressSpace
import ChipScore.Proofs.Bus.Cells
import ChipScore.Proofs.Cpu.Faults

/-!
# Flags that no program observes

No instruction looks at the break flag: pushing the status byte shows it set whatever it is, and
pulling a status byte keeps it.  The decimal and the interrupt flag are stored and not consulted
either, but pushing the status byte does show them.

A `Veil` is one of these two sets of hidden flags.  Two processors are the same behind a veil when
they differ in nothing but the hidden flags and the count of ticks.  An effect that does not reveal a
hidden flag (`Effect.reveals`) keeps them the same (`Cpu.SameBehind.perform`); a step does so too,
and reports the same for both (`Cpu.SameBehind.attempt`).  That pushing the status byte is the only
operation to reveal anything is a fact about the table of effects, `Operation.eq_php_of_reveals`.
-/

namespace ChipScore

/-- The flags that are hidden from a program. -/
inductive Veil
  /-- The break flag. -/
  | brk
  /-- The break flag, the decimal flag and the interrupt flag. -/
  | modes
  deriving DecidableEq

/-- Two sets of flags differ in hidden flags only. -/
structure Flags.SameBehind (v : Veil) (f g : Flags) : Prop where
  negative : f.negative = g.negative
  overflow : f.overflow = g.overflow
  zero : f.zero = g.zero
  carry : f.carry = g.carry
  decimal : v = .brk → f.decimal = g.decimal
  interruptDisable : v = .brk → f.interruptDisable = g.interruptDisable

/-- Whether an effect depends on a hidden flag. -/
def Effect.reveals (v : Veil) : Effect → Bool
  | pushStatus | branch .decimal _ | branch .interruptDisable _ => v == .modes
  | _ => false

/-- Only pushing the status byte reveals a hidden flag, and then it is one of the modes. -/
lemma Operation.eq_php_of_reveals {v : Veil} {operation : Operation}
    (h : operation.effect.reveals v = true) : v = .modes ∧ operation = .php := by
  cases operation with
  | php => exact ⟨by simpa [Operation.effect, Effect.reveals] using h, rfl⟩
  | _ => cases h

namespace Flags.SameBehind

variable {v : Veil} {f g : Flags}

/-- Describing a result leaves flags that differ in hidden ones only. -/
lemma describe (h : SameBehind v f g) (result : UInt8) :
    SameBehind v (f.describe result) (g.describe result) :=
  { h with negative := rfl, zero := rfl }

/-- Comparing a register with a byte leaves flags that differ in hidden ones only. -/
lemma compare (h : SameBehind v f g) (register value : UInt8) :
    SameBehind v (f.compare register value) (g.compare register value) :=
  { h with negative := rfl, zero := rfl, carry := rfl }

/-- Testing bits leaves flags that differ in hidden ones only. -/
lemma testBits (h : SameBehind v f g) (a value : UInt8) :
    SameBehind v (f.testBits a value) (g.testBits a value) :=
  { h with negative := rfl, overflow := rfl, zero := rfl }

/-- Assigning a flag leaves flags that differ in hidden ones only, also if it is one of these. -/
lemma assign (h : SameBehind v f g) (flag : Flag) (value : Bool) :
    SameBehind v (f.assign flag value) (g.assign flag value) := by
  cases flag with
  | negative => exact { h with negative := rfl }
  | overflow => exact { h with overflow := rfl }
  | decimal => exact { h with decimal := fun _ => rfl }
  | interruptDisable => exact { h with interruptDisable := fun _ => rfl }
  | zero => exact { h with zero := rfl }
  | carry => exact { h with carry := rfl }

/-- A status byte that is pulled replaces everything but the break flag. -/
lemma restore (v : Veil) (f g : Flags) (value : UInt8) :
    SameBehind v (f.restore value) (g.restore value) :=
  ⟨rfl, rfl, rfl, rfl, fun _ => rfl, fun _ => rfl⟩

/-- Combining the accumulator with a byte depends on no hidden flag. -/
lemma combined (h : SameBehind v f g) (c : Combination) (a value : UInt8) :
    (c.apply f a value).1 = (c.apply g a value).1 ∧
      SameBehind v (c.apply f a value).2 (c.apply g a value).2 := by
  have hadd (term : UInt8) : (f.addWithCarry a term).1 = (g.addWithCarry a term).1 ∧
      SameBehind v (f.addWithCarry a term).2 (g.addWithCarry a term).2 := by
    unfold Flags.addWithCarry
    rw [h.carry]
    exact ⟨rfl, { h.describe _ with carry := rfl, overflow := rfl }⟩
  cases c with
  | add => exact hadd value
  | subtract => exact hadd (value ^^^ 0xFF)
  | and | or | xor => exact ⟨rfl, h.describe _⟩
  | compare => exact ⟨rfl, h.compare a value⟩

/-- Changing a byte depends on no hidden flag. -/
lemma modified (h : SameBehind v f g) (m : Modification) (value : UInt8) :
    (m.apply f value).1 = (m.apply g value).1 ∧
      SameBehind v (m.apply f value).2 (m.apply g value).2 := by
  unfold Modification.apply
  rw [h.carry]
  exact ⟨rfl, { h with negative := rfl, zero := rfl, carry := rfl }⟩

/-- A branch that reveals nothing tests the same flag value. -/
lemma get (h : SameBehind v f g) {flag : Flag} {value : Bool}
    (hreveals : (Effect.branch flag value).reveals v = false) : f.get flag = g.get flag := by
  have hbrk (hmodes : (v == .modes) = false) : v = .brk := by
    cases v with
    | brk => rfl
    | modes => cases hmodes
  cases flag with
  | negative => exact h.negative
  | overflow => exact h.overflow
  | decimal => exact h.decimal (hbrk hreveals)
  | interruptDisable => exact h.interruptDisable (hbrk hreveals)
  | zero => exact h.zero
  | carry => exact h.carry

/-- The status byte is pushed with the break flag set. -/
lemma toByte_brk (h : SameBehind .brk f g) :
    { f with brk := true }.toByte = { g with brk := true }.toByte := by
  simp only [toByte, h.negative, h.overflow, h.zero, h.carry, h.decimal rfl, h.interruptDisable rfl]

end Flags.SameBehind

/-- Two processors differ in hidden flags and in the count of ticks only. -/
structure Cpu.SameBehind {β : Type} (v : Veil) (s t : Cpu β) : Prop where
  flags : s.flags.SameBehind v t.flags
  rest : t = { s with flags := t.flags, cycles := t.cycles }

namespace Cpu

variable {β : Type}

/-- The next tick dispatches an instruction with a given operation. -/
def Executes [Bus β] (s : Cpu β) (operation : Operation) : Prop :=
  s.dispatches = true ∧ (Opcode.binding? s.opcode).map Binding.operation = some operation

instance [Bus β] (s : Cpu β) (operation : Operation) : Decidable (s.Executes operation) :=
  inferInstanceAs (Decidable (_ ∧ _))

namespace SameBehind

variable {v : Veil} {s t : Cpu β}

/-- What is given other flags and another count of ticks is the same behind the veil, if the flags
are. -/
lemma of_eq {flags : Flags} (cycles : Nat) (hflags : s.flags.SameBehind v flags)
    (h : t = { s with flags := flags, cycles := cycles }) : SameBehind v s t := by
  subst h
  exact ⟨hflags, rfl⟩

/-- Spending cycles keeps processors the same behind the veil. -/
lemma spend (h : SameBehind v s t) (n : Nat) : SameBehind v (s.spend n) (t.spend n) := by
  rw [h.rest]
  exact of_eq t.cycles h.flags rfl

/-- Skipping an operand keeps processors the same behind the veil. -/
lemma skipOperand (h : SameBehind v s t) (mode : AddressingMode) :
    SameBehind v (s.skipOperand mode) (t.skipOperand mode) := by
  rw [h.rest]
  exact of_eq t.cycles h.flags rfl

/-- Combining the accumulator with a byte keeps processors the same behind the veil. -/
lemma combine (h : SameBehind v s t) (c : Combination) (value : UInt8) :
    SameBehind v (s.combine c value) (t.combine c value) := by
  obtain ⟨ha, hflags⟩ := h.flags.combined c s.a value
  rw [h.rest]
  refine of_eq t.cycles hflags ?_
  simp only [Cpu.combine, ha]

/-- Letting a tick pass keeps processors the same behind the veil. -/
lemma pass (h : SameBehind v s t) : SameBehind v s.pass t.pass := by
  rw [h.rest]
  exact of_eq _ h.flags rfl

/-- Behind the veil, both dispatch with the next tick or neither does. -/
lemma dispatches (h : SameBehind v s t) : s.dispatches = t.dispatches := by
  rw [h.rest]
  rfl

/-- A veil does not hide the policy. -/
lemma policy (h : SameBehind v s t) : s.policy = t.policy := by
  rw [h.rest]

/-- A veil does not hide the program counter. -/
lemma pc (h : SameBehind v s t) : s.pc = t.pc := by
  rw [h.rest]

variable [Bus β]

/-- A veil does not hide the opcode at the program counter. -/
lemma opcode (h : SameBehind v s t) : s.opcode = t.opcode := by
  rw [h.rest]
  rfl

/-- A veil does not hide the fault that is met next. -/
lemma fault? (h : SameBehind v s t) : s.fault? = t.fault? := by
  rw [Cpu.fault?, Cpu.fault?, h.dispatches, h.policy, h.opcode, h.pc]

/-- Changing a byte in memory keeps processors the same behind the veil. -/
lemma modifyAt (h : SameBehind v s t) (m : Modification) (address : UInt16) :
    SameBehind v (s.modifyAt m address) (t.modifyAt m address) := by
  obtain ⟨hvalue, hflags⟩ := h.flags.modified m (Bus.read s.bus address)
  rw [h.rest]
  refine of_eq t.cycles hflags ?_
  simp only [Cpu.modifyAt, Cpu.read, hvalue]

/-- Pushing a byte keeps processors the same behind the veil. -/
lemma push (h : SameBehind v s t) (value : UInt8) : SameBehind v (s.push value) (t.push value) := by
  rw [h.rest]
  exact of_eq t.cycles h.flags rfl

/-- An effect that reveals no hidden flag keeps processors the same behind the veil. -/
lemma perform (h : SameBehind v s t) (b : Binding) {e : Effect} (he : e.reveals v = false) :
    SameBehind v (s.perform b e) (t.perform b e) := by
  obtain ⟨hflags, hrest⟩ := h
  generalize t.flags = g at hflags hrest
  generalize t.cycles = cycles at hrest
  subst hrest
  -- where the operand lies, and what lies there, does not depend on the flags
  have hoperand : ({ s with flags := g, cycles := cycles } : Cpu β).operand? b.mode =
      s.operand? b.mode := rfl
  have hsame : SameBehind v s { s with flags := g, cycles := cycles } := of_eq cycles hflags rfl
  cases e with
  | combine c =>
    simp only [Cpu.perform, hoperand]
    cases s.operand? b.mode with
    | none => exact hsame
    | some o => exact ((hsame.skipOperand b.mode).combine c (s.read o.address)).spend _
  | compareRegister r =>
    simp only [Cpu.perform, hoperand]
    cases s.operand? b.mode with
    | none => exact hsame
    | some o => exact of_eq cycles (hflags.compare (s.get r) (s.read o.address)) rfl
  | testBits =>
    simp only [Cpu.perform, hoperand]
    cases s.operand? b.mode with
    | none => exact hsame
    | some o => exact of_eq cycles (hflags.testBits s.a (s.read o.address)) rfl
  | load d =>
    simp only [Cpu.perform, hoperand]
    cases s.operand? b.mode with
    | none => exact hsame
    | some o => cases d <;> exact of_eq cycles (hflags.describe (s.read o.address)) rfl
  | store d =>
    simp only [Cpu.perform, hoperand]
    cases s.operand? b.mode with
    | none => exact hsame
    | some o => exact of_eq cycles hflags rfl
  | modify m =>
    simp only [Cpu.perform, hoperand]
    cases s.operand? b.mode with
    | none =>
      obtain ⟨ha, hmodified⟩ := hflags.modified m s.a
      refine of_eq cycles hmodified ?_
      simp only [ha]
    | some o => exact ((hsame.skipOperand b.mode).modifyAt m o.address).spend _
  | modifyCombine m c =>
    simp only [Cpu.perform, hoperand]
    cases s.operand? b.mode with
    | none => exact hsame
    | some o =>
      -- the accumulator is combined with equal bytes
      obtain ⟨hvalue, hmodified⟩ := hflags.modified m (s.read o.address)
      obtain ⟨ha, hcombined⟩ := hmodified.combined c s.a (m.apply s.flags (s.read o.address)).1
      refine of_eq cycles hcombined ?_
      simp only [Cpu.skipOperand, Cpu.write, Cpu.read] at ha hvalue ⊢
      simp only [← hvalue, ← ha]
  | modifyRegister r m => cases r <;> exact of_eq cycles (hflags.describe _) rfl
  | transfer source target =>
    cases target with
    | sp => exact of_eq cycles hflags rfl
    | a | x | y => exact of_eq cycles (hflags.describe (s.get source)) rfl
  | assign flag value => exact of_eq cycles (hflags.assign flag value) rfl
  | branch flag value =>
    simp only [Cpu.perform, Cpu.branch, hflags.get he]
    split
    · exact of_eq cycles hflags rfl
    · exact of_eq cycles hflags rfl
  | pushStatus =>
    have hbyte : { s.flags with brk := true }.toByte = { g with brk := true }.toByte := by
      cases v with
      | brk => exact hflags.toByte_brk
      | modes => cases he
    simp only [Cpu.perform, ← hbyte]
    exact of_eq cycles hflags rfl
  | pullAccumulator => exact of_eq cycles (hflags.describe s.top) rfl
  | pullStatus | returnFromInterrupt => exact of_eq cycles (.restore v s.flags g s.top) rfl
  | pushAccumulator | jump | call | returnFromCall => exact of_eq cycles hflags rfl
  | halt =>
    have hbroken : Flags.SameBehind v { s.flags with brk := true } { g with brk := true } :=
      { hflags with }
    exact of_eq cycles hbroken rfl
  | idle =>
    simp only [Cpu.perform, hoperand]
    cases s.operand? b.mode with
    | none => exact hsame.spend _
    | some o => exact (hsame.skipOperand b.mode).spend _

/-- An instruction that does not depend on a hidden flag keeps processors the same behind the veil.
-/
lemma dispatch (h : SameBehind v s t)
    (hreveals : ∀ b, Opcode.binding? s.opcode = some b → b.operation.effect.reveals v = false) :
    SameBehind v s.dispatch t.dispatch := by
  have hfetched : SameBehind v s.fetched t.fetched := by
    rw [h.rest]
    exact of_eq t.cycles h.flags rfl
  unfold Cpu.dispatch
  rw [← h.opcode]
  cases hbound : Opcode.binding? s.opcode with
  | none => exact hfetched.spend 1
  | some b => exact hfetched.perform b (hreveals b hbound)

/-- A tick keeps processors the same behind a veil, unless it pushes the status byte and the modes
are hidden. -/
lemma tick (h : SameBehind v s t) (hphp : v = .modes → ¬s.Executes .php) :
    SameBehind v s.tick t.tick := by
  unfold Cpu.tick
  rw [← h.dispatches]
  split_ifs with hdispatches
  · refine (h.dispatch fun b hbound => ?_).pass
    by_contra hreveals
    obtain ⟨hmodes, hoperation⟩ := Operation.eq_php_of_reveals (by simpa using hreveals)
    exact hphp hmodes ⟨hdispatches, by rw [hbound, Option.map_some, hoperation]⟩
  · exact h.pass

/-- A step reports the same for processors that are the same behind a veil. -/
lemma attempt (h : SameBehind v s t) (hphp : v = .modes → ¬s.Executes .php) :
    SameBehind v s.attempt.1 t.attempt.1 ∧ s.attempt.2 = t.attempt.2 := by
  rw [attempt_eq, attempt_eq, step, step, ← h.fault?]
  cases s.fault? with
  | some f => exact ⟨h, rfl⟩
  | none => exact ⟨h.tick hphp, rfl⟩

/-- Any number of steps keeps processors the same behind the veil and reports the same, provided
that the status is not pushed. -/
lemma attempts (h : SameBehind v s t) {n : Nat}
    (hphp : v = .modes → ∀ k < n, ¬(s.attempts k).1.Executes .php) :
    SameBehind v (s.attempts n).1 (t.attempts n).1 ∧ (s.attempts n).2 = (t.attempts n).2 := by
  induction n generalizing s t with
  | zero => exact ⟨h, rfl⟩
  | succ n ih =>
    obtain ⟨hfirst, hreport⟩ := h.attempt fun hv => hphp hv 0 (Nat.succ_pos n)
    obtain ⟨hrest, hreports⟩ := ih hfirst fun hv k hk => hphp hv (k + 1) (Nat.succ_lt_succ hk)
    exact ⟨hrest, congrArg₂ List.cons hreport hreports⟩

end SameBehind

/-! ### The writes of steps -/

section Writes

variable {γ : Type} {R : β → γ → Prop} {s : Cpu β} {t : Cpu γ} [Bus β] [Bus γ]

/-- A step keeps the policy, faults or not. -/
lemma attempt_policy (s : Cpu β) : s.attempt.1.policy = s.policy := by
  rw [attempt_eq, step]
  cases s.fault? with
  | some f => rfl
  | none => exact s.tick_policy

/-- Under one policy, processors that agree make their next step alike. -/
lemma Agree.attempt (hR : Bus.IsBisimulation R) (h : Agree R s t) (hpolicy : s.policy = t.policy) :
    Agree R s.attempt.1 t.attempt.1 ∧ s.attempt.2 = t.attempt.2 := by
  rw [attempt_eq, attempt_eq, step, step, ← h.fault? hR hpolicy]
  cases s.fault? with
  | some f => exact ⟨h, rfl⟩
  | none => exact ⟨h.tick hR, rfl⟩

/-- Under one policy, processors that agree make their steps alike. -/
lemma Agree.attempts (hR : Bus.IsBisimulation R) (h : Agree R s t) (hpolicy : s.policy = t.policy)
    (n : Nat) :
    Agree R (s.attempts n).1 (t.attempts n).1 ∧ (s.attempts n).2 = (t.attempts n).2 := by
  induction n generalizing s t with
  | zero => exact ⟨h, rfl⟩
  | succ n ih =>
    obtain ⟨hfirst, hreport⟩ := h.attempt hR hpolicy
    obtain ⟨hrest, hreports⟩ := ih hfirst (by rw [attempt_policy, attempt_policy, hpolicy])
    exact ⟨hrest, congrArg₂ List.cons hreport hreports⟩

/-- Processors that agree execute the same operation next. -/
lemma Agree.executes_iff (hR : Bus.IsBisimulation R) (h : Agree R s t) (operation : Operation) :
    s.Executes operation ↔ t.Executes operation := by
  rw [Executes, Executes, h.dispatches, h.opcode hR]

end Writes

variable [Bus β]

/-- Steps report the same and write the same for processors that are the same behind a veil. -/
lemma SameBehind.observed {v : Veil} {s t : Cpu β} (h : SameBehind v s t) {n : Nat}
    (hphp : v = .modes → ∀ k < n, ¬(s.attempts k).1.Executes .php) :
    (s.attempts n).2 = (t.attempts n).2 ∧
      (s.recorded.attempts n).1.bus.writes = (t.recorded.attempts n).1.bus.writes ∧
      SameBehind v (s.attempts n).1 (t.attempts n).1 := by
  obtain ⟨hsame, hreports⟩ := h.attempts hphp
  have hrecorded : SameBehind v s.recorded t.recorded := by
    rw [h.rest]
    exact .of_eq t.cycles h.flags rfl
  have hrecordedPhp : v = .modes → ∀ k < n, ¬(s.recorded.attempts k).1.Executes .php := by
    intro hv k hk hexecutes
    have hR := Bus.isBisimulation_follows s.bus
    exact hphp hv k hk
      (((s.agree_recorded.attempts hR rfl k).1.executes_iff hR .php).mp hexecutes)
  refine ⟨hreports, ?_, hsame⟩
  rw [(hrecorded.attempts hrecordedPhp).1.rest]

/-- **Which flags a program can observe.**  Let two processors be given on equal buses.

* If they differ in the break flag and in the count of ticks only, then any number of steps reports
  the same for both, makes the same writes in the same order, and leads to processors that differ in
  nothing more.
* If they differ in the decimal and the interrupt flag as well, the same is true of steps that never
  push the status byte.
* No combination of the accumulator with a byte depends on the decimal flag. -/
theorem flags_unobserved (s t : Cpu β) (n : Nat) :
    (SameBehind .brk s t →
      (s.attempts n).2 = (t.attempts n).2 ∧
        (s.recorded.attempts n).1.bus.writes = (t.recorded.attempts n).1.bus.writes ∧
        SameBehind .brk (s.attempts n).1 (t.attempts n).1) ∧
    (SameBehind .modes s t → (∀ k < n, ¬(s.attempts k).1.Executes .php) →
      (s.attempts n).2 = (t.attempts n).2 ∧
        (s.recorded.attempts n).1.bus.writes = (t.recorded.attempts n).1.bus.writes ∧
        SameBehind .modes (s.attempts n).1 (t.attempts n).1) ∧
    ∀ (c : Combination) (f : Flags) (a value : UInt8) (decimal : Bool),
      c.apply { f with decimal := decimal } a value =
        ((c.apply f a value).1, { (c.apply f a value).2 with decimal := decimal }) := by
  refine ⟨fun h => h.observed (by simp), fun h hphp => h.observed fun _ => hphp, ?_⟩
  intro c f a value decimal
  cases c <;> rfl

/-- A processor in decimal mode, before `ADC #$15; PHA; PLP; BRK` with the stack at its top. -/
def decimalMode : Cpu (AddressSpace (Ram 5)) where
  a := 0x29
  sp := 0xFF
  pc := 0x1000
  flags := { decimal := true }
  bus := ⟨#[⟨⟨"stack", 0x01FB, 0x01FF⟩, .zero 5⟩,
    ⟨⟨"program", 0x1000, 0x1004⟩, ⟨#v[0x69, 0x15, 0x48, 0x28, 0x00]⟩⟩]⟩

/-- The same processor in binary mode, interrupted and after a break. -/
def binaryMode : Cpu (AddressSpace (Ram 5)) :=
  { decimalMode with flags := { brk := true, interruptDisable := true }, cycles := 7 }

/-- The sum that is pushed is the binary one in both modes. -/
theorem flags_unobserved_decimalMode :
    decimalMode.flags.decimal ≠ binaryMode.flags.decimal ∧
      (binaryMode.attempts 16).2 = List.replicate 16 none ∧
      (binaryMode.recorded.attempts 16).1.bus.writes = #[⟨0x01FF, 0x3E⟩] ∧
      SameBehind .modes (decimalMode.attempts 16).1 (binaryMode.attempts 16).1 := by
  have hsame : SameBehind .modes decimalMode binaryMode :=
    ⟨⟨rfl, rfl, rfl, rfl, by simp, by simp⟩, rfl⟩
  have hphp : ∀ k < 16, ¬(decimalMode.attempts k).1.Executes .php := by decide +kernel
  obtain ⟨hreports, hwrites, hafter⟩ := (flags_unobserved decimalMode binaryMode 16).2.1 hsame hphp
  refine ⟨by decide, ?_, ?_, hafter⟩
  · rw [← hreports]
    decide +kernel
  · rw [← hwrites]
    decide +kernel

end Cpu

end ChipScore
