import Mathlib.Tactic
import ChipScore.Cpu.Journal
import ChipScore.Proofs.Cpu.Arithmetic
import ChipScore.Proofs.Cpu.Faults
import ChipScore.Proofs.Disassembly.Execution

/-!
# The guarded processor

Carried out on machine integers, an instruction has ways to go wrong that `Cpu.perform` does not
show: sums are taken in eight, sixteen or sixty-four bits, an addressing mode may be asked for an
operand that it does not have, and the text of the instruction for the log may not exist.
`Cpu.guardedAttempt` is a step that checks for each of these where it could happen and ends in a
`Breach` if it does.  Its handlers are less careful than `Cpu.perform`, which does something in every
mode: they ask for an operand unless the mode is one that they treat apart, and an increment treats
none apart.

No check ever fails (`guards_hold`).  That an operand is there when it is asked for depends on the
opcode table and on what each handler asks for together: `Effect.asks` says the latter, and
`hasOperand_of_asks` compares the two for all opcodes.
-/

namespace ChipScore

/-- What can go wrong in a step. -/
inductive Breach
  /-- A mode is asked for an operand in memory and has none. -/
  | noOperand (mode : AddressingMode)
  /-- A sum does not fit into its number of bits. -/
  | overflow (bits : Nat)
  /-- The instruction has no text for the log. -/
  | listing (e : ListingError)
  deriving DecidableEq

/-- The sum of two numbers, if it fits into a number of bits. -/
def checkedSum (bits m n : Nat) : Except Breach Nat :=
  if m + n < 2 ^ bits then .ok (m + n) else .error (.overflow bits)

/-- A sum that fits into its bits passes the check. -/
lemma checkedSum_of_lt {bits m n : Nat} (h : m + n < 2 ^ bits) :
    checkedSum bits m n = .ok (m + n) :=
  if_pos h

/-! ### Arithmetic with checked sums -/

/-- The sum of the accumulator, a byte and the carry, taken in sixteen bits. -/
def Flags.guardedAdd (f : Flags) (a value : UInt8) : Except Breach (UInt8 × Flags) := do
  let partialSum ← checkedSum 16 a.toNat value.toNat
  let wide ← checkedSum 16 partialSum f.carry.toNat
  let sum := UInt8.ofNat wide
  return (sum, { f.describe sum with
    carry := 0xFF < wide
    overflow := (a ^^^ sum) &&& (value ^^^ sum) &&& 0x80 != 0 })

/-- The flags of comparing a register with a byte.  The difference is taken in sixteen bits, from
the register raised by a page, so that it cannot fall below zero. -/
def Flags.guardedCompare (f : Flags) (register value : UInt8) : Except Breach Flags := do
  let raised ← checkedSum 16 register.toNat 0x100
  return { f with
    negative := UInt8.ofNat (raised - value.toNat) &&& 0x80 != 0
    zero := register == value
    carry := value ≤ register }

/-- Combines the accumulator with a byte, with checked sums. -/
def Combination.guardedApply (c : Combination) (f : Flags) (a value : UInt8) :
    Except Breach (UInt8 × Flags) :=
  match c with
  | .add => f.guardedAdd a value
  | .subtract => f.guardedAdd a (value ^^^ 0xFF)
  | .compare => do return (a, ← f.guardedCompare a value)
  | .and | .or | .xor => .ok (c.apply f a value)

/-- The checks of an addition pass: sixteen bits hold two bytes and a carry. -/
lemma Flags.guardedAdd_eq (f : Flags) (a value : UInt8) :
    f.guardedAdd a value = .ok (f.addWithCarry a value) := by
  have ha := a.toNat_lt
  have hvalue := value.toNat_lt
  have hcarry := f.carry.toNat_le
  let wide : UInt16 := a.toUInt16 + value.toUInt16 + (if f.carry then 1 else 0)
  have hwide : a.toNat + value.toNat + f.carry.toNat = wide.toNat := (f.toNat_wideSum a value).symm
  have hsum : UInt8.ofNat wide.toNat = wide.toUInt8 := by
    rw [← UInt8.toNat_inj]
    simp
  have habove : 0xFF < wide.toNat ↔ 0xFF < wide := by
    rw [UInt16.lt_iff_toNat_lt]
    rfl
  rw [guardedAdd, checkedSum_of_lt (by omega)]
  change (checkedSum 16 (a.toNat + value.toNat) f.carry.toNat).bind _ = _
  rw [checkedSum_of_lt (by omega), hwide]
  simp only [Except.bind, hsum, habove]
  rfl

/-- The check of a comparison passes: a raised register fits into sixteen bits, and no byte takes it
below zero. -/
lemma Flags.guardedCompare_eq (f : Flags) (register value : UInt8) :
    f.guardedCompare register value = .ok (f.compare register value) := by
  have hregister := register.toNat_lt
  have hvalue := value.toNat_lt
  have hdifference :
      UInt8.ofNat (register.toNat + 0x100 - value.toNat) = register - value := by
    rw [← UInt8.toNat_inj, UInt8.toNat_ofNat', UInt8.toNat_sub]
    omega
  rw [guardedCompare, checkedSum_of_lt (by omega), compare, ← hdifference]
  rfl

/-- The checks of a combination pass. -/
lemma Combination.guardedApply_eq (c : Combination) (f : Flags) (a value : UInt8) :
    c.guardedApply f a value = .ok (c.apply f a value) := by
  cases c with
  | add => exact f.guardedAdd_eq a value
  | subtract => exact f.guardedAdd_eq a _
  | compare => rw [guardedApply, f.guardedCompare_eq]; rfl
  | and | or | xor => rfl

/-! ### What a handler asks for -/

/-- Whether a change can be made to the accumulator: shifts and rotations can. -/
def Modification.worksOnAccumulator : Modification → Bool
  | .shiftLeft | .shiftRight | .rotateLeft | .rotateRight => true
  | .increment | .decrement => false

/-- Whether the handler of an effect asks for an operand in memory in a mode. -/
def Effect.asks : Effect → AddressingMode → Bool
  | combine _, _ | compareRegister _, _ | testBits, _ | load _, _ | store _, _
  | modifyCombine _ _, _ => true
  | modify m, mode => !(m.worksOnAccumulator && mode == .accumulator)
  | idle, mode => mode != .implicit
  | _, _ => false

/-- Whatever opcode is bound, its handler asks only for an operand that is there. -/
lemma hasOperand_of_asks {opcode : UInt8} {b : Binding} (h : Opcode.binding? opcode = some b)
    (hasks : b.operation.effect.asks b.mode = true) : b.mode.hasOperand = true := by
  have htable : ∀ opcode, ∀ b ∈ Opcode.binding? opcode,
      b.operation.effect.asks b.mode = true → b.mode.hasOperand = true :=
    forall_byte_of_forall_lt (by decide +kernel)
  exact htable opcode b h hasks

/-! ### Ticks and the log -/

namespace Cpu

variable {β : Type}

/-- Lets one tick pass, which is counted in sixty-four bits. -/
def guardedPass (s : Cpu β) : Except Breach (Cpu β) := do
  return { s with pending := s.pending - 1, cycles := ← checkedSum 64 s.cycles 1 }

/-- The check of a tick passes as long as the count of cycles is not full. -/
lemma guardedPass_eq {s : Cpu β} (h : s.cycles + 1 < 2 ^ 64) : s.guardedPass = .ok s.pass := by
  rw [guardedPass, checkedSum_of_lt h]
  rfl

variable [Bus β]

/-- The text of the instruction at the program counter, as it is written to the log. -/
def guardedListing (s : Cpu β) : Except Breach String :=
  match Instruction.decode? s.pc s.upcoming with
  | some i => i.text.mapError .listing
  | none => .ok (".byte $" ++ Hex.byte s.opcode)

/-- The text is there, and is the one that is reported. -/
lemma guardedListing_eq (s : Cpu β) :
    s.guardedListing = .ok (CpuEvent.listing s.pc s.upcoming) := by
  unfold guardedListing CpuEvent.listing
  cases hdecoded : Instruction.decode? s.pc s.upcoming with
  | none => rfl
  | some i =>
    have hlength : i.operands.length ≤ 2 := by
      rw [upcoming, Instruction.decode?_threeBytes, Option.map_eq_some_iff] at hdecoded
      obtain ⟨b, -, rfl⟩ := hdecoded
      exact List.length_take_le' _ _
    obtain ⟨text, htext⟩ := Instruction.exists_text hlength
    simp only [htext]
    rfl

/-! ### Handlers with checks -/

/-- The operand of a mode that must have one. -/
def guardedOperand (s : Cpu β) (mode : AddressingMode) : Except Breach Operand :=
  match s.operand? mode with
  | some o => .ok o
  | none => .error (.noOperand mode)

/-- Branches by the operand byte.  A taken branch adds its cycles one by one. -/
def guardedBranch (s : Cpu β) (taken : Bool) (cycles : Nat) : Except Breach (Cpu β) := do
  let next := s.pc + 1
  if taken then
    let target := next + Word.ofSigned s.operandByte
    let near ← checkedSum 8 cycles 1
    let total ← (if Word.samePage next target then .ok near else checkedSum 8 near 1)
    return { s with pc := target, pending := total }
  else
    return { s with pc := next, pending := cycles }

/-- Carries out an effect on the processor whose operand bytes lie at the program counter. -/
def guardedPerform (s : Cpu β) (b : Binding) : Effect → Except Breach (Cpu β)
  | .combine c => do
    let o ← s.guardedOperand b.mode
    let (a, flags) ← c.guardedApply s.flags s.a (s.read o.address)
    let cycles ← checkedSum 8 b.cycles o.penalty
    return { s.skipOperand b.mode with a := a, flags := flags, pending := cycles }
  | .compareRegister r => do
    let o ← s.guardedOperand b.mode
    let flags ← s.flags.guardedCompare (s.get r) (s.read o.address)
    return { (s.skipOperand b.mode).spend b.cycles with flags := flags }
  | .testBits => do
    let o ← s.guardedOperand b.mode
    return { (s.skipOperand b.mode).spend b.cycles with
      flags := s.flags.testBits s.a (s.read o.address) }
  | .load d => do
    let o ← s.guardedOperand b.mode
    let cycles ← checkedSum 8 b.cycles o.penalty
    return ((s.skipOperand b.mode).load d (s.read o.address)).spend cycles
  | .store d => do
    let o ← s.guardedOperand b.mode
    return ((s.skipOperand b.mode).write o.address (s.driven d)).spend b.cycles
  | .modify m =>
    if m.worksOnAccumulator && b.mode == .accumulator then
      let (value, flags) := m.apply s.flags s.a
      .ok { s with a := value, flags := flags, pending := b.cycles }
    else do
      let o ← s.guardedOperand b.mode
      return ((s.skipOperand b.mode).modifyAt m o.address).spend b.cycles
  | .modifyCombine m c => do
    let o ← s.guardedOperand b.mode
    let (value, flags) := m.apply s.flags (s.read o.address)
    let (a, flags) ← c.guardedApply flags s.a value
    return { (s.skipOperand b.mode).write o.address value with
      a := a, flags := flags, pending := b.cycles }
  | .branch f value => s.guardedBranch (s.flags.get f == value) b.cycles
  | .idle =>
    if b.mode = .implicit then do
      return s.spend (← checkedSum 8 b.cycles 0)
    else do
      let o ← s.guardedOperand b.mode
      return (s.skipOperand b.mode).spend (← checkedSum 8 b.cycles o.penalty)
  | e => .ok (s.perform b e)

/-- Carries out a binding on the processor whose program counter stands behind the opcode. -/
def guardedExecute (s : Cpu β) (b : Binding) : Except Breach (Cpu β) :=
  s.guardedPerform b b.operation.effect

/-- A step with checks, and the fault that it reports. -/
def guardedAttempt (s : Cpu β) : Except Breach (Cpu β × Option IllegalOpcode) :=
  if s.dispatches then
    match Opcode.binding? (s.read s.pc), s.policy with
    | some b, _ => do
      let _ ← s.guardedListing
      let t ← s.fetched.guardedExecute b
      return (← t.guardedPass, none)
    | none, .skip => do return (← { s.fetched with pending := 1 }.guardedPass, none)
    | none, .fail => .ok ({ s.fetched with pc := s.pc }, some ⟨s.read s.pc, s.pc⟩)
  else do
    return (← s.guardedPass, none)

/-- Steps with checks, faults or not, and what each of them reports. -/
def guardedAttempts (s : Cpu β) : Nat → Except Breach (Cpu β × List (Option IllegalOpcode))
  | 0 => .ok (s, [])
  | n + 1 => do
    let (t, fault?) ← s.guardedAttempt
    let (u, faults) ← t.guardedAttempts n
    return (u, fault? :: faults)

/-! ### No check fails -/

/-- A mode that has an operand passes the check for one. -/
lemma guardedOperand_of_operand? {s : Cpu β} {mode : AddressingMode} {o : Operand}
    (h : s.operand? mode = some o) : s.guardedOperand mode = .ok o := by
  rw [guardedOperand, h]

/-- The cost of an operand is no overflow. -/
lemma checkedSum_penalty {cycles : Nat} (h : cycles ≤ 8) (o : Operand) :
    checkedSum 8 cycles o.penalty = .ok (cycles + o.penalty) := by
  have hpenalty : o.penalty ≤ 1 := by
    unfold Operand.penalty
    split <;> omega
  exact checkedSum_of_lt (by omega)

/-- The checks of a branch pass if its own cycles are few. -/
lemma guardedBranch_eq (s : Cpu β) (taken : Bool) {cycles : Nat} (h : cycles ≤ 8) :
    s.guardedBranch taken cycles = .ok (s.branch taken cycles) := by
  unfold guardedBranch branch
  rw [checkedSum_of_lt (by omega)]
  cases taken with
  | false => rfl
  | true =>
    have hfar : checkedSum 8 (cycles + 1) 1 = .ok (cycles + 1 + 1) := checkedSum_of_lt (by omega)
    simp only [bind, Except.bind, hfar]
    cases Word.samePage (s.pc + 1) (s.pc + 1 + Word.ofSigned s.operandByte) <;> rfl

/-- A handler that finds every operand it asks for does what its effect says. -/
lemma guardedPerform_eq (s : Cpu β) {b : Binding} {e : Effect} (hcycles : b.cycles ≤ 8)
    (hasks : e.asks b.mode = true → b.mode.hasOperand = true) :
    s.guardedPerform b e = .ok (s.perform b e) := by
  cases e with
  | combine c =>
    obtain ⟨o, ho⟩ := s.exists_operand? (hasks rfl)
    simp only [guardedPerform, perform, guardedOperand_of_operand? ho, ho, c.guardedApply_eq,
      checkedSum_penalty hcycles]
    rfl
  | compareRegister r =>
    obtain ⟨o, ho⟩ := s.exists_operand? (hasks rfl)
    simp only [guardedPerform, perform, guardedOperand_of_operand? ho, ho, Flags.guardedCompare_eq]
    rfl
  | testBits | store d =>
    obtain ⟨o, ho⟩ := s.exists_operand? (hasks rfl)
    simp only [guardedPerform, perform, guardedOperand_of_operand? ho, ho]
    rfl
  | load d =>
    obtain ⟨o, ho⟩ := s.exists_operand? (hasks rfl)
    simp only [guardedPerform, perform, guardedOperand_of_operand? ho, ho,
      checkedSum_penalty hcycles]
    rfl
  | modify m =>
    rw [guardedPerform]
    split_ifs with haccumulator
    · -- a shift of the accumulator asks for nothing
      obtain ⟨-, hmode⟩ := Bool.and_eq_true_iff.mp haccumulator
      rw [perform, beq_iff_eq.mp hmode]
      rfl
    · obtain ⟨o, ho⟩ := s.exists_operand? (hasks (by simp only [Effect.asks, haccumulator, Bool.not_false]))
      simp only [perform, guardedOperand_of_operand? ho, ho]
      rfl
  | modifyCombine m c =>
    obtain ⟨o, ho⟩ := s.exists_operand? (hasks rfl)
    simp only [guardedPerform, perform, guardedOperand_of_operand? ho, ho, c.guardedApply_eq]
    rfl
  | branch f value => exact s.guardedBranch_eq _ hcycles
  | idle =>
    rw [guardedPerform]
    split_ifs with himplicit
    · rw [checkedSum_of_lt (by omega), perform, himplicit]
      rfl
    · obtain ⟨o, ho⟩ := s.exists_operand? (hasks (by simpa [Effect.asks] using himplicit))
      simp only [perform, guardedOperand_of_operand? ho, ho, checkedSum_penalty hcycles]
      rfl
  | _ => rfl

/-- The handler of a bound opcode passes its checks in every state. -/
lemma guardedExecute_eq (s : Cpu β) {opcode : UInt8} {b : Binding}
    (h : Opcode.binding? opcode = some b) : s.guardedExecute b = .ok (s.execute b) := by
  have hcost := (wellFormed_of_binding? h).cost_le
  exact s.guardedPerform_eq (by omega) (hasOperand_of_asks h)

/-- A step passes its checks unless the ticks have run out of numbers. -/
lemma guardedAttempt_eq {s : Cpu β} (h : s.cycles + 1 < 2 ^ 64) :
    s.guardedAttempt = .ok s.attempt := by
  unfold guardedAttempt attempt
  split_ifs with hdispatches
  · cases hbound : Opcode.binding? (s.read s.pc) with
    | some b =>
      -- the handler spends no tick, so that there is still a number for this one
      have hcycles : (s.fetched.execute b).cycles = s.cycles := perform_cycles _ _ _
      simp only [s.guardedListing_eq, s.fetched.guardedExecute_eq hbound, bind, Except.bind]
      rw [guardedPass_eq (hcycles ▸ h)]
      rfl
    | none =>
      cases s.policy with
      | skip =>
        have hpass : { s.fetched with pending := 1 }.guardedPass =
            .ok { s.fetched with pending := 1 }.pass := guardedPass_eq h
        simp only [hpass]
        rfl
      | fail => rfl
  · rw [guardedPass_eq h]
    rfl

/-! ### The counters -/

/-- What one good step does to the counters. -/
lemma counters_of_step {s t : Cpu β} (hpending : s.pending ≤ 7) (h : s.step = .ok t) :
    t.pending ≤ 7 ∧ t.cycles = s.cycles + 1 := by
  have htick : s.tick = t := by
    cases hfault : s.fault? with
    | some f =>
      rw [step_of_fault?_eq_some hfault] at h
      cases h
    | none =>
      rw [step_of_fault?_eq_none hfault] at h
      exact Except.ok.inj h
  subst htick
  refine ⟨?_, s.tick_cycles⟩
  unfold tick
  split_ifs
  · have hle := s.dispatch_pending_bounds.2
    change s.dispatch.pending - 1 ≤ 7
    omega
  · change s.pending - 1 ≤ 7
    omega

/-- Good steps and faults together never spend more than a tick each. -/
lemma counters_attempts {s : Cpu β} (hpending : s.pending ≤ 7) (n : Nat) :
    (s.attempts n).1.pending ≤ 7 ∧ (s.attempts n).1.cycles ≤ s.cycles + n := by
  induction n generalizing s with
  | zero => exact ⟨hpending, le_rfl⟩
  | succ n ih =>
    obtain ⟨hattempt, hcycles⟩ : s.attempt.1.pending ≤ 7 ∧ s.attempt.1.cycles ≤ s.cycles + 1 := by
      rw [attempt_eq]
      cases hstep : s.step with
      | ok t =>
        obtain ⟨ht, hspent⟩ := counters_of_step hpending hstep
        exact ⟨ht, hspent.le⟩
      | error f => exact ⟨hpending, Nat.le_succ _⟩
    obtain ⟨hrest, hspent⟩ := ih hattempt
    refine ⟨hrest, ?_⟩
    change (s.attempt.1.attempts n).1.cycles ≤ _
    omega

/-- Steps pass their checks until the ticks have run out of numbers. -/
lemma guardedAttempts_eq {s : Cpu β} {n : Nat} (hpending : s.pending ≤ 7)
    (hcycles : s.cycles + n < 2 ^ 64) : s.guardedAttempts n = .ok (s.attempts n) := by
  induction n generalizing s with
  | zero => rfl
  | succ n ih =>
    obtain ⟨hattempt, hspent⟩ := s.counters_attempts hpending 1
    have hrest : s.attempt.1.guardedAttempts n = .ok (s.attempt.1.attempts n) := by
      refine ih hattempt ?_
      change s.attempt.1.cycles ≤ s.cycles + 1 at hspent
      omega
    rw [guardedAttempts, guardedAttempt_eq (by omega)]
    simp only [bind, Except.bind, hrest]
    rfl

/-- **Nothing goes wrong in a step.**  Let at most seven ticks be pending, and let the ticks of `n`
steps more be countable in sixty-four bits.

* No handler of a bound opcode asks a mode without an operand for one, and no sum that it takes
  overflows, whatever the state.
* Nor does anything else go wrong in the `n` steps, whether they are faults or not: with every check
  made they do what they do without.
* After each good one among them at most seven ticks are pending, and exactly one has been spent. -/
theorem guards_hold (s : Cpu β) (n : Nat) (hpending : s.pending ≤ 7)
    (hcycles : s.cycles + n < 2 ^ 64) :
    (∀ opcode b, Opcode.binding? opcode = some b →
      ∀ t : Cpu β, t.guardedExecute b = .ok (t.execute b)) ∧
    s.guardedAttempts n = .ok (s.attempts n) ∧
    ∀ k < n, ∀ t, (s.attempts k).1.step = .ok t →
      t.pending ≤ 7 ∧ t.cycles = (s.attempts k).1.cycles + 1 ∧ t.cycles < 2 ^ 64 := by
  refine ⟨fun opcode b hbound t => t.guardedExecute_eq hbound,
    guardedAttempts_eq hpending hcycles, ?_⟩
  intro k hk t hstep
  obtain ⟨hbefore, hspent⟩ := s.counters_attempts hpending k
  obtain ⟨hafter, htick⟩ := counters_of_step hbefore hstep
  exact ⟨hafter, htick, by omega⟩

/-- A processor with six ticks left to count, before an addition of the greatest terms and a branch
to itself from the end of the memory. -/
def sixTicksLeft : Cpu (AddressSpace (Ram 4)) where
  a := 0xFF
  pc := 0xFFFC
  flags := { carry := true }
  cycles := 2 ^ 64 - 7
  bus := ⟨#[⟨⟨"high", 0xFFFC, 0xFFFF⟩, ⟨#v[0x69, 0xFF, 0xB0, 0xFE]⟩⟩]⟩

/-- The addition and the branch take the six ticks, and the last number is reached. -/
theorem guards_hold_sixTicksLeft :
    sixTicksLeft.pending ≤ 7 ∧ sixTicksLeft.cycles + 6 < 2 ^ 64 ∧
      ∃ t, sixTicksLeft.guardedAttempts 6 = .ok (t, List.replicate 6 none) ∧
        t.a = 0xFF ∧ t.pc = 0xFFFE ∧ t.pending = 0 ∧ t.cycles = 2 ^ 64 - 1 := by
  have hcycles : sixTicksLeft.cycles + 6 < 2 ^ 64 := by decide +kernel
  obtain ⟨-, hattempts, -⟩ := sixTicksLeft.guards_hold 6 (by decide) hcycles
  refine ⟨by decide, hcycles, (sixTicksLeft.attempts 6).1, ?_, ?_⟩
  · have hfaults : (sixTicksLeft.attempts 6).2 = List.replicate 6 none := by decide +kernel
    rw [hattempts, ← hfaults]
  · decide +kernel

end Cpu

end ChipScore
