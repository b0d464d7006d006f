import Mathlib.Tactic
import ChipScore.Proofs.Cpu.Agreement
import ChipScore.Proofs.Cpu.InstructionRun

/-!
# Faults

The one fault of the processor is an unbound opcode under a policy that does not pass over it.
`Cpu.step` knows beforehand whether it will meet a fault.  A processor does not: it fetches the
opcode, which moves the program counter, and looks the opcode up afterwards.  `Cpu.attempt` is a step
carried out in that order, and `attempt_eq` says that it comes to the same.  So a fault leaves
nothing behind, and whoever tries again meets it again.

A run stops at its first fault, in the state that the good ticks before it have led to
(`run_eq_fault_iff`).  The policy that passes over unbound opcodes has no faults, and wherever the
strict policy has none either the two cannot be told apart (`run_skip`).
-/

namespace ChipScore

namespace Cpu

variable {β : Type} [Bus β] {s t : Cpu β} {f : IllegalOpcode} {n : Nat}

/-- The next tick dispatches an opcode that is bound to nothing. -/
def MeetsUnbound (s : Cpu β) : Prop :=
  s.pending = 0 ∧ s.halted = false ∧ Opcode.binding? (s.read s.pc) = none

/-- A step carried out in place, and the fault that it reports.  The program counter has moved past
the opcode before the opcode is looked up, and a fault puts it back. -/
def attempt (s : Cpu β) : Cpu β × Option IllegalOpcode :=
  if s.dispatches then
    match Opcode.binding? (s.read s.pc), s.policy with
    | some b, _ => ((s.fetched.execute b).pass, none)
    | none, .skip => ({ s.fetched with pending := 1 }.pass, none)
    | none, .fail => ({ s.fetched with pc := s.pc }, some ⟨s.read s.pc, s.pc⟩)
  else
    (s.pass, none)

/-- Steps carried out in place, faults or not, and what each of them reports. -/
def attempts (s : Cpu β) : Nat → Cpu β × List (Option IllegalOpcode)
  | 0 => (s, [])
  | n + 1 => ((s.attempt.1.attempts n).1, s.attempt.2 :: (s.attempt.1.attempts n).2)

/-! ### When a step is a fault -/

/-- A fault is met by an unbound opcode under the strict policy, and reports that opcode and its
address. -/
lemma fault?_eq_some_iff :
    s.fault? = some f ↔ s.policy = .fail ∧ s.MeetsUnbound ∧ f = ⟨s.read s.pc, s.pc⟩ := by
  simp only [fault?, dispatches, opcode, MeetsUnbound, Option.ite_none_right_eq_some,
    Bool.and_eq_true, beq_iff_eq, Bool.not_eq_true', Option.isNone_iff_eq_none, Option.some.injEq]
  constructor
  · rintro ⟨⟨⟨⟨hpending, hhalted⟩, hpolicy⟩, hunbound⟩, rfl⟩
    exact ⟨hpolicy, ⟨hpending, hhalted, hunbound⟩, rfl⟩
  · rintro ⟨hpolicy, ⟨hpending, hhalted, hunbound⟩, rfl⟩
    exact ⟨⟨⟨⟨hpending, hhalted⟩, hpolicy⟩, hunbound⟩, rfl⟩

/-- The policy that passes over unbound opcodes has no faults. -/
lemma fault?_of_skip (h : s.policy = .skip) : s.fault? = none := by
  rw [Option.eq_none_iff_forall_ne_some]
  intro f hf
  rw [fault?_eq_some_iff, h] at hf
  cases hf.1

/-- A step fails just if it meets a fault, and with that fault. -/
lemma step_eq_error_iff : s.step = .error f ↔ s.fault? = some f := by
  unfold step
  cases s.fault? with
  | none => simp
  | some g => simp

/-- An instruction step fails just if it meets a fault, and with that fault. -/
lemma stepInstruction_eq_error_iff : s.stepInstruction = .error f ↔ s.fault? = some f := by
  unfold stepInstruction
  cases s.fault? with
  | none => simp
  | some g => simp

/-! ### A fault leaves nothing behind -/

/-- Fetching first and looking up afterwards comes to the same as knowing beforehand. -/
lemma attempt_eq (s : Cpu β) :
    s.attempt = match s.step with
      | .ok t => (t, none)
      | .error f => (s, some f) := by
  unfold attempt
  split_ifs with hdispatches
  · obtain ⟨hpending, hhalted⟩ : s.pending = 0 ∧ s.halted = false := by
      simpa [dispatches] using hdispatches
    cases hbound : Opcode.binding? (s.read s.pc) with
    | some b =>
      rw [step_of_fault?_eq_none (fault?_of_binding? hbound), tick_of_dispatches hdispatches,
        dispatch_of_binding? hbound]
      rfl
    | none =>
      cases hpolicy : s.policy with
      | skip =>
        rw [step_of_fault?_eq_none (fault?_of_skip hpolicy), tick_of_dispatches hdispatches]
        unfold dispatch opcode
        rw [hbound]
        rfl
      | fail =>
        -- putting the program counter back restores the whole state
        rw [step_of_fault?_eq_some
          (fault?_eq_some_iff.mpr ⟨hpolicy, ⟨hpending, hhalted, hbound⟩, rfl⟩)]
        rfl
  · have hidle : s.dispatches = false := by simpa using hdispatches
    rw [step_of_fault?_eq_none (fault?_of_not_dispatches hidle), tick_of_not_dispatches hidle]

/-- Whoever meets a fault and tries again meets it again, in the same state. -/
lemma attempts_of_fault? (h : s.fault? = some f) (n : Nat) :
    s.attempts n = (s, List.replicate n (some f)) := by
  have hattempt : s.attempt = (s, some f) := by
    rw [attempt_eq, step_of_fault?_eq_some h]
  induction n with
  | zero => rfl
  | succ n ih => rw [attempts, hattempt, ih, List.replicate_succ]

/-- Stepping to the end of an instruction meets a fault on the first step or not at all. -/
lemma Finishes.eq_of_fault {f? : Option IllegalOpcode} (h : Finishes s n t f?)
    (hfault : f? = some f) : n = 0 ∧ t = s := by
  induction h with
  | fault hstep => exact ⟨rfl, rfl⟩
  | last hstep hpending => cases hfault
  | @more s u v m g? hstep hpending hrest ih =>
    -- a step that leaves the instruction in flight is followed by no dispatch
    obtain ⟨rfl, rfl⟩ := ih hfault
    subst hfault
    cases hrest with
    | fault hnext =>
      rw [step_of_pending (Nat.pos_of_ne_zero hpending)] at hnext
      cases hnext

/-! ### The first fault of a run -/

/-- A run that begins with a fault ends where it began. -/
lemma run_of_fault? (h : s.fault? = some f) (hpos : 0 < n) : s.run n = (s, some f) := by
  obtain ⟨m, rfl⟩ : ∃ m, n = m + 1 := ⟨n - 1, by omega⟩
  simp only [run, h]

/-- The first tick of a run without a fault. -/
lemma first_of_run (h : s.run (n + 1) = (t, none)) :
    s.fault? = none ∧ s.tick.run n = (t, none) := by
  unfold run at h
  cases hfault : s.fault? with
  | some g =>
    rw [hfault] at h
    cases h
  | none =>
    rw [hfault] at h
    exact ⟨rfl, h⟩

/-- A run without a fault is as many good steps. -/
lemma steps_of_run (h : s.run n = (t, none)) : s.steps n = .ok t := by
  induction n generalizing s with
  | zero =>
    cases h
    rfl
  | succ n ih =>
    obtain ⟨hfault, hrest⟩ := first_of_run h
    rw [steps, step_of_fault?_eq_none hfault]
    exact ih hrest

/-- A run without a fault is as many good steps. -/
lemma run_eq_ok_iff : s.run n = (t, none) ↔ s.steps n = .ok t :=
  ⟨steps_of_run, run_of_steps⟩

/-- A run that ends with a fault has made good steps before it, fewer than it was to make. -/
lemma exists_steps_of_run (h : s.run n = (t, some f)) :
    ∃ j < n, s.steps j = .ok t ∧ t.step = .error f := by
  induction n generalizing s with
  | zero => cases h
  | succ n ih =>
    unfold run at h
    cases hfault : s.fault? with
    | some g =>
      rw [hfault] at h
      cases h
      exact ⟨0, Nat.succ_pos n, rfl, step_of_fault?_eq_some hfault⟩
    | none =>
      rw [hfault] at h
      obtain ⟨j, hj, hsteps, hstep⟩ := ih h
      refine ⟨j + 1, Nat.succ_lt_succ hj, ?_, hstep⟩
      rw [steps, step_of_fault?_eq_none hfault]
      exact hsteps

/-- A run meets a fault when one of its steps does, in the state that the steps before have led
to. -/
lemma run_eq_fault_iff :
    s.run n = (t, some f) ↔ ∃ j < n, s.steps j = .ok t ∧ t.step = .error f := by
  refine ⟨exists_steps_of_run, ?_⟩
  rintro ⟨j, hj, hsteps, hstep⟩
  obtain ⟨m, rfl⟩ : ∃ m, n = j + m := ⟨n - j, by omega⟩
  rw [run_add, run_of_steps hsteps]
  exact run_of_fault? (step_eq_error_iff.mp hstep) (by omega)

/-! ### Two policies -/

/-- A tick does not look at the policy. -/
lemma tick_with_policy (s : Cpu β) (policy : UnboundPolicy) :
    ({ s with policy := policy } : Cpu β).tick = { s.tick with policy := policy } := by
  have hagree : Agree (· = ·) s { s with policy := policy } :=
    ⟨rfl, rfl, rfl, rfl, rfl, rfl, rfl, rfl, rfl, rfl⟩
  rw [(hagree.tick Bus.isBisimulation_eq).eq_with_policy, tick_policy]

/-- A run that meets no fault does not depend on the policy. -/
lemma run_skip (h : s.run n = (t, none)) :
    ({ s with policy := .skip } : Cpu β).run n = ({ t with policy := .skip }, none) := by
  induction n generalizing s with
  | zero =>
    cases h
    rfl
  | succ n ih =>
    obtain ⟨-, hrest⟩ := first_of_run h
    unfold run
    rw [fault?_of_skip rfl]
    dsimp only
    rw [tick_with_policy]
    exact ih hrest

/-- Under the policy that passes over unbound opcodes, steps go on for ever. -/
lemma exists_steps_of_skip (h : s.policy = .skip) (n : Nat) :
    ∃ t, s.steps n = .ok t ∧ t.policy = .skip := by
  induction n generalizing s with
  | zero => exact ⟨s, rfl, h⟩
  | succ n ih =>
    rw [steps, step_of_fault?_eq_none (fault?_of_skip h)]
    exact ih (by rw [tick_policy, h])

lemma ticks_policy (s : Cpu β) (n : Nat) : (s.ticks n).policy = s.policy := by
  have htick (t : Cpu β) (h : t.policy = s.policy) : t.tick.policy = s.policy :=
    t.tick_policy.trans h
  exact ticks_invariant htick rfl n

/-- Under the lenient policy a run of instructions always comes to its end. -/
lemma exists_runInstructions_of_skip (h : s.policy = .skip) (k : Nat) :
    ∃ n t, s.runInstructions k = (n, t, none) := by
  induction k generalizing s with
  | zero => exact ⟨0, s, rfl⟩
  | succ k ih =>
    have hstep : s.stepInstruction = .ok (1 + s.tick.pending, s.tick.ticks s.tick.pending) := by
      simp only [stepInstruction, fault?_of_skip h]
    have hpolicy : (s.tick.ticks s.tick.pending).policy = .skip := by
      rw [ticks_policy, tick_policy, h]
    obtain ⟨n, t, hrun⟩ := ih hpolicy
    refine ⟨1 + s.tick.pending + n, t, ?_⟩
    simp only [runInstructions, hstep, hrun]

/-- Under the policy that passes over unbound opcodes, one of them takes a cycle. -/
lemma dispatch_of_meetsUnbound (h : s.MeetsUnbound) :
    s.dispatch = { s with pc := s.pc + 1, pending := 1 } := by
  unfold dispatch opcode
  rw [h.2.2]

/-- **Faults are atomic and sticky, and passing over unbound opcodes adds nothing else.**  From any
state:

* a step, and equally an instruction step, is a fault exactly when the policy is the strict one and
  the next tick dispatches an unbound opcode; the fault names that opcode and its address;
* a fault leaves the state as it was, however often the step is tried again, and each time the same
  fault is reported; an instruction step that is a fault has made no good step before it;
* a run of `n` ticks is a fault exactly when one of its steps `j < n` is, and it ends in the state
  that the `j` good steps have led to;
* under the other policy no steps, no runs and no instructions are faults, and an unbound opcode
  moves the program counter past it, takes one cycle and changes nothing else;
* a run without a fault is, under that policy, the same run. -/
theorem faults_atomic_sticky_conservative (s : Cpu β) :
    (∀ f, s.step = .error f ↔
      s.policy = .fail ∧ s.MeetsUnbound ∧ f = ⟨s.read s.pc, s.pc⟩) ∧
    (∀ f, s.stepInstruction = .error f ↔
      s.policy = .fail ∧ s.MeetsUnbound ∧ f = ⟨s.read s.pc, s.pc⟩) ∧
    (∀ f, s.step = .error f → ∀ n, s.attempts n = (s, List.replicate n (some f))) ∧
    (∀ n t f, Finishes s n t (some f) → n = 0 ∧ t = s) ∧
    (∀ n t, s.run n = (t, none) ↔ s.steps n = .ok t) ∧
    (∀ n t f, s.run n = (t, some f) ↔ ∃ j < n, s.steps j = .ok t ∧ t.step = .error f) ∧
    (s.policy = .skip →
      (∀ n, ∃ t, s.steps n = .ok t ∧ s.run n = (t, none)) ∧
      (∀ k, ∃ n t, s.runInstructions k = (n, t, none)) ∧
      (s.MeetsUnbound →
        s.step = .ok { s with pc := s.pc + 1, cycles := s.cycles + 1 } ∧
        s.stepInstruction = .ok (1, { s with pc := s.pc + 1, cycles := s.cycles + 1 }))) ∧
    (∀ n t, s.run n = (t, none) →
      ({ s with policy := .skip } : Cpu β).run n = ({ t with policy := .skip }, none)) := by
  refine ⟨fun f => step_eq_error_iff.trans fault?_eq_some_iff,
    fun f => stepInstruction_eq_error_iff.trans fault?_eq_some_iff,
    fun f hstep => attempts_of_fault? (step_eq_error_iff.mp hstep),
    fun n t f hfinishes => hfinishes.eq_of_fault rfl, fun n t => run_eq_ok_iff,
    fun n t f => run_eq_fault_iff, fun hskip => ⟨?_, exists_runInstructions_of_skip hskip, ?_⟩,
    fun n t => run_skip⟩
  · intro n
    obtain ⟨t, hsteps, -⟩ := exists_steps_of_skip hskip n
    exact ⟨t, hsteps, run_of_steps hsteps⟩
  · intro hunbound
    have hdispatches : s.dispatches = true := dispatches_of_idle hunbound.1 hunbound.2.1
    have hfault : s.fault? = none := fault?_of_skip hskip
    have hidle : s.pending = 0 := hunbound.1
    constructor
    · rw [step_of_fault?_eq_none hfault, tick_of_dispatches hdispatches,
        dispatch_of_meetsUnbound hunbound]
      simp only [pass, hidle]
    · rw [stepInstruction_of_dispatches hdispatches hfault s.dispatch_pending_bounds.1,
        dispatch_of_meetsUnbound hunbound]
      simp only [hidle]

end Cpu

end ChipScore
