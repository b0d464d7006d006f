import Mathlib.Tactic
import ChipScore.Cpu.Run

/-!
# Ticks and instructions

A tick either dispatches an instruction or only passes.  As long as an instruction is in flight
ticks only pass, so `ticks_of_le_pending` gives the state after any number of them in closed form:
nothing but the two counters moves.  Everything said here about longer stretches of time follows
from that one lemma and from what `dispatch` leaves in `pending`.

`Cpu.steps` calls `Cpu.step` a number of times.  `Cpu.Finishes` is the loop that steps until no
instruction is in flight, as a relation, and `finishes_stepInstruction` says that the loop always
ends and that `Cpu.stepInstruction` is what it ends with.
-/

namespace ChipScore

namespace Cpu

variable {β : Type}

/-- Nothing is dispatched while an instruction is in flight. -/
lemma dispatches_of_pending {s : Cpu β} (h : 0 < s.pending) : s.dispatches = false := by
  simp [dispatches, h.ne']

/-- Nothing is dispatched while the processor is halted. -/
lemma dispatches_of_halted {s : Cpu β} (h : s.halted = true) : s.dispatches = false := by
  simp [dispatches, h]

/-- A tick dispatches when no instruction is in flight and the processor is not halted. -/
lemma dispatches_of_idle {s : Cpu β} (hpending : s.pending = 0) (hhalted : s.halted = false) :
    s.dispatches = true := by
  simp [dispatches, hpending, hhalted]

variable [Bus β]

/-- A number of steps, up to the first fault. -/
def steps (s : Cpu β) : Nat → Except IllegalOpcode (Cpu β)
  | 0 => .ok s
  | n + 1 => s.step.bind fun t => t.steps n

/-- Stepping until no instruction is in flight ends after a number of good ticks, in a state, and
with a fault or without one. -/
inductive Finishes : Cpu β → Nat → Cpu β → Option IllegalOpcode → Prop
  /-- The step is a fault, which changes nothing. -/
  | fault {s : Cpu β} {f : IllegalOpcode} : s.step = .error f → Finishes s 0 s (some f)
  /-- The step was the last tick of the instruction. -/
  | last {s t : Cpu β} : s.step = .ok t → t.pending = 0 → Finishes s 1 t none
  /-- The instruction is still in flight. -/
  | more {s t u : Cpu β} {n : Nat} {f? : Option IllegalOpcode} :
      s.step = .ok t → t.pending ≠ 0 → Finishes t n u f? → Finishes s (n + 1) u f?

/-! ### Ticks that only pass -/

/-- Only a tick that dispatches can be a fault. -/
lemma fault?_of_not_dispatches {s : Cpu β} (h : s.dispatches = false) : s.fault? = none := by
  simp [fault?, h]

/-- A tick that dispatches nothing passes. -/
lemma tick_of_not_dispatches {s : Cpu β} (h : s.dispatches = false) : s.tick = s.pass := by
  simp [tick, h]

/-- A tick that dispatches is the first one of its instruction. -/
lemma tick_of_dispatches {s : Cpu β} (h : s.dispatches = true) : s.tick = s.dispatch.pass := by
  simp [tick, h]

/-- Without a fault a step is a tick. -/
lemma step_of_fault?_eq_none {s : Cpu β} (h : s.fault? = none) : s.step = .ok s.tick := by
  simp [step, h]

/-- A fault is what its step reports. -/
lemma step_of_fault?_eq_some {s : Cpu β} {f : IllegalOpcode} (h : s.fault? = some f) :
    s.step = .error f := by
  simp [step, h]

/-- While an instruction is in flight a step lets a tick pass. -/
lemma step_of_pending {s : Cpu β} (h : 0 < s.pending) : s.step = .ok s.pass := by
  have hdispatches : s.dispatches = false := dispatches_of_pending h
  rw [step_of_fault?_eq_none (fault?_of_not_dispatches hdispatches),
    tick_of_not_dispatches hdispatches]

/-- The ticks of an instruction in flight move the two counters and nothing else. -/
lemma ticks_of_le_pending {s : Cpu β} {n : Nat} (h : n ≤ s.pending) :
    s.ticks n = { s with pending := s.pending - n, cycles := s.cycles + n } := by
  induction n generalizing s with
  | zero => rfl
  | succ n ih =>
    have htick : s.tick = s.pass := tick_of_not_dispatches (dispatches_of_pending (by omega))
    have hle : n ≤ s.pass.pending := by
      change n ≤ s.pending - 1
      omega
    rw [ticks, htick, ih hle]
    have hpending : s.pending - 1 - n = s.pending - (n + 1) := by omega
    have hcycles : s.cycles + 1 + n = s.cycles + (n + 1) := by omega
    simp only [pass, hpending, hcycles]

/-- The ticks of an instruction in flight are steps without a fault. -/
lemma steps_of_le_pending {s : Cpu β} {n : Nat} (h : n ≤ s.pending) :
    s.steps n = .ok { s with pending := s.pending - n, cycles := s.cycles + n } := by
  rw [← ticks_of_le_pending h]
  induction n generalizing s with
  | zero => rfl
  | succ n ih =>
    have htick : s.tick = s.pass := tick_of_not_dispatches (dispatches_of_pending (by omega))
    have hle : n ≤ s.pass.pending := by
      change n ≤ s.pending - 1
      omega
    rw [steps, step_of_pending (by omega), ticks, htick]
    exact ih hle

/-! ### The instruction as a run of ticks -/

/-- Without a fault an instruction is a tick and the ticks that it leaves pending. -/
lemma stepInstruction_of_fault?_eq_none {s : Cpu β} (h : s.fault? = none) :
    s.stepInstruction = .ok (1 + s.tick.pending,
      { s.tick with pending := 0, cycles := s.tick.cycles + s.tick.pending }) := by
  have hticks := ticks_of_le_pending (le_refl s.tick.pending)
  rw [Nat.sub_self] at hticks
  simp only [stepInstruction, h, hticks]

/-- A fault is what its instruction reports. -/
lemma stepInstruction_of_fault?_eq_some {s : Cpu β} {f : IllegalOpcode} (h : s.fault? = some f) :
    s.stepInstruction = .error f := by
  simp [stepInstruction, h]

/-- While an instruction is in flight, the next instruction step finishes it. -/
lemma stepInstruction_of_pending {s : Cpu β} (h : 0 < s.pending) :
    s.stepInstruction =
      .ok (s.pending, { s with pending := 0, cycles := s.cycles + s.pending }) := by
  have hdispatches : s.dispatches = false := dispatches_of_pending h
  rw [stepInstruction_of_fault?_eq_none (fault?_of_not_dispatches hdispatches),
    tick_of_not_dispatches hdispatches]
  have hcount : 1 + (s.pending - 1) = s.pending := by omega
  have hcycles : s.cycles + 1 + (s.pending - 1) = s.cycles + s.pending := by omega
  simp only [pass, hcount, hcycles]

/-- A halted processor spends one tick in an instruction step. -/
lemma stepInstruction_of_halted {s : Cpu β} (hpending : s.pending = 0) (hhalted : s.halted = true) :
    s.stepInstruction = .ok (1, { s with cycles := s.cycles + 1 }) := by
  have hdispatches : s.dispatches = false := dispatches_of_halted hhalted
  rw [stepInstruction_of_fault?_eq_none (fault?_of_not_dispatches hdispatches),
    tick_of_not_dispatches hdispatches]
  cases s
  subst hpending
  rfl

/-- Between instructions, an instruction step takes the ticks that dispatching leaves pending. -/
lemma stepInstruction_of_dispatches {s : Cpu β} (h : s.dispatches = true) (hfault : s.fault? = none)
    (hpos : 0 < s.dispatch.pending) :
    s.stepInstruction = .ok (s.dispatch.pending,
      { s.dispatch with pending := 0, cycles := s.dispatch.cycles + s.dispatch.pending }) := by
  rw [stepInstruction_of_fault?_eq_none hfault, tick_of_dispatches h]
  have hcount : 1 + (s.dispatch.pending - 1) = s.dispatch.pending := by omega
  have hcycles : s.dispatch.cycles + 1 + (s.dispatch.pending - 1)
      = s.dispatch.cycles + s.dispatch.pending := by omega
  simp only [pass, hcount, hcycles]

/-- After some of the ticks of a dispatched instruction only the counters still have to move. -/
lemma steps_of_dispatches {s : Cpu β} (h : s.dispatches = true) (hfault : s.fault? = none)
    {n : Nat} (hpos : 0 < n) (hle : n ≤ s.dispatch.pending) :
    s.steps n = .ok { s.dispatch with
      pending := s.dispatch.pending - n, cycles := s.dispatch.cycles + n } := by
  obtain ⟨m, rfl⟩ : ∃ m, n = m + 1 := ⟨n - 1, by omega⟩
  have hm : m ≤ s.dispatch.pass.pending := by
    change m ≤ s.dispatch.pending - 1
    omega
  rw [steps, step_of_fault?_eq_none hfault, tick_of_dispatches h]
  have hpending : s.dispatch.pending - 1 - m = s.dispatch.pending - (m + 1) := by omega
  have hcycles : s.dispatch.cycles + 1 + m = s.dispatch.cycles + (m + 1) := by omega
  have hrest := steps_of_le_pending hm
  simp only [pass, hpending, hcycles] at hrest
  exact hrest

/-! ### The loop of an instruction step -/

/-- Stepping on while an instruction is in flight ends when its ticks are spent. -/
lemma finishes_of_pending {n : Nat} :
    ∀ {s : Cpu β}, s.pending = n + 1 →
      Finishes s (n + 1) { s with pending := 0, cycles := s.cycles + (n + 1) } none := by
  induction n with
  | zero =>
    intro s hs
    have hstep : s.step = .ok s.pass := step_of_pending (by omega)
    have hpass : s.pass = { s with pending := 0, cycles := s.cycles + 1 } := by
      simp [pass, hs]
    rw [hpass] at hstep
    exact .last hstep rfl
  | succ n ih =>
    intro s hs
    have hstep : s.step = .ok s.pass := step_of_pending (by omega)
    have hpending : s.pass.pending = n + 1 := by simp [pass, hs]
    have hrest := ih hpending
    have hcycles : s.cycles + 1 + (n + 1) = s.cycles + (n + 1 + 1) := by omega
    simp only [pass, hcycles] at hrest
    exact .more hstep (by omega) hrest

/-- The loop of an instruction step always ends, and the instruction step is what it ends with. -/
lemma finishes_stepInstruction (s : Cpu β) :
    match s.stepInstruction with
    | .ok (n, t) => Finishes s n t none
    | .error f => Finishes s 0 s (some f) := by
  cases hfault : s.fault? with
  | some f =>
    rw [stepInstruction_of_fault?_eq_some hfault]
    exact .fault (step_of_fault?_eq_some hfault)
  | none =>
    rw [stepInstruction_of_fault?_eq_none hfault]
    have hstep : s.step = .ok s.tick := step_of_fault?_eq_none hfault
    cases hpending : s.tick.pending with
    | zero =>
      have htick : { s.tick with pending := 0, cycles := s.tick.cycles + 0 } = s.tick := by
        rw [Nat.add_zero, ← hpending]
      rw [htick]
      exact .last hstep hpending
    | succ n =>
      rw [Nat.add_comm 1]
      exact .more hstep (by omega) (finishes_of_pending hpending)

/-- A fault of an instruction step is one of its first tick. -/
lemma step_of_stepInstruction_eq_error {s : Cpu β} {f : IllegalOpcode}
    (h : s.stepInstruction = .error f) : s.step = .error f := by
  have hfinishes := s.finishes_stepInstruction
  rw [h] at hfinishes
  cases hfinishes with
  | fault hstep => exact hstep

/-! ### Runs of ticks -/

section Invariants

variable {I : Cpu β → Prop} {s : Cpu β}

/-- What a tick keeps is kept by any number of them. -/
lemma ticks_invariant (hI : ∀ t, I t → I t.tick) (h : I s) (n : Nat) : I (s.ticks n) := by
  induction n generalizing s with
  | zero => exact h
  | succ n ih => exact ih (hI s h)

/-- What a tick keeps is kept by a run, whether it ends in a fault or not. -/
lemma run_invariant (hI : ∀ t, I t → I t.tick) (h : I s) (n : Nat) : I (s.run n).1 := by
  induction n generalizing s with
  | zero => exact h
  | succ n ih =>
    unfold run
    cases s.fault? with
    | some f => exact h
    | none => exact ih (hI s h)

end Invariants

/-- What a run goes on with: nothing after a fault. -/
def continueRun (r : Cpu β × Option IllegalOpcode) (next : Cpu β → Cpu β × Option IllegalOpcode) :
    Cpu β × Option IllegalOpcode :=
  match r with
  | (s, none) => next s
  | (s, some f) => (s, some f)

/-- A run of `n + m` ticks is a run of `n` ticks followed by a run of `m`. -/
lemma run_add (s : Cpu β) (n m : Nat) :
    s.run (n + m) = continueRun (s.run n) fun t => t.run m := by
  induction n generalizing s with
  | zero => rw [Nat.zero_add, run, continueRun]
  | succ n ih =>
    rw [Nat.succ_add, run, run]
    cases s.fault? with
    | none => exact ih s.tick
    | some f => rfl

/-- A run of ticks whose steps meet no fault ends where the steps end. -/
lemma run_of_steps {s t : Cpu β} {n : Nat} (h : s.steps n = .ok t) : s.run n = (t, none) := by
  induction n generalizing s with
  | zero =>
    cases h
    rfl
  | succ n ih =>
    rw [run]
    cases hfault : s.fault? with
    | some f =>
      rw [steps, step_of_fault?_eq_some hfault] at h
      cases h
    | none =>
      rw [steps, step_of_fault?_eq_none hfault] at h
      exact ih h

end Cpu

end ChipScore
