import Mathlib.Tactic
import ChipScore.Proofs.Cpu.Cost

/-!
# The instruction machine and the tick machine

The processor can be driven tick by tick (`Cpu.step`, `Cpu.run`) or instruction by instruction
(`Cpu.stepInstruction`).  The tick machine refines the instruction machine: an instruction has its
whole effect on its first tick, the ticks that follow only move the counters, and a run of
instructions is the run of as many ticks as they cost.
-/

namespace ChipScore

namespace Cpu

variable {β : Type} [Bus β]

/-- A number of instruction steps, up to the first fault: the ticks that they took, the state that
they led to, and the fault. -/
def runInstructions (s : Cpu β) : Nat → Nat × Cpu β × Option IllegalOpcode
  | 0 => (0, s, none)
  | k + 1 =>
    match s.stepInstruction with
    | .error f => (0, s, some f)
    | .ok (c, t) =>
      let (n, u, f?) := t.runInstructions k
      (c + n, u, f?)

/-- Steps from where other steps have led. -/
lemma steps_add {s t : Cpu β} {n : Nat} (h : s.steps n = .ok t) (m : Nat) :
    s.steps (n + m) = t.steps m := by
  induction n generalizing s with
  | zero =>
    cases h
    rw [Nat.zero_add]
  | succ n ih =>
    rw [Nat.succ_add, steps]
    cases hstep : s.step with
    | error f =>
      rw [steps, hstep] at h
      cases h
    | ok u =>
      rw [steps, hstep] at h
      exact ih h

/-- An instruction step is as many steps as it counts. -/
lemma steps_of_finishes {s t : Cpu β} {n : Nat} {f? : Option IllegalOpcode}
    (h : Finishes s n t f?) : s.steps n = .ok t := by
  induction h with
  | fault hstep => rfl
  | last hstep hpending =>
    rw [steps, hstep]
    rfl
  | more hstep hpending hrest ih =>
    rw [steps, hstep]
    exact ih

/-- A good instruction step is as many steps as it counts. -/
lemma steps_of_stepInstruction {s t : Cpu β} {c : Nat} (h : s.stepInstruction = .ok (c, t)) :
    s.steps c = .ok t := by
  have hfinishes := s.finishes_stepInstruction
  rw [h] at hfinishes
  exact steps_of_finishes hfinishes

/-- A run of instructions is as many steps as they cost, and its fault is that of the step after
them. -/
lemma steps_of_runInstructions {k : Nat} :
    ∀ {s t : Cpu β} {n : Nat} {f? : Option IllegalOpcode}, s.runInstructions k = (n, t, f?) →
      s.steps n = .ok t ∧ ∀ f ∈ f?, t.step = .error f := by
  induction k with
  | zero =>
    intro s t n f? h
    cases h
    exact ⟨rfl, fun f hf => by cases hf⟩
  | succ k ih =>
    intro s t n f? h
    rw [runInstructions] at h
    cases hstep : s.stepInstruction with
    | error g =>
      rw [hstep] at h
      cases h
      refine ⟨rfl, fun f hf => ?_⟩
      obtain rfl := Option.some.inj hf
      exact step_of_stepInstruction_eq_error hstep
    | ok r =>
      obtain ⟨c, u⟩ := r
      rw [hstep] at h
      obtain ⟨n', t', f', hrest⟩ : ∃ n' t' f', u.runInstructions k = (n', t', f') :=
        ⟨_, _, _, rfl⟩
      simp only [hrest, Prod.mk.injEq] at h
      obtain ⟨rfl, rfl, rfl⟩ := h
      obtain ⟨hsteps, hfault⟩ := ih hrest
      exact ⟨(steps_add (steps_of_stepInstruction hstep) n').trans hsteps, hfault⟩

/-- Between instructions, a good instruction step dispatches without a fault. -/
lemma stepInstruction_eq_dispatch {s t : Cpu β} {c : Nat} (hdispatches : s.dispatches = true)
    (h : s.stepInstruction = .ok (c, t)) :
    s.fault? = none ∧ c = s.dispatch.pending ∧
      t = { s.dispatch with pending := 0, cycles := s.dispatch.cycles + c } := by
  cases hfault : s.fault? with
  | some f =>
    rw [stepInstruction_of_fault?_eq_some hfault] at h
    cases h
  | none =>
    rw [stepInstruction_of_dispatches hdispatches hfault s.dispatch_pending_bounds.1] at h
    cases h
    exact ⟨rfl, rfl, rfl⟩

/-- The whole effect of an instruction is there after its first tick: on every later tick only the
counters differ from the state at its end. -/
lemma steps_within_instruction {s t : Cpu β} {c j : Nat} (hdispatches : s.dispatches = true)
    (h : s.stepInstruction = .ok (c, t)) (hpos : 1 ≤ j) (hle : j ≤ c) :
    s.steps j = .ok { t with pending := c - j, cycles := s.cycles + j } := by
  obtain ⟨hfault, rfl, rfl⟩ := stepInstruction_eq_dispatch hdispatches h
  rw [steps_of_dispatches hdispatches hfault hpos hle, dispatch_cycles]

/-- **The tick machine refines the instruction machine.**  From any state:

* between instructions, a good instruction step takes one to eight ticks, and after each of these
  ticks the state is already the one at the end of the instruction, but for the two counters;
* while an instruction is in flight, halted or not, an instruction step spends its remaining
  ticks and changes nothing but the two counters;
* a halted processor with nothing in flight spends one tick;
* a run of `n + m` ticks is a run of `n` ticks followed by a run of `m`;
* a run of instructions is the run of the ticks that they cost, and if it ends with a fault then
  the next tick is that fault;
* stepping until no instruction is in flight always ends, with what an instruction step gives. -/
theorem tick_machine_refines_instruction_machine (s : Cpu β) :
    (∀ c t, s.pending = 0 → s.halted = false → s.stepInstruction = .ok (c, t) →
      1 ≤ c ∧ c ≤ 8 ∧
        ∀ j, 1 ≤ j → j ≤ c →
          s.steps j = .ok { t with pending := c - j, cycles := s.cycles + j }) ∧
    (0 < s.pending → s.stepInstruction =
      .ok (s.pending, { s with pending := 0, cycles := s.cycles + s.pending })) ∧
    (s.pending = 0 → s.halted = true →
      s.stepInstruction = .ok (1, { s with cycles := s.cycles + 1 })) ∧
    (∀ n m, s.run (n + m) = continueRun (s.run n) fun t => t.run m) ∧
    (∀ k n t f?, s.runInstructions k = (n, t, f?) →
      s.run n = (t, none) ∧ ∀ f ∈ f?, t.step = .error f) ∧
    (match s.stepInstruction with
      | .ok (n, t) => Finishes s n t none
      | .error f => Finishes s 0 s (some f)) := by
  refine ⟨?_, stepInstruction_of_pending, stepInstruction_of_halted, run_add s, ?_,
    finishes_stepInstruction s⟩
  · intro c t hpending hhalted hstep
    have hdispatches := dispatches_of_idle hpending hhalted
    have hbounds := s.dispatch_pending_bounds
    rw [← (stepInstruction_eq_dispatch hdispatches hstep).2.1] at hbounds
    exact ⟨hbounds.1, hbounds.2, fun j => steps_within_instruction hdispatches hstep⟩
  · intro k n t f? h
    obtain ⟨hsteps, hfault⟩ := steps_of_runInstructions h
    exact ⟨run_of_steps hsteps, hfault⟩

end Cpu

end ChipScore
