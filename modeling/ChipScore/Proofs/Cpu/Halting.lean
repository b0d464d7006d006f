import Mathlib.Tactic
import ChipScore.Proofs.Cpu.Faults

/-!
# Running to the halt

`Cpu.runToHalt` looks whether the processor is halted before it looks at the next tick, and spends
no tick after its budget.  A run to the halt therefore ends in one of three ways, which
`Cpu.EndsWithin` tells apart by the steps of the processor alone: at the first halt, if that is
within the budget; at a fault that comes before any halt and while there are ticks left; or with its
budget spent.  The three exclude each other, so that `runToHalt_eq_iff` says what a run to the halt
is without a word about its loop.
-/

namespace ChipScore

namespace Cpu

variable {β : Type} [Bus β] {s t : Cpu β} {f : IllegalOpcode} {n limit : Nat}

/-- A number of good steps leave the processor halted. -/
def HaltedAfter (s : Cpu β) (n : Nat) : Prop :=
  ∃ t, s.steps n = .ok t ∧ t.halted = true

/-- A number of good steps are followed by a fault. -/
def FaultsAfter (s : Cpu β) (n : Nat) (f : IllegalOpcode) : Prop :=
  ∃ t, s.steps n = .ok t ∧ t.step = .error f

/-- How a run to the halt ends that may take a number of ticks. -/
inductive EndsWithin (s : Cpu β) (limit : Nat) : Cpu β × Option IllegalOpcode → Prop
  /-- It ends at the first halt. -/
  | halted {n : Nat} {t : Cpu β} : n ≤ limit → IsLeast {n | s.HaltedAfter n} n →
      s.steps n = .ok t → EndsWithin s limit (t, none)
  /-- It ends before a fault that it meets on its way. -/
  | fault {n : Nat} {t : Cpu β} {f : IllegalOpcode} : n < limit → s.steps n = .ok t →
      t.step = .error f → (∀ i ≤ n, ¬s.HaltedAfter i) → EndsWithin s limit (t, some f)
  /-- It ends when its ticks are spent. -/
  | spent {t : Cpu β} : s.steps limit = .ok t → (∀ i ≤ limit, ¬s.HaltedAfter i) →
      EndsWithin s limit (t, none)

/-- After good steps there is one processor to ask whether it is halted. -/
lemma haltedAfter_iff_of_steps (h : s.steps n = .ok t) : s.HaltedAfter n ↔ t.halted = true := by
  constructor
  · rintro ⟨u, hu, hhalted⟩
    obtain rfl : t = u := Except.ok.inj (h.symm.trans hu)
    exact hhalted
  · exact fun hhalted => ⟨t, h, hhalted⟩

/-- Steps can be tried out. -/
instance (s : Cpu β) (n : Nat) : Decidable (s.HaltedAfter n) :=
  match h : s.steps n with
  | .ok _ => decidable_of_iff _ (haltedAfter_iff_of_steps h).symm
  | .error _ => .isFalse fun ⟨_, hsteps, _⟩ => nomatch h.symm.trans hsteps

/-- No steps leave the processor halted just if it is halted already. -/
lemma haltedAfter_zero : s.HaltedAfter 0 ↔ s.halted = true :=
  haltedAfter_iff_of_steps rfl

/-- A step without a fault is a tick, and the other steps follow it. -/
lemma steps_succ_of_fault? (h : s.fault? = none) (n : Nat) : s.steps (n + 1) = s.tick.steps n := by
  rw [steps, step_of_fault?_eq_none h]
  rfl

/-- A step without a fault brings the halt one step nearer. -/
lemma haltedAfter_succ (h : s.fault? = none) (n : Nat) :
    s.HaltedAfter (n + 1) ↔ s.tick.HaltedAfter n := by
  rw [HaltedAfter, steps_succ_of_fault? h, HaltedAfter]

/-- The first halt of a processor that is not halted now lies one tick further off than after the
tick. -/
lemma isLeast_haltedAfter_succ (hhalted : s.halted = false) (hfault : s.fault? = none)
    (h : IsLeast {n | s.tick.HaltedAfter n} n) : IsLeast {n | s.HaltedAfter n} (n + 1) := by
  refine ⟨(haltedAfter_succ hfault n).mpr h.1, fun m hm => ?_⟩
  cases m with
  | zero =>
    have hnow : s.halted = true := haltedAfter_zero.mp hm
    rw [hhalted] at hnow
    cases hnow
  | succ m => exact Nat.succ_le_succ (h.2 ((haltedAfter_succ hfault m).mp hm))

/-- A processor that is not halted now and not after the tick either, up to some time. -/
lemma not_haltedAfter_succ (hhalted : s.halted = false) (hfault : s.fault? = none)
    (h : ∀ i ≤ n, ¬s.tick.HaltedAfter i) : ∀ i ≤ n + 1, ¬s.HaltedAfter i := by
  intro i hi
  cases i with
  | zero => rw [haltedAfter_zero, hhalted]; exact Bool.false_ne_true
  | succ i =>
    rw [haltedAfter_succ hfault]
    exact h i (Nat.le_of_succ_le_succ hi)

/-- A run to the halt ends in one of the three ways. -/
lemma endsWithin_runToHalt (s : Cpu β) (limit : Nat) : s.EndsWithin limit (s.runToHalt limit) := by
  induction limit generalizing s with
  | zero =>
    cases hhalted : s.halted with
    | true => exact .halted le_rfl ⟨haltedAfter_zero.mpr hhalted, fun _ _ => Nat.zero_le _⟩ rfl
    | false =>
      refine .spent rfl fun i hi => ?_
      rw [Nat.le_zero.mp hi, haltedAfter_zero, hhalted]
      exact Bool.false_ne_true
  | succ limit ih =>
    unfold runToHalt
    split_ifs with hhalted
    · exact .halted (Nat.zero_le _) ⟨haltedAfter_zero.mpr hhalted, fun _ _ => Nat.zero_le _⟩ rfl
    · rw [Bool.not_eq_true] at hhalted
      cases hfault : s.fault? with
      | some f =>
        refine .fault (Nat.succ_pos limit) rfl (step_of_fault?_eq_some hfault) fun i hi => ?_
        rw [Nat.le_zero.mp hi, haltedAfter_zero, hhalted]
        exact Bool.false_ne_true
      | none =>
        -- the tick brings every way of ending one step nearer
        have hrest := ih s.tick
        dsimp only
        generalize s.tick.runToHalt limit = r at hrest ⊢
        cases hrest with
        | halted hle hleast hsteps =>
          exact .halted (Nat.succ_le_succ hle) (isLeast_haltedAfter_succ hhalted hfault hleast)
            ((steps_succ_of_fault? hfault _).trans hsteps)
        | fault hlt hsteps hstep hnever =>
          exact .fault (Nat.succ_lt_succ hlt) ((steps_succ_of_fault? hfault _).trans hsteps) hstep
            (not_haltedAfter_succ hhalted hfault hnever)
        | spent hsteps hnever =>
          exact .spent ((steps_succ_of_fault? hfault _).trans hsteps)
            (not_haltedAfter_succ hhalted hfault hnever)

/-- Good steps do not lead past a fault. -/
lemma le_of_steps_of_step_eq_error {u : Cpu β} {m : Nat} (hok : s.steps m = .ok u)
    (hsteps : s.steps n = .ok t) (hstep : t.step = .error f) : m ≤ n := by
  by_contra hlt
  have hfault : s.run m = (t, some f) := run_eq_fault_iff.mpr ⟨n, Nat.not_le.mp hlt, hsteps, hstep⟩
  rw [run_of_steps hok] at hfault
  cases hfault

/-- The three ways of ending exclude each other. -/
lemma EndsWithin.unique {r r' : Cpu β × Option IllegalOpcode} (h : s.EndsWithin limit r)
    (h' : s.EndsWithin limit r') : r = r' := by
  cases h with
  | @halted n t hle hleast hsteps =>
    cases h' with
    | halted hle' hleast' hsteps' =>
      rw [hleast'.unique hleast, hsteps] at hsteps'
      rw [Except.ok.inj hsteps']
    | fault hlt' hsteps' hstep' hnever' =>
      exact absurd hleast.1 (hnever' n (le_of_steps_of_step_eq_error hsteps hsteps' hstep'))
    | spent hsteps' hnever' => exact absurd hleast.1 (hnever' n hle)
  | @fault n t f hlt hsteps hstep hnever =>
    have hrun : s.run limit = (t, some f) := run_eq_fault_iff.mpr ⟨n, hlt, hsteps, hstep⟩
    cases h' with
    | halted hle' hleast' hsteps' =>
      exact absurd hleast'.1 (hnever _ (le_of_steps_of_step_eq_error hsteps' hsteps hstep))
    | fault hlt' hsteps' hstep' hnever' =>
      exact hrun.symm.trans (run_eq_fault_iff.mpr ⟨_, hlt', hsteps', hstep'⟩)
    | spent hsteps' hnever' =>
      exact hrun.symm.trans (run_of_steps hsteps')
  | @spent t hsteps hnever =>
    cases h' with
    | halted hle' hleast' hsteps' => exact absurd hleast'.1 (hnever _ hle')
    | fault hlt' hsteps' hstep' hnever' =>
      exact (run_of_steps hsteps).symm.trans
        (run_eq_fault_iff.mpr ⟨_, hlt', hsteps', hstep'⟩)
    | spent hsteps' hnever' =>
      rw [hsteps] at hsteps'
      rw [Except.ok.inj hsteps']

/-- What a run to the halt is, by the steps of the processor. -/
lemma runToHalt_eq_iff {r : Cpu β × Option IllegalOpcode} :
    s.runToHalt limit = r ↔ s.EndsWithin limit r := by
  constructor
  · rintro rfl
    exact s.endsWithin_runToHalt limit
  · exact (s.endsWithin_runToHalt limit).unique

/-- A processor that is halted after some time has a first halt. -/
lemma exists_isLeast_haltedAfter (h : s.HaltedAfter n) :
    ∃ m ≤ n, IsLeast {n | s.HaltedAfter n} m := by
  classical
  have hexists : ∃ n, s.HaltedAfter n := ⟨n, h⟩
  exact ⟨Nat.find hexists, Nat.find_min' hexists h, Nat.find_spec hexists,
    fun _ => Nat.find_min' hexists⟩

end Cpu

end ChipScore
