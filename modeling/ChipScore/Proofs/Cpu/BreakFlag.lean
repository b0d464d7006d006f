import Mathlib.Tactic
import ChipScore.Bus.AddressSpace
import ChipScore.Bus.Ram
import ChipScore.Proofs.Cpu.Requests

/-!
# The break flag

The break flag and the stop of dispatching are two fields of the processor, and a break sets both.
Nothing keeps them together by construction: a status byte that is pulled has a bit for the break
flag, and a call or the resumption after a break clears either field.  `Cpu.brk_eq_halted` says that
the two never come apart, from a reset on, as long as whoever owns the processor does not set flags
by hand.

That a halted processor stands still is true of every state, reachable or not (`steps_of_halted`).
-/

namespace ChipScore

namespace Flags

/-- The flags that are assigned one by one are others than the break flag. -/
lemma brk_assign (f : Flags) (flag : Flag) (value : Bool) : (f.assign flag value).brk = f.brk := by
  cases flag <;> rfl

/-- Combining the accumulator with a byte keeps the break flag. -/
lemma brk_combined (c : Combination) (f : Flags) (a value : UInt8) :
    (c.apply f a value).2.brk = f.brk := by
  cases c <;> rfl

end Flags

namespace Cpu

/-- Whether a request gives values to flags by hand. -/
def Request.setsFlags : Request → Bool
  | .putStatus _ | .assign _ _ => true
  | _ => false

variable {β : Type}

/-- The break flag is set exactly when dispatching is stopped. -/
def BrkMirrorsHalted (s : Cpu β) : Prop :=
  s.flags.brk = s.halted

/-- Putting a byte into a register has nothing to do with either field. -/
lemma brkMirrorsHalted_put {s : Cpu β} (h : s.BrkMirrorsHalted) (r : Register) (value : UInt8) :
    (s.put r value).BrkMirrorsHalted := by
  cases r <;> exact h

variable [Bus β] {s : Cpu β}

/-- A break sets both fields, and every other effect keeps both. -/
lemma BrkMirrorsHalted.perform (h : s.BrkMirrorsHalted) (b : Binding) (e : Effect) :
    (s.perform b e).BrkMirrorsHalted := by
  cases e with
  | halt => rfl
  | combine c =>
    rw [Cpu.perform]
    cases s.operand? b.mode with
    | none => exact h
    | some o => exact (Flags.brk_combined c s.flags s.a _).trans h
  | modifyCombine m c =>
    rw [Cpu.perform]
    cases s.operand? b.mode with
    | none => exact h
    | some o => exact (Flags.brk_combined c _ s.a _).trans h
  | compareRegister | testBits | store | modify | idle =>
    rw [Cpu.perform]
    cases s.operand? b.mode <;> exact h
  | load d =>
    rw [Cpu.perform]
    cases s.operand? b.mode with
    | none => exact h
    | some o => cases d <;> exact h
  | modifyRegister r m => cases r <;> exact h
  | transfer source target => cases target <;> exact h
  | assign flag value => exact (s.flags.brk_assign flag value).trans h
  | branch flag value =>
    rw [Cpu.perform, branch]
    split <;> exact h
  | _ => exact h

/-- A tick keeps the break flag in step with the halt. -/
lemma BrkMirrorsHalted.tick (h : s.BrkMirrorsHalted) : s.tick.BrkMirrorsHalted := by
  have hfetched : ({ s with pc := s.pc + 1 } : Cpu β).BrkMirrorsHalted := h
  unfold Cpu.tick dispatch
  split_ifs
  · cases Opcode.binding? s.opcode with
    | none => exact h
    | some b => exact hfetched.perform b _
  · exact h

/-- A request that sets no flags by hand keeps the two fields together. -/
lemma BrkMirrorsHalted.serve (h : s.BrkMirrorsHalted) {request : Request}
    (hrequest : request.setsFlags = false) : (s.serve request).1.BrkMirrorsHalted := by
  have htick (t : Cpu β) (ht : t.BrkMirrorsHalted) : t.tick.BrkMirrorsHalted := ht.tick
  cases request with
  | step =>
    rw [Cpu.serve, step]
    cases s.fault? with
    | some f => exact h
    | none => exact h.tick
  | stepInstruction =>
    rw [Cpu.serve, stepInstruction]
    cases s.fault? with
    | some f => exact h
    | none => exact ticks_invariant htick h.tick s.tick.pending
  | run cycles =>
    have hrun := run_invariant htick h cycles
    rw [Cpu.serve]
    generalize s.run cycles = result at hrun
    obtain ⟨t, fault⟩ := result
    cases fault <;> exact hrun
  | loadImage image base =>
    rw [Cpu.serve, loadImage]
    split_ifs <;> exact h
  | call address | resume => rfl
  | put r value => exact brkMirrorsHalted_put h r value
  | putStatus value | assign flag value => cases hrequest
  | putProgramCounter | putPolicy | read | write => exact h

/-- Requests keep the break flag in step with the halt, as long as none of them sets flags by hand.
-/
lemma BrkMirrorsHalted.serveAll (h : s.BrkMirrorsHalted) {requests : List Request}
    (hrequests : ∀ request ∈ requests, request.setsFlags = false) :
    (s.serveAll requests).1.BrkMirrorsHalted := by
  induction requests generalizing s with
  | nil => exact h
  | cons request rest ih =>
    rw [List.forall_mem_cons] at hrequests
    exact ih (h.serve hrequests.1) hrequests.2

/-- Steps of a halted processor move the two counters and nothing else. -/
lemma steps_of_halted (h : s.halted = true) (n : Nat) :
    s.steps n = .ok { s with pending := s.pending - n, cycles := s.cycles + n } := by
  induction n generalizing s with
  | zero => rfl
  | succ n ih =>
    have hidle : s.dispatches = false := dispatches_of_halted h
    have hhalted : s.pass.halted = true := h
    have hpending : s.pending - 1 - n = s.pending - (n + 1) := by omega
    have hcycles : s.cycles + 1 + n = s.cycles + (n + 1) := by omega
    rw [steps, step_of_fault?_eq_none (fault?_of_not_dispatches hidle), tick_of_not_dispatches hidle]
    change s.pass.steps n = _
    rw [ih hhalted]
    simp only [pass, hpending, hcycles]

/-- **The break flag mirrors the halted state.**  Let a processor be reset on any bus and under
either policy, and let it serve any requests, whether they fail or not, none of which sets flags by
hand.  Then the break flag is set exactly when the processor is halted.  While it is halted, any
number of steps succeeds and leaves the registers, the program counter, the flags and the bus as they
are: only ticks are spent. -/
theorem brk_eq_halted {bus : β} {policy : UnboundPolicy} {requests : List Request}
    {answers : List Answer} (hrequests : ∀ request ∈ requests, request.setsFlags = false)
    (hserved : (reset bus policy).serveAll requests = (s, answers)) :
    s.flags.brk = s.halted ∧
      (s.halted = true → ∀ n,
        s.steps n = .ok { s with pending := s.pending - n, cycles := s.cycles + n }) := by
  have hreset : (reset bus policy).BrkMirrorsHalted := rfl
  have hmirrors := hreset.serveAll hrequests
  rw [hserved] at hmirrors
  exact ⟨hmirrors, steps_of_halted⟩

/-- A stack and the routine `LDA #$FF; PHA; PLP; BRK`, which pulls a status byte with all bits
set. -/
def pullingSpace : AddressSpace (Ram 5) :=
  ⟨#[⟨⟨"stack", 0x01FB, 0x01FF⟩, .zero 5⟩,
    ⟨⟨"program", 0x1000, 0x1004⟩, ⟨#v[0xA9, 0xFF, 0x48, 0x28, 0x00]⟩⟩]⟩

/-- The routine is called and stopped in front of its break, and then goes on by one step. -/
def pullingRequests : List Request :=
  [.call 0x1000, .run 9, .putPolicy .skip, .step]

/-- The status byte that is pulled does not set the break flag, and the break does. -/
theorem brk_eq_halted_pullingSpace :
    ((reset pullingSpace .fail).serveAll (pullingRequests.take 3)).1.status = 0xEF ∧
      ∃ s answers, (reset pullingSpace .fail).serveAll pullingRequests = (s, answers) ∧
        s.flags.brk = true ∧ s.halted = true ∧
        s.steps 100 = .ok { s with pending := 0, cycles := 110 } := by
  obtain ⟨s, answers, hserved⟩ : ∃ s answers,
      (reset pullingSpace .fail).serveAll pullingRequests = (s, answers) :=
    ⟨_, _, Prod.mk.eta.symm⟩
  have hrequests : ∀ request ∈ pullingRequests, request.setsFlags = false := by decide
  obtain ⟨hbrk, hstill⟩ := brk_eq_halted hrequests hserved
  obtain ⟨hhalted, hpending, hcycles⟩ :
      ((reset pullingSpace .fail).serveAll pullingRequests).1.halted = true ∧
        ((reset pullingSpace .fail).serveAll pullingRequests).1.pending = 6 ∧
        ((reset pullingSpace .fail).serveAll pullingRequests).1.cycles = 10 := by
    decide +kernel
  rw [hserved] at hhalted hpending hcycles
  refine ⟨by decide +kernel, s, answers, hserved, hbrk.trans hhalted, hhalted, ?_⟩
  rw [hstill hhalted, hpending, hcycles]

end Cpu

end ChipScore
