import Mathlib.Tactic
import ChipScore.Proofs.Cpu.Faults

/-!
# Requests

Whoever owns a processor can let it run, load a program, call a routine, set its registers and
flags, and look at its bus.  `Cpu.serve` carries out one such `Cpu.Request` and says what is
answered; a request that fails leaves the processor where it is, and the owner may go on asking.

Processors on different buses are `Cpu.Alike` when they agree and have one policy.  If reads cannot
tell their buses apart and writes keep them so, then like processors answer alike, whatever they are
asked for (`Cpu.Alike.serveAll`).
-/

namespace ChipScore

/-- Related buses are still related after an image is written to both. -/
lemma Bus.IsBisimulation.writeFrom {β γ : Type} [Bus β] [Bus γ] {R : β → γ → Prop}
    (hR : IsBisimulation R) {b : β} {c : γ} (h : R b c) (image : List UInt8) (address : UInt16) :
    R (Bus.writeFrom b address image) (Bus.writeFrom c address image) := by
  induction image generalizing b c address with
  | nil => exact h
  | cons value rest ih => exact ih (hR.write h address value) (address + 1)

namespace Cpu

/-- What a processor can be asked for. -/
inductive Request
  /-- One tick. -/
  | step
  /-- The instruction in flight, or the next one. -/
  | stepInstruction
  /-- A number of ticks. -/
  | run (cycles : Nat)
  /-- A program image in memory. -/
  | loadImage (image : List UInt8) (base : UInt16)
  /-- A call of a routine. -/
  | call (address : UInt16)
  /-- Going on after a break. -/
  | resume
  /-- A value for a register. -/
  | put (r : Register) (value : UInt8)
  /-- A value for the program counter. -/
  | putProgramCounter (address : UInt16)
  /-- A value for the status byte. -/
  | putStatus (value : UInt8)
  /-- A value for a flag. -/
  | assign (f : Flag) (value : Bool)
  /-- A policy. -/
  | putPolicy (policy : UnboundPolicy)
  /-- The byte at an address. -/
  | read (address : UInt16)
  /-- A byte at an address. -/
  | write (address : UInt16) (value : UInt8)

/-- What a processor answers. -/
inductive Answer
  /-- The request is carried out. -/
  | done
  /-- The request has taken a number of ticks. -/
  | spent (cycles : Nat)
  /-- The byte that was asked for. -/
  | byte (value : UInt8)
  /-- The processor has met a fault. -/
  | fault (f : IllegalOpcode)
  /-- The image was refused. -/
  | refused (e : ImageTooLarge)
  deriving DecidableEq

section Serve

variable {β : Type} [Bus β]

/-- The processor after a request, and its answer. -/
def serve (s : Cpu β) : Request → Cpu β × Answer
  | .step =>
    match s.step with
    | .ok t => (t, .done)
    | .error f => (s, .fault f)
  | .stepInstruction =>
    match s.stepInstruction with
    | .ok (n, t) => (t, .spent n)
    | .error f => (s, .fault f)
  | .run cycles =>
    match s.run cycles with
    | (t, none) => (t, .spent cycles)
    | (t, some f) => (t, .fault f)
  | .loadImage image base =>
    match s.loadImage image base with
    | .ok t => (t, .done)
    | .error e => (s, .refused e)
  | .call address => (s.call address, .done)
  | .resume => (s.resume, .done)
  | .put r value => (s.put r value, .done)
  | .putProgramCounter address => ({ s with pc := address }, .done)
  | .putStatus value => ({ s with flags := Flags.ofByte value }, .done)
  | .assign f value => ({ s with flags := s.flags.assign f value }, .done)
  | .putPolicy policy => ({ s with policy := policy }, .done)
  | .read address => (s, .byte (s.read address))
  | .write address value => (s.write address value, .done)

/-- The processor after requests, made one after the other whether they fail or not, and its
answers. -/
def serveAll (s : Cpu β) : List Request → Cpu β × List Answer
  | [] => (s, [])
  | request :: rest =>
    (((s.serve request).1.serveAll rest).1,
      (s.serve request).2 :: ((s.serve request).1.serveAll rest).2)

end Serve

/-- Two processors are alike when they differ in nothing but their buses, and the buses are
related. -/
structure Alike {β γ : Type} (R : β → γ → Prop) (s : Cpu β) (t : Cpu γ) : Prop
    extends Agree R s t where
  policy : s.policy = t.policy

/-! ### The policy stays what it is -/

lemma put_policy {β : Type} (s : Cpu β) (r : Register) (value : UInt8) :
    (s.put r value).policy = s.policy := by
  cases r <;> rfl

lemma run_policy {β : Type} [Bus β] (s : Cpu β) (n : Nat) : (s.run n).1.policy = s.policy := by
  have htick (t : Cpu β) (h : t.policy = s.policy) : t.tick.policy = s.policy :=
    t.tick_policy.trans h
  exact run_invariant htick rfl n

/-! ### Like processors -/

namespace Alike

variable {β γ : Type} {R : β → γ → Prop} {s : Cpu β} {t : Cpu γ}

/-- Another relation between the buses may take the place of the first. -/
lemma of_bus {S : β → γ → Prop} (h : Alike R s t) (hbus : S s.bus t.bus) : Alike S s t :=
  { h with bus := hbus }

variable [Bus β] [Bus γ]

/-- A number of ticks keeps processors alike. -/
lemma ticks (hR : Bus.IsBisimulation R) (h : Alike R s t) (n : Nat) :
    Alike R (s.ticks n) (t.ticks n) where
  toAgree := h.toAgree.ticks hR n
  policy := by rw [ticks_policy, ticks_policy, h.policy]

/-- Like processors run alike, up to the same fault. -/
lemma run (hR : Bus.IsBisimulation R) (h : Alike R s t) (n : Nat) :
    Alike R (s.run n).1 (t.run n).1 ∧ (s.run n).2 = (t.run n).2 := by
  obtain ⟨hrun, hfault⟩ := h.toAgree.run hR h.policy n
  refine ⟨⟨hrun, ?_⟩, hfault⟩
  rw [run_policy, run_policy, h.policy]

/-- Like processors answer a request alike, and are still alike. -/
lemma serve (hR : Bus.IsBisimulation R) (h : Alike R s t) (request : Request) :
    Alike R (s.serve request).1 (t.serve request).1 ∧
      (s.serve request).2 = (t.serve request).2 := by
  have hfault : s.fault? = t.fault? := h.fault? hR h.policy
  have htick : Alike R s.tick t.tick := h.ticks hR 1
  cases request with
  | step =>
    simp only [Cpu.serve, step, ← hfault]
    cases s.fault? with
    | some f => exact ⟨h, rfl⟩
    | none => exact ⟨htick, rfl⟩
  | stepInstruction =>
    simp only [Cpu.serve, stepInstruction, ← hfault]
    cases s.fault? with
    | some f => exact ⟨h, rfl⟩
    | none =>
      refine ⟨?_, congrArg (fun n => Answer.spent (1 + n)) htick.pending⟩
      rw [← htick.pending]
      exact htick.ticks hR _
  | run cycles =>
    obtain ⟨hrun, hsame⟩ := h.run hR cycles
    simp only [Cpu.serve]
    generalize s.run cycles = result at hrun hsame
    generalize t.run cycles = other at hrun hsame
    obtain ⟨u, fault⟩ := result
    obtain ⟨v, fault'⟩ := other
    obtain rfl : fault = fault' := hsame
    cases fault with
    | some f => exact ⟨hrun, rfl⟩
    | none => exact ⟨hrun, rfl⟩
  | loadImage image base =>
    simp only [Cpu.serve, Cpu.loadImage]
    split_ifs with hlarge
    · exact ⟨h, rfl⟩
    · exact ⟨{ h with bus := hR.writeFrom h.bus image base }, rfl⟩
  | call address => exact ⟨⟨h.toAgree.call hR address, h.policy⟩, rfl⟩
  | resume =>
    refine ⟨{ h with flags := ?_, halted := rfl }, rfl⟩
    exact congrArg (fun f : Flags => { f with brk := false }) h.flags
  | put r value =>
    refine ⟨⟨h.toAgree.put r value, ?_⟩, rfl⟩
    exact (s.put_policy r value).trans (h.policy.trans (t.put_policy r value).symm)
  | putProgramCounter address => exact ⟨{ h with pc := rfl }, rfl⟩
  | putStatus value => exact ⟨{ h with flags := rfl }, rfl⟩
  | assign f value =>
    exact ⟨{ h with flags := congrArg (Flags.assign · f value) h.flags }, rfl⟩
  | putPolicy policy => exact ⟨{ h with policy := rfl }, rfl⟩
  | read address => exact ⟨h, congrArg Answer.byte (h.toAgree.read hR address)⟩
  | write address value => exact ⟨⟨h.toAgree.write hR address value, h.policy⟩, rfl⟩

/-- Like processors give like answers to any requests, and are still alike. -/
lemma serveAll (hR : Bus.IsBisimulation R) (h : Alike R s t) (requests : List Request) :
    Alike R (s.serveAll requests).1 (t.serveAll requests).1 ∧
      (s.serveAll requests).2 = (t.serveAll requests).2 := by
  induction requests generalizing s t with
  | nil => exact ⟨h, rfl⟩
  | cons request rest ih =>
    obtain ⟨hserved, hanswer⟩ := h.serve hR request
    obtain ⟨hrest, hanswers⟩ := ih hserved
    exact ⟨hrest, congrArg₂ List.cons hanswer hanswers⟩

end Alike

end Cpu

end ChipScore
