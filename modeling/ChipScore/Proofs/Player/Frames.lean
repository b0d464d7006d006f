import Mathlib.Tactic
import ChipScore.Player
import ChipScore.Proofs.Cpu.Faults
import ChipScore.Proofs.Note.Transcription
import ChipScore.Proofs.Sound.VoiceBank

/-!
# Frames

What a player does in a frame is written out as `Player.directives`: the play routine is called if
the processor was halted when the frame began, the processor runs for the cycles of a frame, and the
chip's transcribers look at their registers.  `Accounted` keeps the books of a number of frames in
these terms, and `accounted_runFrames` says that they balance for as long as no frame fails.

A frame that fails does so in the middle: the processor stands before an unbound opcode, while the
clock and the transcribers are where they were.  From there nothing moves any more but the count of
overruns (`stepFrame_of_fault?`).
-/

namespace ChipScore

lemma Region.cyclesPerFrame_pos (region : Region) : 0 < region.cyclesPerFrame := by
  cases region <;> decide

/-- A frame more for the transcriber of a voice. -/
lemma transcribe_concat (clockHz : Binary64) (clock : FrameClock) (frames : List VoiceRegisters)
    (r : VoiceRegisters) :
    transcribe clockHz clock (frames ++ [r]) =
      (transcribe clockHz clock frames).finishFrame r (clock.onFrame frames.length) := by
  rw [transcribe, List.zipIdx_append, List.foldl_append, Nat.zero_add]
  rfl

/-! ### What time does to a processor -/

namespace Cpu

variable {β : Type} [Bus β]

/-- A run without a fault spends all its cycles. -/
lemma cycles_of_run {s t : Cpu β} {n : Nat} (h : s.run n = (t, none)) :
    t.cycles = s.cycles + n := by
  induction n generalizing s with
  | zero =>
    cases h
    rfl
  | succ n ih =>
    rw [ih (first_of_run h).2, tick_cycles]
    omega

/-- A run that ends with a fault stands before it. -/
lemma fault?_of_run {s t : Cpu β} {n : Nat} {f : IllegalOpcode} (h : s.run n = (t, some f)) :
    t.fault? = some f := by
  obtain ⟨j, -, -, hstep⟩ := run_eq_fault_iff.mp h
  exact step_eq_error_iff.mp hstep

end Cpu

/-! ### The board -/

/-- A write to the board leaves the transcribers alone. -/
lemma Board.transcriber_write {t : Transcriber} (v : Fin 3) (board : Board) (address : UInt16)
    (value : UInt8) (h : (board.chip.voice v).transcriber = t) :
    ((Bus.write board address value).chip.voice v).transcriber = t := by
  change ((if chipWindow.contains address then _ else _ : Board).chip.voice v).transcriber = t
  split
  · exact (board.chip.transcriber_write _ value v).trans h
  · exact h

namespace Cpu

/-! The processor cannot reach the transcribers. -/

/-- A call does not reach the transcribers. -/
lemma transcriber_call (s : Cpu Board) (address : UInt16) (v : Fin 3) :
    ((s.call address).bus.chip.voice v).transcriber = (s.bus.chip.voice v).transcriber :=
  call_bus (Board.transcriber_write v) rfl address

/-- A run does not reach the transcribers, whatever it writes to the chip. -/
lemma transcriber_run (s : Cpu Board) (n : Nat) (v : Fin 3) :
    ((s.run n).1.bus.chip.voice v).transcriber = (s.bus.chip.voice v).transcriber :=
  run_bus (Board.transcriber_write v) rfl n

/-- A run to the halt does not reach the transcribers either. -/
lemma transcriber_runToHalt (s : Cpu Board) (n : Nat) (v : Fin 3) :
    ((s.runToHalt n).1.bus.chip.voice v).transcriber = (s.bus.chip.voice v).transcriber :=
  runToHalt_bus (Board.transcriber_write v) rfl n

end Cpu

namespace Player

variable {p q r : Player} {k n : Nat}

/-- One of the three voices. -/
def voice (p : Player) (v : Fin 3) : Voice :=
  p.chip.voice v

/-- What a player does to the processor and the chip. -/
inductive Directive
  /-- The processor is made to call a routine. -/
  | call (address : UInt16)
  /-- The processor runs. -/
  | run (cycles : Nat)
  /-- The transcribers of all voices look at their registers. -/
  | finishFrame (clock : FrameClock)

/-- The processor and its board after a directive that meets no fault. -/
def Directive.apply (cpu : Cpu Board) : Directive → Cpu Board
  | .call address => cpu.call address
  | .run cycles => (cpu.run cycles).1
  | .finishFrame clock => onChip cpu fun chip => chip.finishFrame clock

/-- The player after a number of frames. -/
def after (p : Player) (frames : Nat) : Player :=
  (p.runFrames frames).1

/-- Whether the play routine is called in a frame. -/
def calls (p : Player) (frame : Nat) : Bool :=
  (p.after frame).cpu.halted

/-- What a player does in a frame. -/
def directives (p : Player) (frame : Nat) : List Directive :=
  (if p.calls frame then [.call p.playAddress] else []) ++
    [.run p.config.region.cyclesPerFrame, .finishFrame (p.clock.onFrame frame)]

/-- The registers of a voice at the ends of a number of frames. -/
def heard (p : Player) (v : Fin 3) (frames : Nat) : List VoiceRegisters :=
  (List.range frames).map fun frame => ((p.after (frame + 1)).voice v).registers

/-- The books of a number of frames that have been played without an error. -/
structure Accounted (p : Player) (k : Nat) (q : Player) : Prop where
  /-- The clock counts the frames. -/
  frame : q.frame = k
  /-- Every frame spends its cycles, no more and no less. -/
  cycles : q.cpu.cycles = p.cpu.cycles + k * p.config.region.cyclesPerFrame
  /-- The directives of the frames, in their order, are all that was done. -/
  cpu : q.cpu = ((List.range k).flatMap p.directives).foldl Directive.apply p.cpu
  /-- Every voice has been looked at once in each frame, in the order of the frames. -/
  transcriber : ∀ v, (q.voice v).transcriber =
    transcribe p.config.region.chipClock p.clock (p.heard v k)
  /-- The overruns are the frames without a call. -/
  overruns : q.overruns = ((List.range k).filter fun frame => !p.calls frame).length
  /-- The settings stay what they are. -/
  settings : q = { p with cpu := q.cpu, clock := p.clock.onFrame k, overruns := q.overruns }

/-! ### One frame -/

/-- The processor when a frame has begun. -/
def begun (p : Player) : Cpu Board :=
  if p.cpu.halted then p.cpu.call p.playAddress else p.cpu

/-- The overruns when a frame has begun. -/
def overrunsBegun (p : Player) : Nat :=
  if p.cpu.halted then p.overruns else p.overruns + 1

/-- A frame begins with a call of the play routine, or else with an overrun. -/
lemma beginFrame_eq (p : Player) :
    p.beginFrame = { p with cpu := p.begun, overruns := p.overrunsBegun } := by
  cases p
  unfold beginFrame begun overrunsBegun
  dsimp only
  split <;> rfl

/-- A frame runs the processor for its cycles. -/
lemma runFrame_eq (p : Player) :
    p.runFrame = match p.cpu.run p.config.region.cyclesPerFrame with
      | (cpu, fault?) => ({ p with cpu := cpu }, fault?) := by
  cases p
  rfl

/-- A frame ends with the transcribers looking at the chip, and then the clock moves. -/
lemma endFrame_eq (p : Player) :
    p.endFrame = { p with
      cpu := onChip p.cpu fun chip => chip.finishFrame p.clock
      clock := p.clock.advance 1 } := by
  cases p
  rfl

/-- What one frame does. -/
lemma stepFrame_eq (p : Player) :
    p.stepFrame = match p.begun.run p.config.region.cyclesPerFrame with
      | (cpu, none) =>
        ({ p with
            cpu := onChip cpu fun chip => chip.finishFrame p.clock
            clock := p.clock.advance 1
            overruns := p.overrunsBegun }, none)
      | (cpu, some f) =>
        ({ p with cpu := cpu, overruns := p.overrunsBegun }, some (.execution p.frame f)) := by
  rw [stepFrame, beginFrame_eq, runFrame_eq]
  dsimp only
  generalize p.begun.run p.config.region.cyclesPerFrame = outcome
  obtain ⟨cpu, _ | f⟩ := outcome
  · exact congrArg (·, none) (endFrame_eq _)
  · rfl

/-- A frame without an error is a run without a fault, after which the transcribers are called. -/
lemma exists_run_of_stepFrame (h : p.stepFrame = (q, none)) :
    ∃ cpu, p.begun.run p.config.region.cyclesPerFrame = (cpu, none) ∧
      q = { p with
        cpu := onChip cpu fun chip => chip.finishFrame p.clock
        clock := p.clock.advance 1
        overruns := p.overrunsBegun } := by
  rw [stepFrame_eq] at h
  generalize p.begun.run p.config.region.cyclesPerFrame = outcome at h ⊢
  obtain ⟨cpu, _ | f⟩ := outcome
  · cases h
    exact ⟨cpu, rfl, rfl⟩
  · cases h

/-- A frame with an error is a run that ends with a fault, and nothing is done after it. -/
lemma exists_fault_of_stepFrame {e : Error} (h : p.stepFrame = (q, some e)) :
    ∃ cpu f, p.begun.run p.config.region.cyclesPerFrame = (cpu, some f) ∧
      q = { p with cpu := cpu, overruns := p.overrunsBegun } ∧ e = .execution p.frame f := by
  rw [stepFrame_eq] at h
  generalize p.begun.run p.config.region.cyclesPerFrame = outcome at h ⊢
  obtain ⟨cpu, _ | f⟩ := outcome
  · cases h
  · cases h
    exact ⟨cpu, f, rfl, rfl, rfl⟩

/-- The processor does not touch the transcribers within a frame. -/
lemma transcriber_run_begun (p : Player) (n : Nat) (v : Fin 3) :
    ((p.begun.run n).1.bus.chip.voice v).transcriber = (p.voice v).transcriber := by
  rw [Cpu.transcriber_run]
  unfold begun
  split
  · exact p.cpu.transcriber_call p.playAddress v
  · rfl

/-- Beginning a frame takes no cycles. -/
lemma begun_cycles (p : Player) : p.begun.cycles = p.cpu.cycles := by
  unfold begun
  split <;> rfl

/-! ### Numbers of frames -/

/-- The frames that follow others, unless one of these failed. -/
def continueFrames (result : Player × Option Error) (next : Player → Player × Option Error) :
    Player × Option Error :=
  match result with
  | (p, none) => next p
  | (p, some e) => (p, some e)

/-- Frames can be played in two portions. -/
lemma runFrames_add (p : Player) (m n : Nat) :
    p.runFrames (m + n) = continueFrames (p.runFrames m) fun q => q.runFrames n := by
  induction m generalizing p with
  | zero => rw [Nat.zero_add, runFrames, continueFrames]
  | succ m ih =>
    rw [Nat.succ_add, runFrames, runFrames]
    obtain ⟨q, _ | e⟩ := p.stepFrame
    · exact ih q
    · rfl

lemma runFrames_one (p : Player) : p.runFrames 1 = p.stepFrame := by
  unfold runFrames
  obtain ⟨q, _ | e⟩ := p.stepFrame <;> rfl

/-- The last of a number of frames without an error. -/
lemma exists_last_of_runFrames (h : p.runFrames (k + 1) = (q, none)) :
    ∃ o, p.runFrames k = (o, none) ∧ o.stepFrame = (q, none) := by
  rw [runFrames_add] at h
  generalize p.runFrames k = result at h ⊢
  obtain ⟨o, _ | e⟩ := result
  · exact ⟨o, rfl, by rwa [continueFrames, runFrames_one] at h⟩
  · cases h

lemma runFrames_concat (h : p.runFrames k = (q, none)) : p.runFrames (k + 1) = q.stepFrame := by
  rw [runFrames_add, h, continueFrames, runFrames_one]

lemma after_of_runFrames {error? : Option Error} (h : p.runFrames k = (q, error?)) :
    p.after k = q := by
  rw [after, h]

/-- One more frame is heard at the end. -/
lemma heard_succ (p : Player) (v : Fin 3) (k : Nat) :
    p.heard v (k + 1) = p.heard v k ++ [((p.after (k + 1)).voice v).registers] := by
  rw [heard, List.range_succ, List.map_append]
  rfl

/-- What a player is like that has just been started. -/
structure IsFresh (p : Player) : Prop where
  /-- The clock is at frame zero. -/
  frame : p.clock.frame = 0
  /-- The init routine has returned. -/
  halted : p.cpu.halted = true
  /-- No frame has overrun. -/
  overruns : p.overruns = 0
  /-- Nothing has been heard. -/
  transcriber : ∀ v, (p.voice v).transcriber = .new p.config.region.chipClock

/-- The clock of a fresh player is at frame zero. -/
lemma IsFresh.onFrame_zero (h : p.IsFresh) : p.clock.onFrame 0 = p.clock := by
  rw [FrameClock.onFrame, ← h.frame]

/-- The books of a fresh player are empty. -/
lemma IsFresh.accounted_zero (h : p.IsFresh) : p.Accounted 0 p where
  frame := h.frame
  cycles := by rw [Nat.zero_mul, Nat.add_zero]
  cpu := rfl
  transcriber := h.transcriber
  overruns := h.overruns
  settings := by rw [h.onFrame_zero]

/-- One more frame without an error keeps the books. -/
lemma Accounted.step {o : Player} (h : p.Accounted k o) (hrun : p.runFrames k = (o, none))
    (hstep : o.stepFrame = (q, none)) : p.Accounted (k + 1) q := by
  have hcalls : p.calls k = o.cpu.halted := by rw [calls, after_of_runFrames hrun]
  have hlast : p.after (k + 1) = q := after_of_runFrames ((runFrames_concat hrun).trans hstep)
  have hclock : o.clock = p.clock.onFrame k := by rw [h.settings]
  have hconfig : o.config = p.config := by rw [h.settings]
  have hplay : o.playAddress = p.playAddress := by rw [h.settings]
  have hframe : o.clock.frame = k := h.frame
  obtain ⟨cpu, hcpu, hq⟩ := exists_run_of_stepFrame hstep
  rw [hconfig] at hcpu
  constructor
  · rw [hq]
    change o.clock.frame + 1 = k + 1
    rw [hframe]
  · rw [hq]
    change cpu.cycles = _
    rw [Cpu.cycles_of_run hcpu, begun_cycles, h.cycles]
    ring
  · rw [List.range_succ, List.flatMap_append, List.foldl_append, ← h.cpu, List.flatMap_singleton,
      directives, List.foldl_append]
    -- what the call makes of the processor is the start of the frame
    have hbegun : (if p.calls k then [Directive.call p.playAddress] else []).foldl
        Directive.apply o.cpu = o.begun := by
      rw [hcalls, begun, hplay]
      split <;> rfl
    rw [hbegun, hq]
    simp only [List.foldl_cons, List.foldl_nil, Directive.apply, hcpu, hclock]
  · intro v
    rw [heard_succ, transcribe_concat, ← h.transcriber v, hlast]
    have hlength : (p.heard v k).length = k := by rw [heard, List.length_map, List.length_range]
    have htranscriber : (cpu.bus.chip.voice v).transcriber = (o.voice v).transcriber := by
      rw [← o.transcriber_run_begun p.config.region.cyclesPerFrame v, hcpu]
    have hvoice : q.voice v = (cpu.bus.chip.voice v).finishFrame o.clock := by
      rw [hq]
      exact cpu.bus.chip.voice_finishFrame o.clock v
    rw [hvoice, hlength, ← hclock, ← htranscriber]
    rfl
  · rw [List.range_succ, List.filter_append, List.length_append, ← h.overruns, hq]
    change o.overrunsBegun = _
    unfold overrunsBegun
    cases hhalted : o.cpu.halted <;> simp [hcalls, hhalted]
  · rw [hq, h.settings]
    rfl

/-- The books of frames without an error balance. -/
lemma IsFresh.accounted_runFrames (hfresh : p.IsFresh) (h : p.runFrames k = (q, none)) :
    p.Accounted k q := by
  induction k generalizing q with
  | zero =>
    cases h
    exact hfresh.accounted_zero
  | succ k ih =>
    obtain ⟨o, hrun, hstep⟩ := exists_last_of_runFrames h
    exact (ih hrun).step hrun hstep

/-! ### Frames that fail -/

/-- A player whose processor stands before a fault fails again and again, in the same way. -/
lemma stepFrame_of_fault? {f : IllegalOpcode} (h : p.cpu.fault? = some f) :
    p.stepFrame =
      ({ p with overruns := p.overruns + 1 }, some (.execution p.frame f)) := by
  have hhalted : p.cpu.halted = false := (Cpu.fault?_eq_some_iff.mp h).2.1.2.1
  have hbegun : p.begun = p.cpu := by rw [begun, hhalted]; rfl
  have hoverruns : p.overrunsBegun = p.overruns + 1 := by rw [overrunsBegun, hhalted]; rfl
  rw [stepFrame_eq, hbegun, Cpu.run_of_fault? h p.config.region.cyclesPerFrame_pos, hoverruns]

/-- A frame that fails leaves the clock and the transcribers alone, and the processor before the
fault. -/
lemma of_stepFrame_error {e : Error} (h : p.stepFrame = (q, some e)) :
    q.clock = p.clock ∧ (∀ v, (q.voice v).transcriber = (p.voice v).transcriber) ∧
      ∃ f, q.cpu.fault? = some f ∧ e = .execution p.frame f := by
  obtain ⟨cpu, f, hcpu, rfl, rfl⟩ := exists_fault_of_stepFrame h
  refine ⟨rfl, fun v => ?_, f, Cpu.fault?_of_run hcpu, rfl⟩
  rw [← p.transcriber_run_begun p.config.region.cyclesPerFrame v, hcpu]
  rfl

end Player

end ChipScore
