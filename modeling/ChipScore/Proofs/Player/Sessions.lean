import Mathlib.Tactic
import ChipScore.Proofs.Player.Frames

/-!
# Sessions

A started player is asked for frames, in ones, in numbers or by their duration, in any order, and
whoever asks may go on after an error.  Each request comes down to frames, played one after the other
up to the first that fails; `Player.serveAll` keeps the results of all frames that were tried.

Whatever is asked, the results are a number of good frames and then one error over and over
(`Reached.serveAll`).  The good frames are accounted for; an error leaves the clock and the
transcribers where the good frames have left them.
-/

namespace ChipScore.Player

variable {p q r : Player} {k n : Nat} {results : List (Option Error)}

/-- What a player can be asked for. -/
inductive Request
  /-- One frame. -/
  | frame
  /-- A number of frames. -/
  | frames (n : Nat)
  /-- The frames that a duration needs. -/
  | seconds (duration : Binary64)

/-- The number of frames asked for. -/
def Request.count (clock : FrameClock) : Request → Nat
  | .frame => 1
  | .frames n => n
  | .seconds duration => clock.framesIn duration

/-- The player after a request, and the error that it has ended with. -/
def serve (p : Player) : Request → Player × Option Error
  | .frame => p.stepFrame
  | .frames n => p.runFrames n
  | .seconds duration => p.runSeconds duration

/-- The results of frames that are played one after the other, up to the first error. -/
def frameResults (p : Player) : Nat → List (Option Error)
  | 0 => []
  | n + 1 =>
    match p.stepFrame with
    | (_, some e) => [some e]
    | (q, none) => none :: q.frameResults n

/-- The player after requests, made whether the earlier ones have failed or not, and the results of
all frames that were tried. -/
def serveAll (p : Player) : List Request → Player × List (Option Error)
  | [] => (p, [])
  | request :: rest =>
    (((p.serve request).1.serveAll rest).1,
      p.frameResults (request.count p.clock) ++ ((p.serve request).1.serveAll rest).2)

/-- What a player comes to, with the results of the frames on the way. -/
inductive Reached (p : Player) : Player → List (Option Error) → Prop
  /-- No frame has failed. -/
  | good {k : Nat} {q : Player} : p.runFrames k = (q, none) → Reached p q (List.replicate k none)
  /-- A frame has failed, and has then been tried again a number of times. -/
  | stuck {k m : Nat} {q r : Player} {f : IllegalOpcode} : p.runFrames k = (q, none) →
      q.stepFrame = (r, some (.execution k f)) →
      Reached p { r with overruns := r.overruns + m }
        (List.replicate k none ++ List.replicate (m + 1) (some (.execution k f)))

/-- A frame that has failed. -/
structure Failed (q : Player) (e : Error) (r : Player) : Prop where
  /-- The error is that of the processor, in the frame that the clock shows. -/
  execution : ∃ f, e = .execution q.frame f
  /-- The clock has not moved. -/
  clock : r.clock = q.clock
  /-- The transcribers have not looked at anything. -/
  transcriber : ∀ v, (r.voice v).transcriber = (q.voice v).transcriber
  /-- However often the frame is tried again, it fails in the same way. -/
  again : ∀ m, ({ r with overruns := r.overruns + m } : Player).stepFrame =
    ({ r with overruns := r.overruns + (m + 1) }, some e)

/-! ### Requests come down to frames -/

/-- Every request is one for a number of frames. -/
lemma serve_eq (p : Player) (request : Request) :
    p.serve request = p.runFrames (request.count p.clock) := by
  cases request with
  | frame => exact p.runFrames_one.symm
  | frames n => rfl
  | seconds duration => rfl

/-! ### Starting -/

/-- A player that has been started is fresh. -/
lemma isFresh_of_start {tune : Tune} {config : Config} (h : start tune config = .ok p) :
    p.IsFresh := by
  have htranscriber (v : Fin 3) :
      (((initCall tune config).runToHalt config.initCycleLimit).1.bus.chip.voice v).transcriber
        = .new config.region.chipClock := by
    rw [Cpu.transcriber_runToHalt]
    change (((loaded tune config).call tune.initAddress).bus.chip.voice v).transcriber = _
    rw [Cpu.transcriber_call]
    change ((VoiceBank.new config.region.chipClock).voice v).transcriber = _
    rw [VoiceBank.voice_new]
  unfold start at h
  cases hrefused : refusal? tune config with
  | some e =>
    rw [hrefused] at h
    cases h
  | none =>
    rw [hrefused] at h
    generalize (initCall tune config).runToHalt config.initCycleLimit = outcome at h htranscriber
    obtain ⟨cpu, _ | f⟩ := outcome
    · dsimp only at h
      split_ifs at h with hhalted
      cases h
      exact ⟨rfl, hhalted, rfl, htranscriber⟩
    · cases h

/-! ### Whole sessions -/

/-- A frame that ends with an error has failed, and goes on failing. -/
lemma failed_of_stepFrame {e : Error} (h : q.stepFrame = (r, some e)) : Failed q e r := by
  obtain ⟨hclock, htranscriber, f, hfault, rfl⟩ := of_stepFrame_error h
  refine ⟨⟨f, rfl⟩, hclock, htranscriber, fun m => ?_⟩
  have hframe : q.frame = r.frame := (congrArg FrameClock.frame hclock).symm
  rw [hframe]
  exact stepFrame_of_fault? (p := { r with overruns := r.overruns + m }) hfault

/-- One more frame that is tried, wherever a session has come to. -/
lemma Reached.step (hfresh : p.IsFresh) (h : Reached p q results) :
    Reached p q.stepFrame.1 (results ++ [q.stepFrame.2]) := by
  cases h with
  | @good k _ hrun =>
    have hframe : q.frame = k := (hfresh.accounted_runFrames hrun).frame
    obtain ⟨⟨r, _ | e⟩, hstep⟩ : ∃ result, q.stepFrame = result := ⟨_, rfl⟩
    · rw [hstep, ← List.replicate_succ']
      exact .good ((runFrames_concat hrun).trans hstep)
    · obtain ⟨f, rfl⟩ := (failed_of_stepFrame hstep).execution
      rw [hframe] at hstep
      rw [hstep]
      exact .stuck (m := 0) hrun hstep
  | @stuck k m o r f hrun hstep =>
    rw [(failed_of_stepFrame hstep).again m, List.append_assoc, ← List.replicate_succ']
    exact .stuck hrun hstep

/-- More frames lead on from where a player has come to, stuck or not. -/
lemma Reached.runFrames (hfresh : p.IsFresh) (h : Reached p q results) (n : Nat) :
    Reached p (q.runFrames n).1 (results ++ q.frameResults n) := by
  induction n generalizing q results with
  | zero =>
    rw [frameResults, List.append_nil]
    exact h
  | succ n ih =>
    have hnext := h.step hfresh
    unfold Player.runFrames frameResults
    generalize q.stepFrame = result at hnext
    obtain ⟨r, _ | e⟩ := result
    · have hrest := ih hnext
      rw [List.append_assoc] at hrest
      exact hrest
    · exact hnext

/-- Whatever a started player is asked for, its frames are good up to an error, which then stays. -/
lemma Reached.serveAll (hfresh : p.IsFresh) (h : Reached p q results) (requests : List Request) :
    Reached p (q.serveAll requests).1 (results ++ (q.serveAll requests).2) := by
  induction requests generalizing q results with
  | nil => rwa [Player.serveAll, List.append_nil]
  | cons request rest ih =>
    have hnext := h.runFrames hfresh (request.count q.clock)
    rw [← serve_eq] at hnext
    have hrest := ih hnext
    rw [List.append_assoc] at hrest
    exact hrest

/-- **Frames are accounted for, and a frame is played in full or not at all.**  Whatever a player
that has been started is asked for, in whatever order:

* the frames that it tries are good up to an error, which every later frame then repeats;
* `k` good frames are what `runFrames k` plays, and their books balance: the clock shows `k`, each
  frame has spent its cycles, the transcribers of all voices have looked at their registers once in
  each frame, in order, and the overruns are the frames without a call of the play routine, which is
  called in just the frames at whose start the processor is halted, in frame zero among them;
* a frame that fails names itself in its error and leaves the clock and the transcribers alone;
* frames can be played in two portions. -/
theorem frames_accounted {tune : Tune} {config : Config} (h : start tune config = .ok p) :
    p.calls 0 = true ∧
    (∀ requests, Reached p (p.serveAll requests).1 (p.serveAll requests).2) ∧
    (∀ k q, p.runFrames k = (q, none) →
      p.Accounted k q ∧ ∀ r e, q.stepFrame = (r, some e) → Failed q e r) ∧
    (∀ (q : Player) m n,
      q.runFrames (m + n) = continueFrames (q.runFrames m) fun r => r.runFrames n) := by
  have hfresh : p.IsFresh := isFresh_of_start h
  refine ⟨hfresh.halted, fun requests => ?_, fun k q hrun => ?_, runFrames_add⟩
  · have hnothing : Reached p p [] := .good (k := 0) rfl
    exact hnothing.serveAll hfresh requests
  · exact ⟨hfresh.accounted_runFrames hrun, fun r e => failed_of_stepFrame⟩

/-- A tune whose init routine returns at once and whose play routine runs into an unbound opcode. -/
def jammingTune : Tune where
  version := 2
  loadAddress := 0x1000
  initAddress := 0x1000
  playAddress := 0x1001
  songs := 1
  startSong := 1
  name := ""
  author := ""
  released := ""
  image := [0x60, 0xEA, 0x02]

/-- The tune starts, and its first frame fails for good. -/
theorem frames_accounted_jammingTune :
    ∃ p r, start jammingTune {} = .ok p ∧ p.calls 0 = true ∧
      p.stepFrame = (r, some (.execution 0 ⟨0x02, 0x1002⟩)) ∧
      Failed p (.execution 0 ⟨0x02, 0x1002⟩) r := by
  have hresult : (start jammingTune {}).toOption.map (fun p => p.stepFrame.2) =
      some (some (.execution 0 ⟨0x02, 0x1002⟩)) := by
    decide +kernel
  cases hstart : start jammingTune {} with
  | error e =>
    rw [hstart] at hresult
    cases hresult
  | ok p =>
    rw [hstart] at hresult
    have hstep : p.stepFrame = (p.stepFrame.1, some (.execution 0 ⟨0x02, 0x1002⟩)) :=
      Prod.ext rfl (Option.some.inj hresult)
    obtain ⟨hcalls, -, hruns, -⟩ := frames_accounted hstart
    exact ⟨p, p.stepFrame.1, rfl, hcalls, hstep, (hruns 0 p rfl).2 _ _ hstep⟩

end ChipScore.Player
