import Mathlib.Tactic
import ChipScore.Proofs.Bus.Board
import ChipScore.Proofs.Player.Frames

/-!
# Frame boundaries

Between two frames the transcribers look at the chip.  They write nothing that a program could read:
boards with the same memory and the same latches cannot be told apart
(`Board.isBisimulation_sameFace`), and a visit of the transcribers leaves a board with the same face
(`alike_onChip`).

So a routine that is still running when a frame ends goes on as if nothing had happened.  The frames
that it spans are one long run of the processor, cut wherever the cycles of a frame are spent, also
in the middle of an instruction (`isCutInto_runFrames`).  What the run meets on its way, the frames
meet as well: a fault ends both, and it is reported for the frame in which its tick lies.
-/

namespace ChipScore

/-! ### The face of a board -/

namespace Board

/-- Two boards differ in nothing but what their transcribers know. -/
structure SameFace (board other : Board) : Prop where
  /-- The same byte is read at every address. -/
  read : ∀ address, Bus.read board address = Bus.read other address
  /-- The memory is the same, also under the chip's window. -/
  ram : board.ram = other.ram
  /-- The chips have latched the same bytes. -/
  latches : board.chip.SameLatches other.chip

variable {board other : Board}

/-- What is latched cannot be read, so memory decides what is. -/
lemma sameFace_of_ram (hram : board.ram = other.ram)
    (hlatches : board.chip.SameLatches other.chip) : board.SameFace other := by
  refine ⟨?_, hram, hlatches⟩
  intro address
  by_cases hwindow : InChipWindow address
  · rw [read_of_inChipWindow _ hwindow, read_of_inChipWindow _ hwindow]
  · rw [read_of_not_inChipWindow _ hwindow, read_of_not_inChipWindow _ hwindow, hram]

lemma SameFace.refl (board : Board) : board.SameFace board :=
  ⟨fun _ => rfl, rfl, fun _ => rfl, rfl⟩

/-- A write goes to the same place of either board. -/
lemma SameFace.write (h : board.SameFace other) (address : UInt16) (value : UInt8) :
    (Bus.write board address value).SameFace (Bus.write other address value) := by
  by_cases hwindow : InChipWindow address
  · rw [write_of_inChipWindow _ value hwindow, write_of_inChipWindow _ value hwindow]
    exact sameFace_of_ram h.ram (h.latches.poke _ value)
  · rw [write_of_not_inChipWindow _ value hwindow, write_of_not_inChipWindow _ value hwindow]
    exact sameFace_of_ram (by rw [h.ram]) h.latches

/-- A program cannot tell boards with the same face apart. -/
lemma isBisimulation_sameFace : Bus.IsBisimulation SameFace where
  read h := h.read
  write h := h.write

end Board

/-! ### Visits of the transcribers -/

/-- What is done to the chip between frames. -/
inductive Visit
  /-- A frame ends. -/
  | finishFrame (clock : FrameClock)
  /-- The music ends. -/
  | stop (clock : FrameClock)

/-- A visit as one of the operations of the chip. -/
def Visit.operation : Visit → ChipOperation
  | .finishFrame clock => .finishFrame clock
  | .stop clock => .stop clock

namespace VoiceBank

variable {bank other : VoiceBank}

/-- A visit leaves alone what is latched. -/
lemma SameLatches.visit (h : SameLatches bank other) (visit : Visit) :
    SameLatches bank (other.perform visit.operation) := by
  cases visit with
  | finishFrame clock | stop clock =>
    refine ⟨?_, h.filter⟩
    intro v
    rw [h.registers v, voice_perform]
    rfl

/-- Any number of visits leaves alone what is latched. -/
lemma SameLatches.visits (h : SameLatches bank other) (visits : List Visit) :
    SameLatches bank (other.performAll (visits.map Visit.operation)) := by
  induction visits generalizing other with
  | nil => exact h
  | cons visit rest ih => exact ih (h.visit visit)

end VoiceBank

lemma Cpu.alike_self (s : Cpu Board) : Alike Board.SameFace s s where
  toAgree := ⟨rfl, rfl, rfl, rfl, rfl, rfl, rfl, rfl, rfl, Board.SameFace.refl s.bus⟩
  policy := rfl

namespace Player

variable {p q : Player} {s : Cpu Board} {k m : Nat}

/-- A visit of the transcribers changes nothing but what they know. -/
lemma alike_onChip {t : Cpu Board} (h : Cpu.Alike Board.SameFace s t) (visits : List Visit) :
    Cpu.Alike Board.SameFace s
      (onChip t fun chip => chip.performAll (visits.map Visit.operation)) :=
  { h with bus := Board.sameFace_of_ram h.bus.ram (h.bus.latches.visits visits) }

/-! ### A run that is cut into frames -/

/-- The frame in which a number of cycles falls, if the player's own frame begins now. -/
def frameAt (p : Player) (cycles : Nat) : Nat :=
  p.frame + (cycles - p.cpu.cycles) / p.config.region.cyclesPerFrame

/-- The frames that begin with the player's own are the pieces of a run of the processor. -/
structure IsCutInto (p : Player) (run : Cpu Board × Option IllegalOpcode)
    (frames : Player × Option Error) : Prop where
  /-- The frames have come to where the run has. -/
  cpu : Cpu.Alike Board.SameFace run.1 frames.1.cpu
  /-- A fault ends both, and it is reported for the frame in which its tick lies. -/
  error : frames.2 = run.2.map fun f => .execution (p.frameAt run.1.cycles) f

/-- Frames without an error move the clock, spend their cycles and keep the settings. -/
lemma of_runFrames (h : p.runFrames k = (q, none)) :
    q.frame = p.frame + k ∧ q.config = p.config ∧
      q.cpu.cycles = p.cpu.cycles + k * p.config.region.cyclesPerFrame := by
  induction k generalizing q with
  | zero =>
    cases h
    exact ⟨rfl, rfl, by rw [Nat.zero_mul, Nat.add_zero]⟩
  | succ k ih =>
    obtain ⟨o, hrun, hstep⟩ := exists_last_of_runFrames h
    obtain ⟨hframe, hconfig, hcycles⟩ := ih hrun
    obtain ⟨cpu, hcpu, rfl⟩ := exists_run_of_stepFrame hstep
    refine ⟨?_, hconfig, ?_⟩
    · change o.frame + 1 = _
      rw [hframe, Nat.add_assoc]
    · change cpu.cycles = _
      rw [Cpu.cycles_of_run hcpu, begun_cycles, hcycles, hconfig]
      ring

/-- The frame that a fault is reported for is the one in which its tick lies. -/
lemma frameAt_of_run {t : Cpu Board} {f : IllegalOpcode}
    (hcycles : s.cycles = p.cpu.cycles + m * p.config.region.cyclesPerFrame)
    (h : s.run p.config.region.cyclesPerFrame = (t, some f)) :
    p.frameAt t.cycles = p.frame + m := by
  obtain ⟨j, hj, hsteps, -⟩ := Cpu.exists_steps_of_run h
  have hspent : t.cycles - p.cpu.cycles = j + m * p.config.region.cyclesPerFrame := by
    rw [Cpu.cycles_of_run (Cpu.run_of_steps hsteps), hcycles]
    omega
  rw [frameAt, hspent, Nat.add_mul_div_right _ _ p.config.region.cyclesPerFrame_pos,
    Nat.div_eq_of_lt hj, Nat.zero_add]

/-- One more frame is one more piece, when the processor goes on with it where the run has come
to. -/
lemma isCutInto_stepFrame (h : Cpu.Alike Board.SameFace s q.begun) (hframe : q.frame = p.frame + m)
    (hconfig : q.config = p.config)
    (hcycles : s.cycles = p.cpu.cycles + m * p.config.region.cyclesPerFrame) :
    p.IsCutInto (s.run p.config.region.cyclesPerFrame) q.stepFrame := by
  have hfault (t : Cpu Board) (f : IllegalOpcode)
      (hrun : s.run p.config.region.cyclesPerFrame = (t, some f)) :
      p.frameAt t.cycles = q.frame := by
    rw [frameAt_of_run hcycles hrun, hframe]
  obtain ⟨halike, hsame⟩ := h.run Board.isBisimulation_sameFace p.config.region.cyclesPerFrame
  rw [stepFrame_eq, hconfig]
  generalize s.run p.config.region.cyclesPerFrame = run at halike hsame hfault ⊢
  generalize q.begun.run p.config.region.cyclesPerFrame = other at halike hsame ⊢
  obtain ⟨t, fault⟩ := run
  obtain ⟨cpu, fault'⟩ := other
  obtain rfl : fault = fault' := hsame
  cases fault with
  | none => exact ⟨alike_onChip halike [.finishFrame q.clock], rfl⟩
  | some f =>
    refine ⟨halike, ?_⟩
    rw [← hfault t f rfl]
    rfl

/-- The frames that a routine spans are the pieces of one run. -/
lemma isCutInto_runFrames (h : ∀ j, 1 ≤ j → j ≤ k → p.calls j = false) :
    p.IsCutInto (p.begun.run ((k + 1) * p.config.region.cyclesPerFrame))
      (p.runFrames (k + 1)) := by
  induction k with
  | zero =>
    have hstart : p.begun.cycles = p.cpu.cycles + 0 * p.config.region.cyclesPerFrame := by
      rw [begun_cycles, Nat.zero_mul, Nat.add_zero]
    rw [Nat.zero_add, Nat.one_mul, runFrames_one]
    exact isCutInto_stepFrame (Cpu.alike_self _) rfl rfl hstart
  | succ k ih =>
    have hcut := ih fun j hj hle => h j hj (Nat.le_succ_of_le hle)
    rw [Nat.succ_mul, Cpu.run_add, runFrames_add]
    obtain ⟨⟨q, e⟩, hplayed⟩ : ∃ frames, p.runFrames (k + 1) = frames := ⟨_, rfl⟩
    obtain ⟨⟨s, fault⟩, hrun⟩ :
        ∃ run, p.begun.run ((k + 1) * p.config.region.cyclesPerFrame) = run := ⟨_, rfl⟩
    rw [hplayed, hrun] at hcut ⊢
    obtain rfl : e = _ := hcut.error
    cases fault with
    | some f => exact hcut
    | none =>
      -- the routine is still running, so that nothing is called and the frame goes on with it
      have hrunning : q.cpu.halted = false := by
        rw [← after_of_runFrames hplayed]
        exact h (k + 1) (Nat.le_add_left 1 k) le_rfl
      have hbegun : q.begun = q.cpu := by
        rw [begun, hrunning]
        rfl
      obtain ⟨hframe, hconfig, hcycles⟩ := of_runFrames hplayed
      have hlast : p.IsCutInto (s.run p.config.region.cyclesPerFrame) q.stepFrame := by
        refine isCutInto_stepFrame ?_ hframe hconfig (hcut.cpu.cycles.trans hcycles)
        rw [hbegun]
        exact hcut.cpu
      rw [← runFrames_one] at hlast
      exact hlast

/-- A routine that does not come to a halt is called in one frame only. -/
lemma calls_succ_of_running (h : ∀ n, (p.begun.run n).1.halted = false) (k : Nat) :
    p.calls (k + 1) = false := by
  induction k using Nat.strong_induction_on with
  | _ k ih =>
    have hspans : ∀ j, 1 ≤ j → j ≤ k → p.calls j = false := by
      intro j hj hle
      obtain ⟨i, rfl⟩ := Nat.exists_eq_add_of_le' hj
      exact ih i hle
    exact (isCutInto_runFrames hspans).cpu.halted.symm.trans (h _)

/-- **Frame boundaries are invisible to the program.**  However often frames and the music end
between two ticks, with any clocks, the registers, flags and counters of the processor, all bytes
that can be read, the memory and the latches of the chip stay what they are.

So if the play routine has not halted by the starts of `k` further frames, playing `k + 1` frames
leaves the processor, the memory and the latches as one run over all their cycles does, from the
state in which the first of them begins to tick.  If the run meets a fault, so do the frames, in the
same state, and they report it for the frame in which its tick lies. -/
theorem frame_boundaries_invisible (p : Player) :
    (∀ visits : List Visit, Cpu.Alike Board.SameFace p.cpu
      (onChip p.cpu fun chip => chip.performAll (visits.map Visit.operation))) ∧
    ∀ k, (∀ j, 1 ≤ j → j ≤ k → p.calls j = false) →
      p.IsCutInto (p.beginFrame.cpu.run ((k + 1) * p.config.region.cyclesPerFrame))
        (p.runFrames (k + 1)) := by
  refine ⟨alike_onChip (Cpu.alike_self p.cpu), ?_⟩
  intro k h
  rw [beginFrame_eq]
  exact isCutInto_runFrames h

/-- A tune whose play routine jumps to itself. -/
def spinningTune : Tune where
  version := 2
  loadAddress := 0x0200
  initAddress := 0x0200
  playAddress := 0x0201
  songs := 1
  startSong := 1
  name := ""
  author := ""
  released := ""
  image := [0x60, 0x4C, 0x01, 0x02]

/-- The processor is at a jump to itself. -/
structure Spins (s : Cpu Board) : Prop where
  running : s.halted = false
  pc : s.pc = 0x0201
  jump : Bus.read s.bus 0x0201 = 0x4C
  target : Bus.readWord s.bus 0x0202 = 0x0201

instance (s : Cpu Board) : Decidable (Spins s) :=
  decidable_of_iff (s.halted = false ∧ s.pc = 0x0201 ∧ Bus.read s.bus 0x0201 = 0x4C ∧
    Bus.readWord s.bus 0x0202 = 0x0201)
    ⟨fun ⟨running, pc, jump, target⟩ => ⟨running, pc, jump, target⟩,
      fun ⟨running, pc, jump, target⟩ => ⟨running, pc, jump, target⟩⟩

/-- A tick at a jump to itself either waits or jumps there again. -/
lemma Spins.tick (h : Spins s) : Spins s.tick := by
  cases hdispatches : s.dispatches with
  | false =>
    rw [Cpu.tick_of_not_dispatches hdispatches]
    exact ⟨h.running, h.pc, h.jump, h.target⟩
  | true =>
    have hopcode : s.opcode = 0x4C := by
      rw [Cpu.opcode, Cpu.read, h.pc, h.jump]
    have hbinding : Opcode.binding? s.opcode = some ⟨.jmp, .absolute, 3, false⟩ := by
      rw [hopcode]
      decide +kernel
    have htarget : s.fetched.operandWord = 0x0201 := by
      change Bus.readWord s.bus (s.pc + 1) = 0x0201
      rw [h.pc]
      exact h.target
    rw [Cpu.tick_of_dispatches hdispatches, Cpu.dispatch_of_binding? hbinding]
    exact ⟨h.running, htarget, h.jump, h.target⟩

/-- However many frames this tune is played for, its play routine is called once, and the frames are
the pieces of a single run. -/
theorem frame_boundaries_invisible_spinningTune :
    ∃ p, start spinningTune {} = .ok p ∧ p.calls 0 = true ∧
      ∀ k, p.calls (k + 1) = false ∧
        p.IsCutInto (p.beginFrame.cpu.run ((k + 1) * p.config.region.cyclesPerFrame))
          (p.runFrames (k + 1)) := by
  have hstarts : (start spinningTune {}).toOption.map
      (fun p => p.calls 0 && decide (Spins p.begun)) = some true := by
    decide +kernel
  cases hstart : start spinningTune {} with
  | error e =>
    rw [hstart] at hstarts
    cases hstarts
  | ok p =>
    rw [hstart] at hstarts
    have hspins : p.calls 0 = true ∧ Spins p.begun := by
      simpa using Option.some.inj hstarts
    have hcalls : ∀ k, p.calls (k + 1) = false := by
      apply calls_succ_of_running
      intro n
      exact (Cpu.run_invariant (fun t ht => Spins.tick ht) hspins.2 n).running
    refine ⟨p, rfl, hspins.1, fun k => ⟨hcalls k, ?_⟩⟩
    apply (frame_boundaries_invisible p).2
    intro j hj _
    obtain ⟨i, rfl⟩ := Nat.exists_eq_add_of_le' hj
    exact hcalls i

end Player

end ChipScore
