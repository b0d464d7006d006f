import Mathlib.Tactic
import ChipScore.Proofs.Bus.Board
import ChipScore.Proofs.Player.Sessions

/-!
# Playing with the chip's window

A tune is loaded into memory behind the back of the processor, so that an image that reaches under
the chip's window pokes nothing.  From then on all that reaches the board are the writes of the
processor.  `Player.initWrites` and `Player.frameWrites` are what a recorder in front of the board
sees of the init routine and of a frame, and `Player.tried` goes through frames one after the other,
also after one that has failed.

At every moment the board is what these writes have made of the loaded one
(`chip_window_isolated`): it keeps the chip and the memory apart, as `Board.Isolates` says.
-/

namespace ChipScore

/-- The byte of a tune's image at an address, zero around the image. -/
def Tune.byteAt (tune : Tune) (address : UInt16) : UInt8 :=
  if tune.loadAddress.toNat ≤ address.toNat then
    tune.image.getD (address.toNat - tune.loadAddress.toNat) 0
  else
    0

/-- Running to the halt is a run that is not longer. -/
lemma Cpu.exists_run_of_runToHalt {β : Type} [Bus β] (s : Cpu β) (n : Nat) :
    ∃ m ≤ n, s.runToHalt n = s.run m := by
  induction n generalizing s with
  | zero => exact ⟨0, le_refl 0, rfl⟩
  | succ n ih =>
    unfold runToHalt
    split_ifs with hhalted
    · exact ⟨0, Nat.zero_le _, rfl⟩
    · cases hfault : s.fault? with
      | some f => exact ⟨1, by omega, (run_of_fault? hfault Nat.one_pos).symm⟩
      | none =>
        obtain ⟨m, hm, hrun⟩ := ih s.tick
        refine ⟨m + 1, Nat.succ_le_succ hm, ?_⟩
        rw [run, hfault]
        exact hrun

namespace Player

variable {tune : Tune} {config : Config} {p q : Player}

/-- What the processor has written from the call of the init routine on, after a number of ticks. -/
def initWrites (tune : Tune) (config : Config) (ticks : Nat) : List Bus.Access :=
  let called := (loaded tune config).recorded.call tune.initAddress
  ({ called with a := Word.low (chosenSong tune config - 1) }.run ticks).1.bus.writes.toList

/-- What the processor has written from the beginning of a frame on, after a number of ticks. -/
def frameWrites (p : Player) (ticks : Nat) : List Bus.Access :=
  let begun := if p.cpu.halted then p.cpu.recorded.call p.playAddress else p.cpu.recorded
  (begun.run ticks).1.bus.writes.toList

/-- The player after a number of frames, each of them tried whether the ones before have failed or
not. -/
def tried (p : Player) : Nat → Player
  | 0 => p
  | frames + 1 => (p.tried frames).stepFrame.1

/-- What the processor writes while a number of frames are tried. -/
def triedWrites (p : Player) : Nat → List Bus.Access
  | 0 => []
  | frames + 1 =>
    p.triedWrites frames ++ (p.tried frames).frameWrites (p.tried frames).config.region.cyclesPerFrame

/-! ### Sessions are frames that are tried -/

/-- To try one frame more is to try the rest after the first one. -/
lemma tried_succ (p : Player) (n : Nat) : p.tried (n + 1) = p.stepFrame.1.tried n := by
  induction n with
  | zero => rfl
  | succ n ih => rw [tried, ih, tried]

lemma tried_add (p : Player) (m n : Nat) : p.tried (m + n) = (p.tried m).tried n := by
  induction n with
  | zero => rfl
  | succ n ih => rw [← Nat.add_assoc, tried, ih, tried]

/-- Playing frames is trying them up to the first error. -/
lemma runFrames_eq_tried (p : Player) (n : Nat) :
    (p.runFrames n).1 = p.tried (p.frameResults n).length := by
  induction n generalizing p with
  | zero => rfl
  | succ n ih =>
    unfold runFrames frameResults
    obtain ⟨⟨q, _ | e⟩, hstep⟩ : ∃ result, p.stepFrame = result := ⟨_, rfl⟩
    · rw [hstep, List.length_cons, tried_succ, hstep]
      exact ih q
    · rw [hstep, List.length_singleton, tried_succ, hstep]
      rfl

/-- Whatever a player is asked for, it does no more than try frames, as many as there are results. -/
lemma serveAll_eq_tried (p : Player) (requests : List Request) :
    (p.serveAll requests).1 = p.tried (p.serveAll requests).2.length := by
  induction requests generalizing p with
  | nil => rfl
  | cons request rest ih =>
    unfold serveAll
    rw [ih, List.length_append, tried_add, serve_eq, ← runFrames_eq_tried]

/-! ### The board and its writes -/

/-- A tune is loaded into a memory of zeros, at its load address. -/
lemma loaded_ram (tune : Tune) (config : Config) (address : UInt16) :
    Bus.read (loaded tune config).bus.ram address = tune.byteAt address := by
  change ((Ram.zero 65536).load tune.loadAddress.toNat tune.image).read address.toNat = _
  rw [Ram.read_load _ _ _ address.toNat_lt, Ram.read_zero]
  rfl

/-- The init routine does nothing to the board but its writes. -/
lemma initCall_run_bus (tune : Tune) (config : Config) (n : Nat) :
    ((initCall tune config).run n).1.bus =
      Bus.writeAll (loaded tune config).bus (initWrites tune config n) := by
  have hR := Bus.isBisimulation_follows (loaded tune config).bus
  have hcalled := (loaded tune config).agree_recorded.call hR tune.initAddress
  have hinit : Cpu.Agree (Bus.Recorded.Follows (loaded tune config).bus)
      { (loaded tune config).recorded.call tune.initAddress with
        a := Word.low (chosenSong tune config - 1) } (initCall tune config) :=
    { hcalled with a := rfl }
  exact (hinit.run hR rfl n).1.bus.2

/-- A frame does nothing to the board but its writes, until it ends. -/
lemma begun_run_bus (p : Player) (n : Nat) :
    (p.begun.run n).1.bus = Bus.writeAll p.cpu.bus (p.frameWrites n) := by
  have hR := Bus.isBisimulation_follows p.cpu.bus
  have hrecorded := p.cpu.agree_recorded
  unfold begun frameWrites
  split_ifs
  · exact ((hrecorded.call hR p.playAddress).run hR rfl n).1.bus.2
  · exact (hrecorded.run hR rfl n).1.bus.2

/-! ### Every moment -/

section Isolates

variable {loaded : UInt16 → UInt8} {chip : VoiceBank} {writes : List Bus.Access}

/-- Within a frame the board is what the writes have made of it. -/
lemma isolates_begun_run (h : Board.Isolates loaded chip writes p.cpu.bus) (n : Nat) :
    Board.Isolates loaded chip (writes ++ p.frameWrites n) (p.begun.run n).1.bus := by
  rw [begun_run_bus]
  exact h.writeAll _

/-- So it is at the end of a frame, whether the frame has failed or not. -/
lemma isolates_stepFrame (h : Board.Isolates loaded chip writes p.cpu.bus) :
    Board.Isolates loaded chip (writes ++ p.frameWrites p.config.region.cyclesPerFrame)
      p.stepFrame.1.cpu.bus := by
  have hrun := isolates_begun_run h p.config.region.cyclesPerFrame
  obtain ⟨⟨q, _ | e⟩, hstep⟩ : ∃ result, p.stepFrame = result := ⟨_, rfl⟩
  · obtain ⟨cpu, hcpu, rfl⟩ := exists_run_of_stepFrame hstep
    rw [hcpu] at hrun
    rw [hstep]
    exact hrun.finishFrame p.clock
  · obtain ⟨cpu, f, hcpu, rfl, -⟩ := exists_fault_of_stepFrame hstep
    rw [hcpu] at hrun
    rw [hstep]
    exact hrun

/-- Trying frames keeps chip and memory apart, failed frames included. -/
lemma isolates_tried (h : Board.Isolates loaded chip writes p.cpu.bus) (frames : Nat) :
    Board.Isolates loaded chip (writes ++ p.triedWrites frames) (p.tried frames).cpu.bus := by
  induction frames with
  | zero => rwa [triedWrites, List.append_nil]
  | succ frames ih =>
    rw [triedWrites, ← List.append_assoc]
    exact isolates_stepFrame ih

end Isolates

/-- A started player has run its init routine, for no longer than it may take. -/
lemma exists_run_of_start (h : start tune config = .ok p) :
    ∃ ticks ≤ config.initCycleLimit, p.cpu = ((initCall tune config).run ticks).1 := by
  obtain ⟨ticks, hle, hrun⟩ :=
    (initCall tune config).exists_run_of_runToHalt config.initCycleLimit
  refine ⟨ticks, hle, ?_⟩
  unfold start at h
  rw [hrun] at h
  generalize (initCall tune config).run ticks = outcome at h
  cases hrefused : refusal? tune config with
  | some e =>
    rw [hrefused] at h
    cases h
  | none =>
    rw [hrefused] at h
    obtain ⟨cpu, _ | f⟩ := outcome
    · dsimp only at h
      split_ifs at h
      cases h
      rfl
    · cases h

/-- **The chip's window is isolated over whole runs.**  Let a player be started with a tune.

* After loading, memory holds the image at its load address and zero elsewhere.
* After any number of ticks of the init routine, then after any number of frames, whether they fail
  or not, and after any number of ticks of a further frame, memory under the window is as it was
  loaded and reads in the window give zero; every other address holds the byte that the processor
  has written there last, or else the loaded one; and what the chip has latched are the writes of
  the processor in the window, in their order and at their registers, and nothing else.
* Whatever the player is asked for, it does no more than try frames.
* The board on which this happens is the address space to which the chip is attached before the
  memory. -/
theorem chip_window_isolated (h : start tune config = .ok p) :
    (∀ address, Bus.read (loaded tune config).bus.ram address = tune.byteAt address) ∧
    (∀ ticks, Board.Isolates tune.byteAt (.new config.region.chipClock)
      (initWrites tune config ticks) ((initCall tune config).run ticks).1.bus) ∧
    (∃ ticks ≤ config.initCycleLimit, p.cpu = ((initCall tune config).run ticks).1 ∧
      ∀ frames,
        Board.Isolates tune.byteAt (.new config.region.chipClock)
          (initWrites tune config ticks ++ p.triedWrites frames) (p.tried frames).cpu.bus ∧
        ∀ n, Board.Isolates tune.byteAt (.new config.region.chipClock)
          (initWrites tune config ticks ++ p.triedWrites frames ++ (p.tried frames).frameWrites n)
          ((p.tried frames).begun.run n).1.bus) ∧
    (∀ requests, (p.serveAll requests).1 = p.tried (p.serveAll requests).2.length) ∧
    (∃ space, Board.Assembled (loaded tune config).bus space) ∧
      Bus.IsBisimulation Board.Assembled := by
  have hloaded : Board.Isolates tune.byteAt (.new config.region.chipClock) []
      (loaded tune config).bus :=
    Board.isolates_nil (loaded_ram tune config)
  have hinit (ticks : Nat) : Board.Isolates tune.byteAt (.new config.region.chipClock)
      (initWrites tune config ticks) ((initCall tune config).run ticks).1.bus := by
    rw [initCall_run_bus]
    exact hloaded.writeAll _
  refine ⟨loaded_ram tune config, hinit, ?_, p.serveAll_eq_tried,
    ⟨_, Board.assembled_iff.mpr rfl⟩, Board.isBisimulation_assembled⟩
  obtain ⟨ticks, hle, hcpu⟩ := exists_run_of_start h
  refine ⟨ticks, hle, hcpu, fun frames => ?_⟩
  have hstarted := hinit ticks
  rw [← hcpu] at hstarted
  have htried := isolates_tried hstarted frames
  exact ⟨htried, isolates_begun_run htried⟩

/-- A tune that reaches under the chip's window.  Its init routine is a break in empty memory, and its
play routine, in front of the window, sets the volume. -/
def overlappingTune : Tune where
  version := 2
  loadAddress := 0xD3FA
  initAddress := 0x0002
  playAddress := 0xD3FA
  songs := 1
  startSong := 1
  name := ""
  author := ""
  released := ""
  image := [0xA9, 0x0F, 0x8D, 0x18, 0xD4, 0x60, 0x41, 0x21]

/-- In every frame the bytes under the window are still there, hidden behind the chip, and the chip
has latched nothing but the writes of the processor. -/
theorem chip_window_isolated_overlappingTune :
    ∃ p ticks, start overlappingTune {} = .ok p ∧ ∀ frames,
      Bus.read (p.tried frames).cpu.bus.ram 0xD400 = 0x41 ∧
      Bus.read (p.tried frames).cpu.bus 0xD400 = 0 ∧
      (p.tried frames).cpu.bus.chip.SameLatches
        ((VoiceBank.new Region.pal.chipClock).pokeAll
          ((initWrites overlappingTune {} ticks ++ p.triedWrites frames).filter
            fun w => Board.InChipWindow w.address)) := by
  have hstarts : (start overlappingTune {}).isOk = true := by
    decide +kernel
  cases hstart : start overlappingTune {} with
  | error e =>
    rw [hstart] at hstarts
    cases hstarts
  | ok p =>
    obtain ⟨-, -, ⟨ticks, -, -, hframes⟩, -⟩ := chip_window_isolated hstart
    refine ⟨p, ticks, rfl, fun frames => ?_⟩
    have hisolated := (hframes frames).1
    exact ⟨hisolated.shadowed 0xD400 (by decide), hisolated.window 0xD400 (by decide),
      hisolated.latches⟩

end Player

end ChipScore
