import ChipScore.Error
import ChipScore.Player.Board
import ChipScore.Player.Config

/-!
# The player

A player loads a tune, calls its init routine once and its play routine in every frame, and lets
the chip's transcribers look at their registers at the end of every frame.  A play routine that
has not returned when its frame ends is not called again but goes on in the next frame; such
frames are counted as overruns.
-/

namespace ChipScore

/-- A tune that is being played. -/
structure Player where
  /-- The processor and the board. -/
  cpu : Cpu Board
  /-- The number of the current frame. -/
  clock : FrameClock
  /-- The settings. -/
  config : Config
  /-- The routine that plays a frame. -/
  playAddress : UInt16
  /-- The song, counted from one. -/
  song : UInt16
  /-- The frames at whose start the play routine had not returned. -/
  overruns : Nat

namespace Player

/-- The number of songs of a tune; there is always one. -/
def songCount (tune : Tune) : UInt16 :=
  max tune.songs 1

/-- The song to play, counted from one. -/
def chosenSong (tune : Tune) (config : Config) : UInt16 :=
  config.song.getD (max tune.startSong 1)

/-- What is wrong with a tune and its settings before anything runs. -/
def refusal? (tune : Tune) (config : Config) : Option Error :=
  let song := chosenSong tune config
  if tune.playAddress = 0 then
    some .unsupportedPlayAddress
  else if song = 0 ∨ songCount tune < song then
    some (.invalidSong song (songCount tune))
  else if 0x10000 < tune.loadAddress.toNat + tune.image.length then
    some (.load ⟨tune.image.length, tune.loadAddress⟩)
  else
    none

/-- The processor after a reset, with a tune in memory. -/
def loaded (tune : Tune) (config : Config) : Cpu Board :=
  .reset (.withImage config.region.chipClock tune.loadAddress tune.image) config.policy

/-- The processor about to run the init routine, with the song counted from zero in the
accumulator. -/
def initCall (tune : Tune) (config : Config) : Cpu Board :=
  { (loaded tune config).call tune.initAddress with
    a := Word.low (chosenSong tune config - 1) }

/-- Loads a tune and runs its init routine, for no more cycles than the settings allow. -/
def start (tune : Tune) (config : Config) : Except Error Player :=
  match refusal? tune config with
  | some error => .error error
  | none =>
    match (initCall tune config).runToHalt config.initCycleLimit with
    | (_, some fault) => .error (.execution 0 fault)
    | (cpu, none) =>
      if cpu.halted then
        .ok {
          cpu := cpu
          clock := config.region.frameClock
          config := config
          playAddress := tune.playAddress
          song := chosenSong tune config
          overruns := 0 }
      else
        .error (.initTimeout config.initCycleLimit cpu.pc)

/-- The chip. -/
def chip (p : Player) : VoiceBank :=
  p.cpu.bus.chip

/-- The number of the current frame. -/
def frame (p : Player) : Nat :=
  p.clock.frame

/-- The notes of every voice. -/
def notes (p : Player) : List (List Note) :=
  p.chip.notes

/-- Changes the chip behind a processor. -/
def onChip (cpu : Cpu Board) (f : VoiceBank → VoiceBank) : Cpu Board :=
  { cpu with bus := { cpu.bus with chip := f cpu.bus.chip } }

/-- The player at the start of a frame: the play routine is called, unless it is still running. -/
def beginFrame : Player → Player
  | ⟨cpu, clock, config, playAddress, song, overruns⟩ =>
    if cpu.halted then
      ⟨cpu.call playAddress, clock, config, playAddress, song, overruns⟩
    else
      ⟨cpu, clock, config, playAddress, song, overruns + 1⟩

/-- The player at the end of a frame: the transcribers look at their registers. -/
def endFrame : Player → Player
  | ⟨cpu, clock, config, playAddress, song, overruns⟩ =>
    ⟨onChip cpu fun chip => chip.finishFrame clock, clock.advance 1, config, playAddress, song,
      overruns⟩

/-- Runs the processor for the cycles of a frame. -/
def runFrame : Player → Player × Option IllegalOpcode
  | ⟨cpu, clock, config, playAddress, song, overruns⟩ =>
    match cpu.run config.region.cyclesPerFrame with
    | (cpu, fault?) => (⟨cpu, clock, config, playAddress, song, overruns⟩, fault?)

/-- Plays one frame.  A fault ends it in the middle, and the clock stays at the frame. -/
def stepFrame (p : Player) : Player × Option Error :=
  match p.beginFrame.runFrame with
  | (p, some fault) => (p, some (.execution p.frame fault))
  | (p, none) => (p.endFrame, none)

/-- Plays a number of frames, up to an error. -/
def runFrames (p : Player) : Nat → Player × Option Error
  | 0 => (p, none)
  | n + 1 =>
    match p.stepFrame with
    | (p, some error) => (p, some error)
    | (p, none) => p.runFrames n

/-- Plays the frames that a duration needs, up to an error. -/
def runSeconds (p : Player) (seconds : Binary64) : Player × Option Error :=
  p.runFrames (p.clock.framesIn seconds)

/-- The notes of every voice once the music ends. -/
def finish (p : Player) : List (List Note) :=
  (p.chip.stop p.clock).notes

end Player

end ChipScore
