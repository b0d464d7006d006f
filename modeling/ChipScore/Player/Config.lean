import ChipScore.Cpu
import ChipScore.FrameClock

/-!
# Player settings

The region of a machine fixes the clock of its processor and chip and its frame rate, and with
them the cycles in a frame.
-/

namespace ChipScore

/-- Where a machine was sold. -/
inductive Region
  | pal
  | ntsc
  deriving DecidableEq, Inhabited

namespace Region

/-- The clock of the machine in hertz. -/
def clockHz : Region → Nat
  | pal => 985248
  | ntsc => 1022727

/-- The frames in a second. -/
def framesPerSecond : Region → Nat
  | pal => 50
  | ntsc => 60

/-- The frames in a second, as a rate. -/
def frameRate (region : Region) : Binary64 :=
  Binary64.ofNat region.framesPerSecond

/-- The whole cycles in a frame. -/
def cyclesPerFrame (region : Region) : Nat :=
  region.clockHz / region.framesPerSecond

/-- The clock of the machine in hertz, as the pitch of a note needs it. -/
def chipClock (region : Region) : Binary64 :=
  Binary64.ofNat region.clockHz

/-- A region's frame rate is a rate. -/
theorem frameRate_isPositive (region : Region) : region.frameRate.isPositive = true := by
  cases region <;> decide +kernel

/-- A region's clock at frame zero. -/
def frameClock (region : Region) : FrameClock :=
  ⟨0, region.frameRate, region.frameRate_isPositive⟩

end Region

/-- How a tune is played. -/
structure Config where
  /-- The region of the machine. -/
  region : Region := .pal
  /-- The song to play, counted from one; the tune's own start song if there is none. -/
  song : Option UInt16 := none
  /-- What happens to unbound opcodes. -/
  policy : UnboundPolicy := .fail
  /-- The cycles in which a song must have started. -/
  initCycles : Option Nat := none
  deriving DecidableEq, Inhabited

namespace Config

/-- The frames in which a song must have started, if nothing else is said. -/
def defaultInitFrames : Nat :=
  50

/-- The cycles in which a song must have started. -/
def initCycleLimit (config : Config) : Nat :=
  config.initCycles.getD (defaultInitFrames * config.region.cyclesPerFrame)

end Config

end ChipScore
