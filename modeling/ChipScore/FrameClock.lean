import ChipScore.Binary64
import ChipScore.Binary64.Decimal

/-!
# The frame clock

Music is rendered in frames, and a clock counts them.  It converts between frames and seconds at a
frame rate that is finite and greater than zero.
-/

namespace ChipScore

/-- The frames that have passed, and how many of them make a second. -/
structure FrameClock where
  /-- The number of the current frame. -/
  frame : Nat
  /-- Frames per second. -/
  rate : Binary64
  /-- The rate is finite and greater than zero. -/
  rate_pos : rate.isPositive = true

/-- Why there is no clock. -/
inductive ClockError
  /-- The rate is not finite or not greater than zero. -/
  | badRate (rate : Binary64)
  deriving DecidableEq

namespace ClockError

/-- A refused rate is written out in full, without a fraction if it has none. -/
def rateLayout : Decimal.Layout where
  tie := .larger
  positional _ := true
  wholeSuffix := ""
  infinity := "inf"
  nan := "NaN"

/-- The text of an error. -/
def message : ClockError → String
  | .badRate rate => "frame rate must be positive, got " ++ rate.text rateLayout

end ClockError

namespace FrameClock

/-- The clock at frame zero, if the rate is finite and greater than zero. -/
def start (rate : Binary64) : Except ClockError FrameClock :=
  if h : rate.isPositive = true then .ok ⟨0, rate, h⟩ else .error (.badRate rate)

/-- The clock a number of frames later. -/
def advance (clock : FrameClock) (frames : Nat) : FrameClock :=
  { clock with frame := clock.frame + frames }

/-- The seconds from a frame to the current one, zero if that frame is still to come. -/
def secondsSince (clock : FrameClock) (frame : Nat) : Binary64 :=
  Binary64.ofNat (clock.frame - frame) / clock.rate

/-- The frames that a duration needs, a started one counted in full. -/
def framesIn (clock : FrameClock) (seconds : Binary64) : Nat :=
  (seconds * clock.rate).ceil.toNat64

end FrameClock

end ChipScore
