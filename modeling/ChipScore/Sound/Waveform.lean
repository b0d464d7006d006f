/-!
# Waveforms

A voice selects its waveform by the upper half of its control register.  Exactly one bit selects
a waveform; every other pattern selects none.
-/

namespace ChipScore

/-- The waveforms of a voice. -/
inductive Waveform
  | triangle
  | sawtooth
  | pulse
  | noise
  deriving DecidableEq, Inhabited

namespace Waveform

/-- The waveforms, in the order of their bits. -/
def all : List Waveform :=
  [triangle, sawtooth, pulse, noise]

/-- The number of a waveform. -/
def index : Waveform → Fin 4
  | triangle => 0
  | sawtooth => 1
  | pulse => 2
  | noise => 3

/-- The name of a waveform in a note dump. -/
def name : Waveform → String
  | triangle => "triangle"
  | sawtooth => "sawtooth"
  | pulse => "pulse"
  | noise => "noise"

/-- The name of a waveform in a log. -/
def title : Waveform → String
  | triangle => "Triangle"
  | sawtooth => "Sawtooth"
  | pulse => "Pulse"
  | noise => "Noise"

/-- The bits of a control register that select a waveform, as a number below sixteen. -/
def selector (control : UInt8) : Nat :=
  control.toNat / 16

/-- The waveform that a control register selects. -/
def ofControl? (control : UInt8) : Option Waveform :=
  match selector control with
  | 1 => some triangle
  | 2 => some sawtooth
  | 4 => some pulse
  | 8 => some noise
  | _ => none

end Waveform

end ChipScore
