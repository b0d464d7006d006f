import ChipScore.Binary64.Logarithm

/-!
# Pitches

A frequency register counts steps of the chip's phase accumulator, which overflows after
`2 ^ 24` of them.  A pitch is the number of the nearest semitone, with A4 at 69.
-/

namespace ChipScore.Pitch

/-- The steps of the phase accumulator in one period. -/
def accumulatorSteps : Nat :=
  1 <<< 24

/-- The frequency of a register in hertz. -/
def hertz (register : UInt16) (clockHz : Binary64) : Binary64 :=
  Binary64.ofNat register.toNat * (clockHz / Binary64.ofNat accumulatorSteps)

/-- The semitone nearest a frequency in hertz. -/
def ofHertz (hertz : Binary64) : Int :=
  (Binary64.ofNat 12 * (hertz / Binary64.ofNat 440).log2 + Binary64.ofNat 69).roundHalfAway.toInt32

/-- The semitone nearest a register's frequency; a register of zero is silent. -/
def nearest? (register : UInt16) (clockHz : Binary64) : Option Int :=
  if register = 0 then none else some (ofHertz (hertz register clockHz))

end ChipScore.Pitch
