import ChipScore.Binary64

/-!
# The logarithm to base two

The logarithm of a positive number is the exponent of its leading bit plus the logarithm of what
remains, a number in `[1, 2)`.  The latter is found bit by bit: squaring a number doubles its
logarithm, so the next bit says whether the square has reached two.  All numbers have
`fractionBits` fraction bits; what is cut off on the way changes the logarithm by less than
`2 ^ -90`, so that one which lies close to the middle between two numbers is still rounded to the
nearer of them.
-/

namespace ChipScore.Binary64

/-- The number of fraction bits of a logarithm before it is rounded. -/
def fractionBits : Nat :=
  96

/-- Appends the next `n` bits of the logarithm of `y / 2 ^ fractionBits`, a number in `[1, 2)`, to
the bits found so far. -/
def logBits (y bits : Nat) : Nat → Nat
  | 0 => bits
  | n + 1 =>
    let square := (y * y) >>> fractionBits
    if square < 2 <<< fractionBits then
      logBits square (2 * bits) n
    else
      logBits (square >>> 1) (2 * bits + 1) n

/-- The logarithm of a positive number of units, as a multiple of `2 ^ -fractionBits`. -/
def logUnits (units : Nat) : Int :=
  let lead := units.log2
  let y := (units <<< fractionBits) >>> lead
  ((lead : Int) - 1074) * (1 <<< fractionBits : Nat) + logBits y 0 fractionBits

/-- The logarithm to base two.  Zero has an infinite one, and a negative number has none. -/
def log2 (x : Binary64) : Binary64 :=
  if x.isNaN then nan
  else if x.isZero then infinity true
  else if x.negative then nan
  else if x.isInfinite then x
  else
    let log := logUnits x.units
    round (log < 0) (log.natAbs * unitsPerOne) (1 <<< fractionBits)

end ChipScore.Binary64
