/-!
# Double-precision numbers

The binary floating-point numbers of sixty-four bits, as data that can be computed with and
reasoned about.  A number is a sign and a `rank`: the place of its magnitude in the list of all
magnitudes, from zero over the finite magnitudes to infinity; ranks beyond infinity are not
numbers.  The sixty-three low bits of the usual encoding are exactly the rank.

Every finite magnitude is a whole number of units of `2 ^ -1074`, given by `unitsAt`, and
`unitsAt` is strictly increasing in the rank.  An operation computes its exact result as a
quotient of two naturals and rounds it once, with `nearestRank`: to the nearest magnitude, and to
the even rank of two that are equally near.
-/

namespace ChipScore

/-- The number of ranks, which is the value of the sign bit. -/
def Binary64.rankCount : Nat :=
  1 <<< 63

/-- A double-precision number. -/
structure Binary64 where
  /-- The sign bit. -/
  negative : Bool
  /-- The place of the magnitude among all magnitudes. -/
  rank : Nat
  /-- A rank has sixty-three bits. -/
  rank_lt : rank < Binary64.rankCount
  deriving DecidableEq

namespace Binary64

/-- The number of magnitudes from one power of two up to the next. -/
def binade : Nat :=
  1 <<< 52

/-- The rank of infinity. -/
def infinityRank : Nat :=
  2047 * binade

/-- The number with a sign and the lesser of a rank and infinity's. -/
def ofRank (negative : Bool) (rank : Nat) : Binary64 :=
  ⟨negative, min rank infinityRank, by
    have : infinityRank < rankCount := by decide
    omega⟩

/-- Zero with a sign. -/
def signedZero (negative : Bool) : Binary64 :=
  ofRank negative 0

/-- Zero. -/
def zero : Binary64 :=
  signedZero false

/-- Infinity with a sign. -/
def infinity (negative : Bool) : Binary64 :=
  ofRank negative infinityRank

/-- The result of an operation that has none. -/
def nan : Binary64 :=
  ⟨false, infinityRank + binade / 2, by decide⟩

instance : Inhabited Binary64 :=
  ⟨zero⟩

/-- The number that sixty-four bits encode. -/
def ofBits (bits : UInt64) : Binary64 :=
  ⟨rankCount ≤ bits.toNat, bits.toNat % rankCount, Nat.mod_lt _ (by decide)⟩

/-- The encoding of a number. -/
def toBits (x : Binary64) : UInt64 :=
  UInt64.ofNat ((if x.negative then rankCount else 0) + x.rank)

/-- Whether a number is not a number. -/
def isNaN (x : Binary64) : Bool :=
  infinityRank < x.rank

/-- Whether a number is infinite. -/
def isInfinite (x : Binary64) : Bool :=
  x.rank == infinityRank

/-- Whether a number is finite. -/
def isFinite (x : Binary64) : Bool :=
  x.rank < infinityRank

/-- Whether a number is a zero. -/
def isZero (x : Binary64) : Bool :=
  x.rank == 0

/-! ### Magnitudes -/

/-- The number of units in one. -/
def unitsPerOne : Nat :=
  1 <<< 1074

/-- The magnitude of a finite rank in units.  The first two binades count units; from there
on the step doubles with every binade. -/
def unitsAt (rank : Nat) : Nat :=
  if rank < binade then rank else (binade + rank % binade) <<< (rank / binade - 1)

/-- The natural number nearest a quotient, the even one of two that are equally near. -/
def roundHalfEven (num den : Nat) : Nat :=
  let floor := num / den
  let rest := 2 * (num % den)
  if rest < den then floor
  else if den < rest then floor + 1
  else floor + floor % 2

/-- The rank of the magnitude nearest a quotient of units, the even one of two that are equally
near.  Ranks past infinity's stand for quotients that are too large. -/
def nearestRank (num den : Nat) : Nat :=
  let step := (num / den).log2 - 52
  step * binade + roundHalfEven num (den <<< step)

/-- The number nearest a signed quotient of units. -/
def round (negative : Bool) (num den : Nat) : Binary64 :=
  ofRank negative (nearestRank num den)

/-- The magnitude of a finite number in units. -/
def units (x : Binary64) : Nat :=
  unitsAt x.rank

/-- A finite number in units. -/
def signedUnits (x : Binary64) : Int :=
  if x.negative then -(x.units : Int) else x.units

/-- The number nearest a quotient of naturals. -/
def ofRatio (num den : Nat) : Binary64 :=
  round false (num * unitsPerOne) den

/-- The number nearest a natural number. -/
def ofNat (n : Nat) : Binary64 :=
  ofRatio n 1

/-! ### Order -/

/-- The place of a number on the line: negative numbers before zero, both zeros at zero. -/
def position (x : Binary64) : Int :=
  if x.negative then -(x.rank : Int) else x.rank

/-- Whether one number is less than another; nothing is comparable with what is not a number. -/
def lt (x y : Binary64) : Bool :=
  !x.isNaN && !y.isNaN && x.position < y.position

/-- The lesser of two numbers; the other one if one is not a number. -/
def min (x y : Binary64) : Binary64 :=
  if x.isNaN || y.lt x then y else x

/-- Whether a number is finite and greater than zero. -/
def isPositive (x : Binary64) : Bool :=
  x.isFinite && zero.lt x

/-! ### Arithmetic -/

/-- The number with the other sign. -/
def neg (x : Binary64) : Binary64 :=
  ⟨!x.negative, x.rank, x.rank_lt⟩

/-- The sum of finite numbers.  A zero sum is negative only if both terms are. -/
def addFinite (x y : Binary64) : Binary64 :=
  let sum := x.signedUnits + y.signedUnits
  if sum = 0 then signedZero (x.negative && y.negative) else round (sum < 0) sum.natAbs 1

/-- The sum of two numbers. -/
def add (x y : Binary64) : Binary64 :=
  if x.isNaN || y.isNaN then nan
  else if x.isInfinite then (if y.isInfinite && x.negative != y.negative then nan else x)
  else if y.isInfinite then y
  else addFinite x y

/-- The difference of two numbers. -/
def sub (x y : Binary64) : Binary64 :=
  add x y.neg

/-- The product of two numbers. -/
def mul (x y : Binary64) : Binary64 :=
  let negative := x.negative != y.negative
  if x.isNaN || y.isNaN then nan
  else if x.isInfinite || y.isInfinite then
    (if x.isZero || y.isZero then nan else infinity negative)
  else round negative (x.units * y.units) unitsPerOne

/-- The quotient of two numbers. -/
def div (x y : Binary64) : Binary64 :=
  let negative := x.negative != y.negative
  if x.isNaN || y.isNaN then nan
  else if x.isInfinite then (if y.isInfinite then nan else infinity negative)
  else if y.isInfinite then signedZero negative
  else if y.isZero then (if x.isZero then nan else infinity negative)
  else round negative (x.units * unitsPerOne) y.units

instance : Add Binary64 := ⟨add⟩
instance : Sub Binary64 := ⟨sub⟩
instance : Mul Binary64 := ⟨mul⟩
instance : Div Binary64 := ⟨div⟩

/-! ### Whole numbers -/

/-- Replaces the magnitude of a finite number by a whole one, chosen from the sign and the
magnitude in units; every other number stays. -/
def toWhole (choose : Bool → Nat → Nat) (x : Binary64) : Binary64 :=
  if x.isFinite then round x.negative (choose x.negative x.units * unitsPerOne) 1 else x

/-- The greatest whole number that is not above. -/
def floor : Binary64 → Binary64 :=
  toWhole fun negative n =>
    if negative then (n + (unitsPerOne - 1)) / unitsPerOne else n / unitsPerOne

/-- The least whole number that is not below. -/
def ceil : Binary64 → Binary64 :=
  toWhole fun negative n =>
    if negative then n / unitsPerOne else (n + (unitsPerOne - 1)) / unitsPerOne

/-- The nearest whole number, the one away from zero of two that are equally near. -/
def roundHalfAway : Binary64 → Binary64 :=
  toWhole fun _ n => (2 * n + unitsPerOne) / (2 * unitsPerOne)

/-- The whole part of a magnitude, cut off at a bound; zero for what is not a number. -/
def wholePart (x : Binary64) (bound : Nat) : Nat :=
  if x.isNaN then 0
  else if x.isInfinite then bound
  else Nat.min (x.units / unitsPerOne) bound

/-- The greatest natural number of sixty-four bits. -/
def maxNat64 : Nat :=
  0xFFFFFFFFFFFFFFFF

/-- The whole part of a number as a natural number of sixty-four bits; numbers outside the range
become its nearest end, and what is not a number becomes zero. -/
def toNat64 (x : Binary64) : Nat :=
  if x.negative then 0 else x.wholePart maxNat64

/-- The greatest integer of thirty-two bits. -/
def maxInt32 : Nat :=
  0x7FFFFFFF

/-- The whole part of a number as an integer of thirty-two bits; numbers outside the range become
its nearest end, and what is not a number becomes zero. -/
def toInt32 (x : Binary64) : Int :=
  if x.negative then -(x.wholePart (maxInt32 + 1) : Int) else x.wholePart maxInt32

end Binary64

end ChipScore
