import ChipScore.Binary64

/-!
# Decimal text of double-precision numbers

A finite number is written with the fewest digits that read back as the same number, and with the
nearest of those to the number.  `Decimal.shortest` finds the digits: for one digit, two digits
and so on it tries the two neighbours of the number on that decimal grid, and takes the first
that lies among the reals that round to the number.  Where both are equally near, a `Tie` decides.

How the digits are laid out is a matter of the text they appear in, and is described by a
`Layout`.  Reading is the inverse: `Decimal.read?` accepts decimal numerals with a point and an
exponent and rounds their exact value once.
-/

namespace ChipScore

/-- A positive decimal number `significand * 10 ^ exponent`. -/
structure Decimal where
  /-- The digits as a natural number. -/
  significand : Nat
  /-- The power of ten they are multiplied by. -/
  exponent : Int
  deriving DecidableEq, Inhabited

namespace Decimal

/-- The digits of a natural number. -/
def digits (n : Nat) : List Char :=
  (toString n).toList

/-- The power of ten as a quotient of two naturals. -/
def scale (exponent : Int) : Nat × Nat :=
  (Nat.pow 10 exponent.toNat, Nat.pow 10 (-exponent).toNat)

/-- Whether a decimal number lies among the reals that round to a positive rank.  They reach half
way to the neighbouring magnitudes, and the ends belong to them if the rank is even. -/
def roundsTo (d : Decimal) (rank : Nat) : Bool :=
  let (num, den) := scale d.exponent
  let twice := 2 * Binary64.unitsPerOne * d.significand * num
  let low := (Binary64.unitsAt (rank - 1) + Binary64.unitsAt rank) * den
  let high := (Binary64.unitsAt rank + Binary64.unitsAt (rank + 1)) * den
  if rank % 2 == 0 then low ≤ twice && twice ≤ high else low < twice && twice < high

/-- Which of two decimal numbers is taken that are equally near. -/
inductive Tie
  /-- The one with an even significand. -/
  | even
  /-- The larger one. -/
  | larger
  deriving DecidableEq

/-- Whether the smaller one of two neighbours is taken if they are equally near. -/
def Tie.takesSmaller (tie : Tie) (smaller : Nat) : Bool :=
  match tie with
  | .even => smaller % 2 == 0
  | .larger => false

/-- The neighbours of a magnitude on the grid of multiples of a power of ten, the nearer one
first. -/
def neighbours (tie : Tie) (units : Nat) (exponent : Int) : Decimal × Decimal :=
  let (num, den) := scale exponent
  let below := units * den / (Binary64.unitsPerOne * num)
  let rest := 2 * (units * den % (Binary64.unitsPerOne * num))
  let middle := Binary64.unitsPerOne * num
  if rest < middle || (rest == middle && tie.takesSmaller below) then
    (⟨below, exponent⟩, ⟨below + 1, exponent⟩)
  else
    (⟨below + 1, exponent⟩, ⟨below, exponent⟩)

/-- Takes zeros off the end of the digits. -/
def trim (d : Decimal) : Nat → Decimal
  | 0 => d
  | n + 1 =>
    if d.significand % 10 == 0 then trim ⟨d.significand / 10, d.exponent + 1⟩ n else d

/-- The first of the grids, from one on which the number has one digit to ever finer ones, that
has a decimal number rounding to a rank. -/
def search (tie : Tie) (rank units : Nat) (exponent : Int) : Nat → Decimal
  | 0 => (neighbours tie units exponent).1
  | n + 1 =>
    let (near, far) := neighbours tie units exponent
    if near.roundsTo rank then near
    else if far.roundsTo rank then far
    else search tie rank units (exponent - 1) n

/-- The exponent of the leading decimal digit of a positive magnitude. -/
def leading (units : Nat) : Int :=
  ((digits (units * Nat.pow 10 324 / Binary64.unitsPerOne)).length : Int) - 325

/-- The decimal number with the fewest digits that rounds to a positive rank, and the nearest of
those; seventeen digits always suffice. -/
def shortest (tie : Tie) (rank : Nat) : Decimal :=
  let units := Binary64.unitsAt rank
  (search tie rank units (leading units) 16).trim 17

/-- How a number is written. -/
structure Layout where
  /-- Which of two equally near numbers is written. -/
  tie : Tie
  /-- Whether a number is written positionally, by the exponent of its leading digit. -/
  positional : Int → Bool
  /-- What follows a number that is written positionally and has no fraction. -/
  wholeSuffix : String
  /-- The text of infinity, without its sign. -/
  infinity : String
  /-- The text of what is not a number. -/
  nan : String

/-- The digits with a point before the last `places` of them, which are filled up with zeros in
front. -/
def pointed (digits : List Char) (places : Nat) : String :=
  let filled := List.replicate (places + 1 - digits.length) '0' ++ digits
  String.ofList (filled.take (filled.length - places)) ++ "."
    ++ String.ofList (filled.drop (filled.length - places))

/-- A decimal number in full. -/
def positionalText (layout : Layout) (d : Decimal) : String :=
  if d.exponent < 0 then
    pointed (digits d.significand) (-d.exponent).toNat
  else
    String.ofList (digits d.significand ++ List.replicate d.exponent.toNat '0')
      ++ layout.wholeSuffix

/-- A decimal number with an exponent, which always has a sign. -/
def exponentText (d : Decimal) (leading : Int) : String :=
  let mantissa :=
    match digits d.significand with
    | [] => ""
    | [c] => String.singleton c
    | c :: rest => String.singleton c ++ "." ++ String.ofList rest
  mantissa ++ "e" ++ (if leading < 0 then "-" else "+") ++ toString leading.natAbs

/-- A decimal number laid out. -/
def text (layout : Layout) (d : Decimal) : String :=
  let leading := d.exponent + (digits d.significand).length - 1
  if layout.positional leading then d.positionalText layout else d.exponentText leading

end Decimal

namespace Binary64

/-- A number, written in a layout. -/
def text (layout : Decimal.Layout) (x : Binary64) : String :=
  if x.isNaN then
    layout.nan
  else
    (if x.negative then "-" else "") ++
      (if x.isInfinite then layout.infinity
        else if x.isZero then "0" ++ layout.wholeSuffix
        else (Decimal.shortest layout.tie x.rank).text layout)

end Binary64

namespace Decimal

/-- The value of a list of digits. -/
def value (digits : List Char) : Nat :=
  digits.foldl (fun n c => 10 * n + (c.toNat - 48)) 0

/-- A sign in front of a numeral, and the rest of it. -/
def signed : List Char → Bool × List Char
  | '-' :: rest => (true, rest)
  | '+' :: rest => (false, rest)
  | rest => (false, rest)

/-- The exponent of a numeral: nothing, or an `e` and a signed run of digits. -/
def readExponent? : List Char → Option Int
  | [] => some 0
  | c :: rest =>
    let (negative, rest) := signed rest
    if c.toLower == 'e' && !rest.isEmpty && rest.all Char.isDigit then
      some (if negative then -(value rest : Int) else value rest)
    else
      none

/-- The number nearest a signed decimal number.  Exponents that put the number beyond every finite
magnitude, or below half of the least one, are not multiplied out. -/
def toBinary64 (negative : Bool) (d : Decimal) : Binary64 :=
  let leading := d.exponent + (digits d.significand).length
  if d.significand == 0 || leading < -400 then Binary64.signedZero negative
  else if 400 < leading then Binary64.infinity negative
  else
    let (num, den) := scale d.exponent
    Binary64.round negative (d.significand * num * Binary64.unitsPerOne) den

/-- The number that an unsigned numeral names. -/
def readUnsigned? (negative : Bool) (text : List Char) : Option Binary64 :=
  let lower := text.map Char.toLower
  if lower = "nan".toList then some Binary64.nan
  else if lower = "inf".toList || lower = "infinity".toList then some (Binary64.infinity negative)
  else
    let whole := text.takeWhile Char.isDigit
    let rest := text.dropWhile Char.isDigit
    let (fraction, rest) :=
      match rest with
      | '.' :: rest => (rest.takeWhile Char.isDigit, rest.dropWhile Char.isDigit)
      | rest => ([], rest)
    if whole.isEmpty && fraction.isEmpty then
      none
    else
      (readExponent? rest).map fun exponent =>
        toBinary64 negative ⟨value (whole ++ fraction), exponent - fraction.length⟩

/-- The number nearest the one that a numeral names. -/
def read? (text : String) : Option Binary64 :=
  let (negative, rest) := signed text.toList
  readUnsigned? negative rest

end Decimal

end ChipScore
