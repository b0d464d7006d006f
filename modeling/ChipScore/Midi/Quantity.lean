/-!
# Variable-length quantities

A quantity is written in groups of seven bits, most significant first.  Every byte but the last
has its high bit set, and the first group is not zero unless it is the only one.
-/

namespace ChipScore.Midi.Quantity

/-- The groups in front of the last one. -/
def leading (n : Nat) : List UInt8 :=
  if n = 0 then [] else leading (n / 128) ++ [0x80 ||| UInt8.ofNat (n % 128)]
  termination_by n
  decreasing_by omega

/-- The bytes of a quantity. -/
def encode (n : Nat) : List UInt8 :=
  leading (n / 128) ++ [UInt8.ofNat (n % 128)]

end ChipScore.Midi.Quantity
