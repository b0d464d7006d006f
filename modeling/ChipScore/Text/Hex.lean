/-!
# Hexadecimal text

Addresses and bytes are written in upper-case hexadecimal digits of a fixed least width.
-/

namespace ChipScore.Hex

/-- The hexadecimal digit of a number below sixteen. -/
def digit (n : Nat) : Char :=
  Char.ofNat (if n < 10 then 48 + n else 55 + n)

/-- The digits of `n`, least significant last, with at least `width` of them. -/
def digits : Nat → Nat → List Char
  | 0, n => if n = 0 then [] else (Nat.toDigits 16 n).map Char.toUpper
  | width + 1, n => digits width (n / 16) ++ [digit (n % 16)]

/-- A byte as two digits. -/
def byte (b : UInt8) : String :=
  String.ofList (digits 2 b.toNat)

/-- A word as four digits. -/
def word (w : UInt16) : String :=
  String.ofList (digits 4 w.toNat)

/-- An address as a dollar sign and four digits. -/
def address (w : UInt16) : String :=
  "$" ++ word w

end ChipScore.Hex
