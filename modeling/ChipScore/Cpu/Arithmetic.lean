import ChipScore.Cpu
import ChipScore.Opcode

/-!
# Arithmetic and logic

The operations on bytes behind the instructions.  Sums and differences are binary whatever the
decimal flag says.  A subtraction adds the complement, so that the carry flag means "no borrow".
-/

namespace ChipScore

/-- The flags of comparing a register with a byte: the carry means that the register is not
below the byte. -/
def Flags.compare (f : Flags) (register value : UInt8) : Flags :=
  { f with
    negative := (register - value) &&& 0x80 != 0
    zero := register == value
    carry := value ≤ register }

/-- The sum of the accumulator, a byte and the carry.  It overflows when both terms have one
sign and the sum has the other. -/
def Flags.addWithCarry (f : Flags) (a value : UInt8) : UInt8 × Flags :=
  let wide := a.toUInt16 + value.toUInt16 + (if f.carry then 1 else 0)
  let sum := wide.toUInt8
  (sum, { f.describe sum with
    carry := 0xFF < wide
    overflow := (a ^^^ sum) &&& (value ^^^ sum) &&& 0x80 != 0 })

/-- Combines the accumulator with a byte: the new accumulator and the new flags. -/
def Combination.apply (c : Combination) (f : Flags) (a value : UInt8) : UInt8 × Flags :=
  match c with
  | .add => f.addWithCarry a value
  | .subtract => f.addWithCarry a (value ^^^ 0xFF)
  | .and => (a &&& value, f.describe (a &&& value))
  | .or => (a ||| value, f.describe (a ||| value))
  | .xor => (a ^^^ value, f.describe (a ^^^ value))
  | .compare => (a, f.compare a value)

/-- A changed byte, before the flags that describe it. -/
def Modification.result (m : Modification) (carry : Bool) (value : UInt8) : UInt8 :=
  match m with
  | .shiftLeft => value <<< 1
  | .shiftRight => value >>> 1
  | .rotateLeft => value <<< 1 ||| (if carry then 1 else 0)
  | .rotateRight => value >>> 1 ||| (if carry then 0x80 else 0)
  | .increment => value + 1
  | .decrement => value - 1

/-- The carry after a change: the bit that is moved out, or the old carry where none is. -/
def Modification.carryOut (m : Modification) (carry : Bool) (value : UInt8) : Bool :=
  match m with
  | .shiftLeft | .rotateLeft => value &&& 0x80 != 0
  | .shiftRight | .rotateRight => value &&& 0x01 != 0
  | .increment | .decrement => carry

/-- Changes a byte: the new byte and the new flags. -/
def Modification.apply (m : Modification) (f : Flags) (value : UInt8) : UInt8 × Flags :=
  let result := m.result f.carry value
  (result, { f with carry := m.carryOut f.carry value }.describe result)

/-- The flags of testing a byte under the accumulator. -/
def Flags.testBits (f : Flags) (a value : UInt8) : Flags :=
  { f with
    zero := a &&& value == 0
    negative := value &&& 0x80 != 0
    overflow := value &&& 0x40 != 0 }

/-- The value of a flag. -/
def Flags.get (f : Flags) : Flag → Bool
  | .negative => f.negative
  | .overflow => f.overflow
  | .decimal => f.decimal
  | .interruptDisable => f.interruptDisable
  | .zero => f.zero
  | .carry => f.carry

/-- Gives a flag a value. -/
def Flags.assign (f : Flags) (flag : Flag) (value : Bool) : Flags :=
  match flag with
  | .negative => { f with negative := value }
  | .overflow => { f with overflow := value }
  | .decimal => { f with decimal := value }
  | .interruptDisable => { f with interruptDisable := value }
  | .zero => { f with zero := value }
  | .carry => { f with carry := value }

end ChipScore
